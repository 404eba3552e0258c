/-
# `GestionAppui` — short and long presses

A press is the visit of state 6 (port) or 7 (starboard).  It begins with
`Delay` at 0, because state 4 holds `reset_Delay` at '1', and `Delay` counts
the pulses of the 1 s clock while it lasts (`visite_run`).  With at most one
pulse in a second and at least two in two seconds and a cycle:

    released within 49,999,000 edges       a step of 1 degree
    held for 100,001,000 edges             a step of 10 degrees

(`appui_court_ou_long`).

In between, the release and the second pulse may meet at one edge.  The press
is then released with `Delay` at 2, no transition of its state is enabled, and
it never ends: `Bloque`.  A run is free of this iff no edge is such a
`Coincidence` (`bloque_iff`), and one is reached by a plain press of one second
at the right moment (`appui_bloque`).
-/
import BarreFranche.GestionRebond
import BarreFranche.GestionHorloge

namespace BarreFranche.GestionBoutton

open Synchrone

variable {u : PowerUp} {w : ℕ → GestionEntrees} {b : Bord}

/-! ## The visit of a press -/

theorem deux_le {v : BitVec 16} : 2 ≤ v ↔ 2 ≤ v.toNat := BitVec.le_def

theorem lt_deux {v : BitVec 16} : v < 2 ↔ v.toNat < 2 := BitVec.lt_def

theorem rang_appui : rang b.appui = 3 := by
  cases b <;> rfl

/-- The edge that takes a press. -/
theorem prise {x : ℕ} (h0 : (cycle u w x).presentState ≠ b.appui)
    (h1 : (cycle u w (x + 1)).presentState = b.appui) :
    SansReset (w x) ∧ (cycle u w x).presentState = .e4 ∧
      (cycle u w x).bp.get b.bouton = .zero ∧ (cycle u w (x + 1)).delay = 0 := by
  rw [cycle_succ] at h1
  have hs : SansReset (w x) :=
    sansReset_of_haut (s := cycle u w x) (Or.inl (by rw [h1]; exact arme_appui b))
  rw [etape_sansReset hs] at h1
  rcases vers_appui h1 with h | ⟨h4, hbp⟩
  · exact absurd h h0
  · refine ⟨hs, h4, hbp, ?_⟩
    rw [cycle_succ, etape_delay, compteur_clear (resetDelay_e4 h4)]

/-- During a press that is not released, and as long as `Delay` has not
reached 2, `Delay` is the number of pulses. -/
theorem visite_run {y d : ℕ} (hy : (cycle u w y).presentState = b.appui)
    (hd : (cycle u w y).delay = 0) (hr : ∀ k, k < d → SansReset (w (y + k)))
    (hbp : ∀ k, k < d → (cycle u w (y + k)).bp.get b.bouton ≠ .one)
    (hun : ∀ k, k < d → battements u w y (y + k) ≤ 1) :
    (cycle u w (y + d)).presentState = b.appui ∧
      (cycle u w (y + d)).delay.toNat = battements u w y (y + d) := by
  refine cycle_window (I := fun k s => s.presentState = b.appui ∧
    s.delay.toNat = battements u w y (y + k)) ⟨hy, ?_⟩ (fun k hk ⟨hs, hdel⟩ => ⟨?_, ?_⟩) d le_rfl
  · rw [hd, battements, Nat.add_zero, pulses_self]
    rfl
  · have h2 : ¬ 2 ≤ (cycle u w (y + k)).delay := by
      rw [deux_le, hdel]
      exact Nat.not_le.mpr (Nat.lt_succ_of_le (hun k hk))
    rw [etape_sansReset (hr k hk), hs, etatSuivant_appui, if_neg fun h => h2 h.2,
      if_neg fun h => hbp k hk h.1]
  · have hlatch : (cycle u w (y + k)).sorties.resetDelay ≠ .one := by
      rw [resetDelay_appui hs]
      decide
    have hsucc : battements u w y (y + (k + 1)) = battements u w y (y + k) +
        if (cycle u w (y + k)).clkDetectedEdge = .one then 1 else 0 :=
      pulses_succ (Nat.le_add_right y k)
    have hle := hun k hk
    rw [← cycle_succ, delay_succ hlatch, hsucc, ← hdel]
    split_ifs
    · rw [toNat_incr (by omega)]
    · rfl

/-- A long press lasts until the release. -/
theorem maintien_run {a n : ℕ} (han : a ≤ n) (ha : (cycle u w a).presentState = b.maintien)
    (h : ∀ k, a ≤ k → k < n →
      SansReset (w k) ∧ (cycle u w k).bp.get b.bouton ≠ .one) :
    (cycle u w n).presentState = b.maintien := by
  refine attente_run han ha fun k hak hkn => ⟨(h k hak hkn).1, ?_⟩
  rw [etatSuivant_maintien, if_neg (h k hak hkn).2]

/-- And the first burst after it is the one of 10 degrees. -/
theorem maintien_suite {a : ℕ} (ha : (cycle u w a).presentState = b.maintien) {n : ℕ}
    (han : a ≤ n) (h : ∀ k, a ≤ k → k < n →
      SansReset (w k) ∧ ¬ Salve (cycle u w k).presentState) :
    (cycle u w n).presentState = b.maintien ∨ (cycle u w n).presentState = b.pas10 := by
  induction n, han using Nat.le_induction with
  | base => exact Or.inl ha
  | succ n han ih =>
      obtain ⟨hr, hno⟩ := h n han (Nat.lt_succ_self n)
      rcases ih fun k hak hkn => h k hak (by omega) with hs | hs
      · rw [cycle_succ, etape_sansReset hr, hs, etatSuivant_maintien]
        split_ifs
        · exact Or.inr rfl
        · exact Or.inl rfl
      · rw [hs] at hno
        exact absurd (salve_pas10 b) hno

/-! ## Short and long -/

section
variable {x : ℕ} (h0 : (cycle u w x).presentState ≠ b.appui)
  (h1 : (cycle u w (x + 1)).presentState = b.appui)

include h0 h1

/-- A press released after fewer than 49,999,000 edges. -/
theorem appui_court {i : ℕ} (hi : i < 49999000) (hr : ∀ k, k ≤ i → SansReset (w (x + 1 + k)))
    (hbp : ∀ k, k < i → (cycle u w (x + 1 + k)).bp.get b.bouton ≠ .one)
    (hone : (cycle u w (x + 1 + i)).bp.get b.bouton = .one) :
    (cycle u w (x + 1 + i)).presentState = b.appui ∧
      (cycle u w (x + 1 + i + 1)).presentState = b.pas1 := by
  obtain ⟨-, -, -, hd⟩ := prise h0 h1
  obtain ⟨j, hj, hav⟩ := avance_of_rang (u := u) (w := w) (n := x + 1) (by rw [h1, rang_appui])
  have hun : ∀ k, k ≤ i → battements u w (x + 1) (x + 1 + k) ≤ 1 := fun k hk =>
    battements_le_un hav hj (d := i) (fun l hl => hr l (by omega)) hk (by omega)
  obtain ⟨hs, hdel⟩ := visite_run h1 hd (d := i) (fun k hk => hr k (by omega)) hbp
    (fun k hk => hun k (by omega))
  have hle := hun i le_rfl
  refine ⟨hs, ?_⟩
  rw [cycle_succ, etape_sansReset (hr i le_rfl), hs, etatSuivant_appui, if_neg, if_pos]
  · refine ⟨hone, ?_⟩
    rw [lt_deux, hdel]
    omega
  · rintro ⟨hz, -⟩
    exact StdLogic.ne_zero_of_one hone hz

/-- A press held for two seconds and a little more. -/
theorem appui_long (h : ∀ k, k < 100001000 → SansReset (w (x + 1 + k)) ∧
      (cycle u w (x + 1 + k)).bp.get b.bouton = .zero) :
    (cycle u w (x + 1 + 100001000)).presentState = b.maintien := by
  obtain ⟨-, -, -, hd⟩ := prise h0 h1
  obtain ⟨j, hj, hav⟩ := avance_of_rang (u := u) (w := w) (n := x + 1) (by rw [h1, rang_appui])
  have hne : ∀ k, k < 100001000 → (cycle u w (x + 1 + k)).bp.get b.bouton ≠ .one :=
    fun k hk => StdLogic.ne_one_of_zero (h k hk).2
  -- the first cycle at which `Delay` is 2
  obtain ⟨i, hlt, hi, hmin⟩ := pulses_premier (deux_battements hav hj (d := 100000001)
    (fun k hk => (h k (by omega)).1) le_rfl)
  obtain ⟨hs, hdel⟩ := visite_run h1 hd (d := i) (fun k hk => (h k (by omega)).1)
    (fun k hk => hne k (by omega)) (fun k hk => Nat.le_of_lt_succ (hmin k hk))
  obtain ⟨hri, hzi⟩ := h i (by omega)
  have hm : (cycle u w (x + 1 + i + 1)).presentState = b.maintien := by
    rw [cycle_succ, etape_sansReset hri, hs, etatSuivant_appui, if_pos]
    refine ⟨hzi, ?_⟩
    rw [deux_le, hdel]
    exact hi
  refine maintien_run (by omega) hm ?_
  intro k hk hkn
  obtain ⟨l, rfl⟩ : ∃ l, k = x + 1 + l := ⟨k - (x + 1), by omega⟩
  exact ⟨(h l (by omega)).1, hne l (by omega)⟩

end

/-! ## A run with one press to port -/

/-- STBY at '0' at the third tick, which engages the pilot, then port at '0'
from tick `a` until tick `c`. -/
def croisiere (a c : ℕ) : ℕ → GestionEntrees :=
  fun n => ⟨[], true, ⟨decide (n < tic a ∨ tic c ≤ n), true, decide (n ≠ tic 3)⟩⟩

section
variable {a c : ℕ}

theorem croisiere_sansReset (n : ℕ) : SansReset (croisiere a c n) := ⟨List.not_mem_nil, rfl⟩

/-- `BP` in the run, from tick to tick. -/
theorem croisiere_bp {k n : ℕ} (hk : 2 ≤ k) (h1 : tic k < n) (h2 : n ≤ tic (k + 1)) :
    (cycle .simulation (croisiere a c) n).bp =
      ⟨.ofBool (decide (tic k < tic a ∨ tic c ≤ tic k)), .one, .ofBool (decide (tic k ≠ tic 3))⟩ :=
  bp_tic (w := croisiere a c) (c := .tribord) (fun _ => rfl) hk h1 h2

/-- Nothing pressed: before the press of STBY, between it and the press of
port, and after that. -/
theorem croisiere_libre {k n : ℕ} (hk : 2 ≤ k) (h3 : k ≠ 3) (hac : k < a ∨ c ≤ k)
    (h1 : tic k < n) (h2 : n ≤ tic (k + 1)) :
    (cycle .simulation (croisiere a c) n).bp = ⟨.one, .one, .one⟩ := by
  have hb : tic k < tic a ∨ tic c ≤ tic k := by
    rcases hac with h | h
    · exact Or.inl (tic_lt h)
    · exact Or.inr (tic_le h)
  rw [croisiere_bp hk h1 h2, decide_eq_true hb, decide_eq_true (tic_ne h3)]
  rfl

/-- Port pressed. -/
theorem croisiere_appui {n : ℕ} (ha : 4 ≤ a) (h1 : tic a < n) (h2 : n ≤ tic c) :
    (cycle .simulation (croisiere a c) n).bp = ⟨.zero, .one, .one⟩ := by
  have h0 : tic 1 < n := Nat.lt_of_le_of_lt (tic_le (by omega)) h1
  obtain ⟨k, -, hk, hk'⟩ := tic_encadre h0
  have hak : a < k + 1 := lt_of_tic h1 hk'
  have hkc : k < c := lt_of_tic hk h2
  have hb : ¬ (tic k < tic a ∨ tic c ≤ tic k) := by
    rintro (h | h)
    · exact absurd (tic_le (by omega : a ≤ k)) (Nat.not_le.mpr h)
    · exact absurd (Nat.lt_of_lt_of_le hk h2) (Nat.not_lt.mpr h)
  rw [croisiere_bp (by omega) hk hk', decide_eq_false hb, decide_eq_true (tic_ne (by omega))]
  rfl

/-- The pilot is engaged after the fourth tick and waits for the press. -/
theorem croisiere_engage {n : ℕ} (ha : 5 ≤ a) (h4n : tic 4 + 2 ≤ n) (hna : n ≤ tic a + 1) :
    (cycle .simulation (croisiere a c) n).presentState = .e4 := by
  have h2 : (croisiere a c (tic 2)).pb = ⟨true, true, true⟩ := by
    have h2a : tic 2 < tic a := tic_lt (by omega)
    simp [croisiere, h2a, tic_ne]
  have he0 := veille_debut (w := croisiere a c) (fun _ => rfl) h2
  have hstby : ∀ n, tic 3 < n → n ≤ tic (3 + 1) →
      (cycle .simulation (croisiere a c) n).bp = ⟨.one, .one, .zero⟩ := by
    intro n h1 h2
    have h3a : tic 3 < tic a := tic_lt (by omega)
    rw [croisiere_bp (by omega) h1 h2, decide_eq_true (Or.inl h3a)]
    simp [StdLogic.ofBool]
  -- state 3 until the release of STBY, then state 4 until the press of port
  have he3 : (cycle .simulation (croisiere a c) (tic 3 + 2)).presentState = .e3 := by
    rw [cycle_succ, etape_sansReset (croisiere_sansReset _), he0, etatSuivant,
      hstby (tic 3 + 1) (Nat.lt_succ_self _) (tic_add_le (by omega))]
    rfl
  have he3' : (cycle .simulation (croisiere a c) (tic (3 + 1) + 1)).presentState = .e3 := by
    refine attente_run (a := tic 3 + 2) ((tic_add_le (by omega)).trans (Nat.le_succ _)) he3
      fun k hk hk' => ⟨croisiere_sansReset k, ?_⟩
    rw [etatSuivant, hstby k (by omega) (by omega)]
    rfl
  have hlibre : ∀ n, tic 4 < n → n ≤ tic a →
      (cycle .simulation (croisiere a c) n).bp = ⟨.one, .one, .one⟩ := by
    intro n h1 h2
    have h14 : tic 1 ≤ tic 4 := tic_le (by omega)
    obtain ⟨k, -, hk, hk'⟩ := tic_encadre (Nat.lt_of_le_of_lt h14 h1)
    have h4k : 4 < k + 1 := lt_of_tic h1 hk'
    exact croisiere_libre (by omega) (by omega) (Or.inl (lt_of_tic hk h2)) hk hk'
  have h4a : tic 4 + 1 ≤ tic a := (tic_add_le (k := 4) (by omega)).trans (tic_le ha)
  have he4 : (cycle .simulation (croisiere a c) (tic 4 + 2)).presentState = .e4 := by
    rw [cycle_succ, etape_sansReset (croisiere_sansReset _), he3', etatSuivant,
      hlibre (tic 4 + 1) (Nat.lt_succ_self _) h4a]
    rfl
  refine attente_run h4n he4 fun k hk hkn => ⟨croisiere_sansReset k, ?_⟩
  rw [etatSuivant_e4, hlibre k (by omega) (by omega)]
  rfl

theorem croisiere_e4 (ha : 5 ≤ a) :
    (cycle .simulation (croisiere a c) (tic a + 1)).presentState = .e4 :=
  croisiere_engage ha (((tic_add_le (by omega)).trans (tic_le ha)).trans (Nat.le_succ _)) le_rfl

/-- The press is taken two cycles after its tick. -/
theorem croisiere_prise (ha : 5 ≤ a) (hac : a < c) :
    (cycle .simulation (croisiere a c) (tic a + 1 + 1)).presentState = Bord.babord.appui := by
  have hle : tic a + 1 ≤ tic c := (tic_add_le (by omega)).trans (tic_le hac)
  rw [cycle_succ, etape_sansReset (croisiere_sansReset _), croisiere_e4 ha, etatSuivant_e4,
    croisiere_appui (by omega) (Nat.lt_succ_self _) hle]
  rfl

end

theorem croisiere_libre_avant (c : ℕ) :
    (cycle .simulation (croisiere 5 c) (tic 5 + 1)).presentState ≠ Bord.babord.appui := by
  rw [croisiere_e4 le_rfl]
  decide

/-- Pressed for one tick: `BP` is at '0' for 501,000 cycles, two of which pass
before the press. -/
theorem croisiere_un_tic {k : ℕ} (hk : k < 500999) :
    (cycle .simulation (croisiere 5 6) (tic 5 + 1 + 1 + k)).bp = ⟨.zero, .one, .one⟩ :=
  croisiere_appui (by omega) (by omega) (by unfold tic; omega)

theorem croisiere_relache :
    (cycle .simulation (croisiere 5 6) (tic 5 + 1 + 1 + 500999)).bp = ⟨.one, .one, .one⟩ :=
  croisiere_libre (k := 6) (by omega) (by omega) (Or.inr le_rfl) (by unfold tic; omega)
    (by unfold tic; omega)

/-- A press of one tick ends in the burst of 1 degree. -/
theorem croisiere_courte :
    (cycle .simulation (croisiere 5 6) (tic 5 + 1 + 1 + 500999)).presentState =
        Bord.babord.appui ∧
      (cycle .simulation (croisiere 5 6) (tic 5 + 1 + 1 + 500999 + 1)).presentState =
        Bord.babord.pas1 := by
  refine appui_court (croisiere_libre_avant 6) (croisiere_prise le_rfl (by omega)) (by omega)
    (fun k _ => croisiere_sansReset _) (fun k hk => ?_) ?_
  · rw [croisiere_un_tic hk]
    decide
  · rw [croisiere_relache]
    rfl

/-! ## The length of a press -/

/-- **Short and long presses.**  Cycle `x + 1` is the first of a visit of state
6 or 7. -/
theorem appui_court_ou_long {x : ℕ} (h0 : (cycle u w x).presentState ≠ b.appui)
    (h1 : (cycle u w (x + 1)).presentState = b.appui) :
    (∀ i, i < 49999000 → (∀ k, k ≤ i → SansReset (w (x + 1 + k))) →
      (∀ k, k < i → (cycle u w (x + 1 + k)).bp.get b.bouton ≠ .one) →
      (cycle u w (x + 1 + i)).bp.get b.bouton = .one →
        (cycle u w (x + 1 + i + 1)).presentState = b.pas1 ∧
          (cycle u w (x + 1 + i + 1)).sorties.codeFonction = some b.code1) ∧
    ((∀ k, k < 100001000 → SansReset (w (x + 1 + k)) ∧
        (cycle u w (x + 1 + k)).bp.get b.bouton = .zero) →
      (cycle u w (x + 1 + 100001000)).presentState = b.maintien ∧
        ∀ n, x + 1 + 100001000 ≤ n →
          (∀ k, x + 1 + 100001000 ≤ k → k < n →
            SansReset (w k) ∧ ¬ Salve (cycle u w k).presentState) →
          Salve (cycle u w n).presentState →
            (cycle u w n).presentState = b.pas10 ∧
              (cycle u w n).sorties.codeFonction = some b.code10) := by
  constructor
  · intro i hi hr hbp hone
    have hs := (appui_court h0 h1 hi hr hbp hone).2
    refine ⟨hs, ?_⟩
    rw [code_etat hs (salve_pas1 b).ne_e0]
    cases b <;> rfl
  · intro h
    have hm := appui_long h0 h1 h
    refine ⟨hm, ?_⟩
    intro n hn hrun hsalve
    rcases maintien_suite hm hn hrun with hs | hs
    · rw [hs] at hsalve
      exact absurd hsalve (arme_maintien b).not_salve
    · refine ⟨hs, ?_⟩
      rw [code_etat hs (salve_pas10 b).ne_e0]
      cases b <;> rfl

/-- A press of one tick, and one of 300 ticks. -/
theorem appui_court_ou_long_temoin :
    (cycle .simulation (croisiere 5 6) (tic 5 + 1 + 1 + 500999 + 1)).presentState = .e9 ∧
      (cycle .simulation (croisiere 5 305) (tic 5 + 1 + 1 + 100001000)).presentState = .e13 := by
  constructor
  · refine ((appui_court_ou_long (croisiere_libre_avant 6) (croisiere_prise le_rfl (by omega))).1
      500999 (by omega) (fun k _ => croisiere_sansReset _) (fun k hk => ?_) ?_).1
    · rw [croisiere_un_tic hk]
      decide
    · rw [croisiere_relache]
      rfl
  · refine ((appui_court_ou_long (croisiere_libre_avant 305)
      (croisiere_prise le_rfl (by omega))).2 fun k hk => ⟨croisiere_sansReset _, ?_⟩).1
    rw [croisiere_appui (by omega) (by omega) (by unfold tic; omega)]
    rfl

/-! ## The coincidence of the release and the second pulse -/

/-- In a press that is released with `Delay` at 2 or more. -/
def Bloque (b : Bord) (s : GestionBoutton) : Prop :=
  s.presentState = b.appui ∧ s.bp.get b.bouton = .one ∧ 2 ≤ s.delay

/-- This edge takes over the release of the press, and the pulse that brings
`Delay` to 2. -/
def Coincidence (b : Bord) (e : GestionEntrees) (s : GestionBoutton) : Prop :=
  SansReset e ∧ s.presentState = b.appui ∧
    (s.bp.get b.bouton = .zero ∧ s.miliS = .one ∧ Stable e.pb s ∧
      e.pb.get b.bouton = true) ∧
    s.delay = 1 ∧ s.clkDetectedEdge = .one

/-- No transition is enabled there. -/
theorem bloque_reste {s : GestionBoutton} (h : Bloque b s) :
    s.etatSuivant s.presentState = s.presentState := by
  obtain ⟨hs, hbp, hd⟩ := h
  rw [hs, etatSuivant_appui, if_neg, if_neg]
  · rintro ⟨-, hlt⟩
    exact absurd hlt (BitVec.not_lt.mpr hd)
  · rintro ⟨hz, -⟩
    exact StdLogic.ne_zero_of_one hbp hz

theorem coincidence_bloque {t : ℕ} (h : Coincidence b (w t) (cycle u w t)) :
    Bloque b (cycle u w (t + 1)) := by
  obtain ⟨hr, hs, ⟨hz, hm, hst, hone⟩, hd, hp⟩ := h
  have hlatch : (cycle u w t).sorties.resetDelay ≠ .one := by
    rw [resetDelay_appui hs]
    decide
  refine ⟨?_, ?_, ?_⟩
  · rw [cycle_succ, etape_sansReset hr, hs, etatSuivant_appui, hd, if_neg, if_neg]
    · rintro ⟨h1, -⟩
      exact StdLogic.ne_one_of_zero hz h1
    · rintro ⟨-, h2⟩
      exact absurd h2 (by decide)
  · rw [bp_succ, if_pos ⟨hm, hst⟩, Boutons.get_niveaux, hone]
    rfl
  · rw [delay_succ hlatch, if_pos hp, hd]
    decide

/-- A press that gets stuck does so by a coincidence. -/
theorem bloque_succ {t : ℕ} (h : Bloque b (cycle u w (t + 1))) :
    Bloque b (cycle u w t) ∨ Coincidence b (w t) (cycle u w t) := by
  obtain ⟨hs, hone, hd⟩ := h
  by_cases hq : (cycle u w t).presentState = b.appui
  · have hr : SansReset (w t) := by
      refine sansReset_of_haut (s := cycle u w t) (Or.inl ?_)
      rw [← cycle_succ, hs]
      cases b <;> decide
    have hlatch : (cycle u w t).sorties.resetDelay ≠ .one := by
      rw [resetDelay_appui hq]
      decide
    rw [delay_succ hlatch] at hd
    rw [cycle_succ, etape_sansReset hr, hq, etatSuivant_appui] at hs
    by_cases hbp : (cycle u w t).bp.get b.bouton = .one
    · -- released already: then `Delay` was 2, or the press would be over
      refine Or.inl ⟨hq, hbp, ?_⟩
      by_contra hlt
      rw [if_neg fun h => hlt h.2, if_pos ⟨hbp, BitVec.not_le.mp hlt⟩] at hs
      exact absurd hs (by cases b <;> decide)
    · right
      have hz : (cycle u w t).bp.get b.bouton = .zero := by
        by_contra hz
        exact pris_defini b t (Or.inr hq) (StdLogic.eq_U_of_ne hz hbp)
      have hlt : ¬ 2 ≤ (cycle u w t).delay := by
        intro h2
        rw [if_pos ⟨hz, h2⟩] at hs
        exact absurd hs (by cases b <;> decide)
      have hch : (cycle u w (t + 1)).bp.get b.bouton ≠ (cycle u w t).bp.get b.bouton := by
        rw [hone]
        exact fun h => hbp h.symm
      obtain ⟨hm, hst, hraw⟩ := bp_change hch
      rw [hone] at hraw
      refine ⟨hr, hq, ⟨hz, hm, hst, StdLogic.ofBool_eq_one.mp hraw.symm⟩, ?_⟩
      split_ifs at hd with hp
      · refine ⟨BitVec.eq_of_toNat_eq ?_, hp⟩
        rw [deux_le, toNat_incr] at hd <;> rw [deux_le] at hlt
        · show _ = 1
          omega
        · omega
      · exact absurd hd hlt
  · obtain ⟨-, -, -, h0⟩ := prise hq hs
    rw [h0] at hd
    exact absurd hd (by decide)

/-- **Unresolved presses.**  No press of a run gets stuck iff no edge of it
takes over the release and the second pulse together. -/
theorem bloque_iff (b : Bord) :
    (∀ t, ¬ Bloque b (cycle u w t)) ↔ ∀ t, ¬ Coincidence b (w t) (cycle u w t) := by
  constructor
  · intro h t hc
    exact h (t + 1) (coincidence_bloque hc)
  · intro h t
    induction t with
    | zero =>
        rintro ⟨hs, -⟩
        exact absurd hs.symm (arme_appui b).ne_e0
    | succ t ih =>
        intro hb
        rcases bloque_succ hb with hb' | hc
        · exact ih hb'
        · exact h t hc

/-- Without a reset the clock is at the position of the cycle. -/
theorem avance_cycle (hr : ∀ k, SansReset (w k)) (n : ℕ) : Avance n (cycle u w n) := by
  have h := avance_run (y := 0) (avance_powerOn u) (d := n) (fun k _ => hr _) le_rfl
  rwa [Nat.zero_add] at h

/-- A press taken in the second before the pulse of cycle `p`, and released at
the tick of the next one. -/
theorem croisiere_coincidence {a c p : ℕ} (ha : 5 ≤ a) (hac : a < c)
    (hp : 50000002 ≤ p ∧ p % 50000000 = 2) (hc : tic c = p + 50000000)
    (h1 : tic a + 2 ≤ p) (h2 : p < tic a + 2 + 50000000) :
    Coincidence .babord (croisiere a c (tic c)) (cycle .simulation (croisiere a c) (tic c)) := by
  have hpulse : ∀ n, 2 ≤ n → ((cycle .simulation (croisiere a c) n).clkDetectedEdge = .one ↔
      50000002 ≤ n ∧ n % 50000000 = 2) := fun n hn =>
    (avance_cycle croisiere_sansReset n).front hn
  obtain ⟨y, hy⟩ : ∃ y, y = tic a + 1 + 1 := ⟨_, rfl⟩
  obtain ⟨d, hd⟩ : ∃ d, tic c = y + d := ⟨tic c - y, by omega⟩
  have hprise : (cycle .simulation (croisiere a c) y).presentState = Bord.babord.appui := by
    rw [hy]
    exact croisiere_prise ha hac
  have hzero : (cycle .simulation (croisiere a c) y).delay = 0 := by
    rw [hy] at hprise ⊢
    refine (prise ?_ hprise).2.2.2
    rw [croisiere_e4 ha]
    decide
  have hbp : ∀ n, y ≤ n → n ≤ tic c →
      (cycle .simulation (croisiere a c) n).bp = ⟨.zero, .one, .one⟩ := fun n hn hnc =>
    croisiere_appui (by omega) (by omega) hnc
  -- one pulse during the press, and the next at its last edge
  have hun : battements .simulation (croisiere a c) y (y + d) = 1 := by
    refine pulses_eq_one (c := p) (by omega) (by omega) ((hpulse p (by omega)).mpr hp) ?_
    intro n hn hnd hn1
    obtain ⟨-, hmod⟩ := (hpulse n (by omega)).mp hn1
    omega
  obtain ⟨hs, hdel⟩ := visite_run hprise hzero (d := d) (fun k _ => croisiere_sansReset _)
    (fun k hk => by
      rw [hbp (y + k) (by omega) (by omega)]
      decide)
    (fun k hk => by
      rw [← hun]
      exact pulses_mono (by omega) (by omega))
  rw [← hd] at hs hdel hun
  have hraw : (croisiere a c (tic c)).pb = ⟨true, true, decide (tic c ≠ tic 3)⟩ := by
    simp [croisiere]
  refine ⟨croisiere_sansReset _, hs, ⟨?_, miliS_tic (by omega), ?_, ?_⟩, ?_, ?_⟩
  · rw [hbp _ (by omega) le_rfl]
    rfl
  · refine stable_iff.mpr ⟨.tribord, ?_⟩
    obtain ⟨k, hk1, hk, hk'⟩ := tic_encadre (tic_lt (by omega : 1 < c))
    rw [pbD_tic hk1 hk hk']
    rfl
  · rw [hraw]
    rfl
  · exact BitVec.eq_of_toNat_eq (hdel.trans hun)
  · refine (hpulse (tic c) (by omega)).mpr ⟨by omega, ?_⟩
    rw [hc, Nat.add_mod_right]
    exact hp.2

/-- **A press gets stuck**: taken at tick 49,900, half way between two pulses
of the 1 s clock, and released at tick 50,000, which is a pulse. -/
theorem appui_bloque :
    Bloque .babord (cycle .simulation (croisiere 49900 50000) (tic 50000 + 1)) := by
  refine coincidence_bloque (croisiere_coincidence (p := 25000000002) (by omega) (by omega)
    ⟨by omega, by omega⟩ ?_ ?_ ?_) <;> unfold tic <;> omega

end BarreFranche.GestionBoutton
