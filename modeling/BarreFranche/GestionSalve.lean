/-
# `GestionSalve` — the beeps of a burst

The pilot confirms a step of 1 degree by one beep and a step of 10 degrees by
two.  A burst is 50,000,004 cycles long, and `timer_bip` gives `out_bip` its
shape: `bip_simple` is '1' up to the count 4999, `bip_double` on the counts
1250 to 2499 and 3740 to 4999.

The count goes on for longer than one second.  With `M = 50,000,000`, and from
the cycle before the burst, it is

    k ≤ M          (k - 1) / 10000, at most 4999
    M < k ≤ M + 2  5000, the overshoot
    k = M + 3      0 again

and the burst ends one cycle later, because `coUEV` is seen another edge late.
So in its last cycle a burst of 1 degree shows the count 0, which is below the
threshold: after two cycles at '0' `out_bip` is '1' once more.  The burst of 10
degrees is not touched, as 0 is outside both its intervals (`bips_iff`).
-/
import BarreFranche.GestionBip

namespace BarreFranche.GestionBoutton

open Synchrone

variable {u : PowerUp} {w : ℕ → GestionEntrees} {q : Etat} {a b : ℕ}

/-- From cycle `a` on and up to cycle `b`: a whole stay in a state 8 to 11, with
no reset. -/
structure SalveEntiere (u : PowerUp) (w : ℕ → GestionEntrees) (q : Etat) (a b : ℕ) : Prop where
  salve : Salve q
  entree : ∀ x, a = x + 1 → (cycle u w x).presentState ≠ q
  dure : a < b
  etat : ∀ k, a ≤ k → k < b → (cycle u w k).presentState = q
  sortie : (cycle u w b).presentState ≠ q
  sansReset : ∀ k, a ≤ k → k < b → SansReset (w k)

/-- `out_bip` is '1'. -/
def Bipe (u : PowerUp) (w : ℕ → GestionEntrees) (k : ℕ) : Prop :=
  (cycle u w k).sorties.outBip = .one

/-- One beep for 1 degree, two for 10. -/
def BipsAttendus (q : Etat) (p : ℕ → Prop) (a b : ℕ) : Prop :=
  (∀ c : Bord, q = c.pas1 → UnCreneau p a b) ∧ (∀ c : Bord, q = c.pas10 → DeuxCreneaux p a b)

/-! ## The count and the level -/

section
variable {s : GestionBoutton}

theorem bipSimple_eq_one : s.bipSimple = .one ↔ s.timerBip.compt1.toNat ≤ 4999 := by
  simp [bipSimple, Timer.pwmOutput_eq_one]

theorem bipDouble_eq_one : s.bipDouble = .one ↔
    (1250 ≤ s.timerBip.compt1.toNat ∧ s.timerBip.compt1.toNat < 2500) ∨
      (3740 ≤ s.timerBip.compt1.toNat ∧ s.timerBip.compt1.toNat < 5000) := by
  simp only [bipDouble, bipCounter, BitVec.lt_def, BitVec.le_def, BitVec.reduceToNat]
  split_ifs
  all_goals simp
  all_goals omega

end

/-- `out_bip` in a burst of 1 degree, by the count of the cycle before. -/
theorem bipe_pas1 {c : Bord} {k : ℕ} (h : (cycle u w (k + 1)).presentState = c.pas1) :
    Bipe u w (k + 1) ↔ (cycle u w k).timerBip.compt1.toNat ≤ 4999 := by
  rw [Bipe, ← bipSimple_eq_one, cycle_succ] at *
  have hne : (etape (w k) (cycle u w k)).presentState ≠ .e0 := h ▸ (salve_pas1 c).ne_e0
  rw [etape_sorties_of_ne hne, h]
  cases c <;> rfl

/-- And in one of 10 degrees. -/
theorem bipe_pas10 {c : Bord} {k : ℕ} (h : (cycle u w (k + 1)).presentState = c.pas10) :
    Bipe u w (k + 1) ↔
      (1250 ≤ (cycle u w k).timerBip.compt1.toNat ∧
          (cycle u w k).timerBip.compt1.toNat < 2500) ∨
        (3740 ≤ (cycle u w k).timerBip.compt1.toNat ∧
          (cycle u w k).timerBip.compt1.toNat < 5000) := by
  rw [Bipe, ← bipDouble_eq_one, cycle_succ] at *
  have hne : (etape (w k) (cycle u w k)).presentState ≠ .e0 := h ▸ (salve_pas10 c).ne_e0
  rw [etape_sorties_of_ne hne, h]
  cases c <;> rfl

/-! ## The whole burst -/

/-- What `timer_bip` shows `k` cycles after the cycle before a burst. -/
def compteBip (k : ℕ) : ℕ :=
  if k ≤ 50000000 then (k - 1) / 10000
  else if k ≤ 50000002 then 5000
  else 0

theorem trajectoire_bip {j : ℕ} (hj : j ≤ 50000001) :
    trajectoire 9999 4999 j = compteBip (j + 2) := by
  rcases Nat.lt_or_ge (j + 1) 50000000 with hlt | hge
  · rw [compteBip, if_pos (by omega), trajectoire_of_not (by rw [periode_seconde]; omega),
      periode_seconde, Nat.mod_eq_of_lt hlt]
    rfl
  · obtain ⟨i, hi⟩ : ∃ i, j + 1 = 50000000 + i := ⟨j + 1 - 50000000, by omega⟩
    have hmod : (j + 1) % periode 9999 4999 = i := by
      rw [periode_seconde, hi, Nat.add_mod_left, Nat.mod_eq_of_lt (by omega)]
    rw [compteBip, if_neg (by omega)]
    rcases Nat.lt_or_ge i 2 with hpic | hfin
    · -- the overshoot
      rw [if_pos (by omega), trajectoire_pic (by rw [periode_seconde]; omega) (by omega)]
    · rw [if_neg (by omega), trajectoire_of_not (by omega), hmod]
      exact Nat.div_eq_of_lt (by omega)

namespace SalveEntiere

/-- A burst has a cycle before it, in which the timer is ready. -/
theorem debut (h : SalveEntiere u w q a b) :
    ∃ x, a = x + 1 ∧ Pret (cycle u w x).timerBip ∧ Joue 0 (cycle u w a) := by
  have ha := h.etat a le_rfl h.dure
  cases a with
  | zero =>
      rw [cycle_zero] at ha
      exact absurd ha.symm h.salve.ne_e0
  | succ x =>
      obtain ⟨hp, hj⟩ := salve_debut h.salve (h.entree x rfl) ha
      exact ⟨x, rfl, hp, hj⟩

/-- It lasts 50,000,004 cycles. -/
theorem fin (h : SalveEntiere u w q a b) : b = a + 50000004 := by
  obtain ⟨x, rfl, -, hj⟩ := h.debut
  have hx := h.etat (x + 1) le_rfl h.dure
  rcases Nat.lt_trichotomy b (x + 1 + 50000004) with hlt | heq | hgt
  · obtain ⟨d, rfl⟩ := Nat.exists_eq_add_of_le h.dure.le
    refine absurd ?_ h.sortie
    exact (salve_run h.salve hx hj (by omega)
      fun i hi => h.sansReset _ (by omega) (by omega)).1
  · exact heq
  · have h4 := salve_etat h.salve hx hj le_rfl fun i hi => h.sansReset _ (by omega) (by omega)
    rw [if_neg (Nat.lt_irrefl _), h.etat _ (by omega) hgt] at h4
    exact absurd (h4 ▸ h.salve) (by decide)

/-- The count of `timer_bip`, from the cycle before the burst on. -/
theorem compte (h : SalveEntiere u w q (a + 1) b) {k : ℕ} (hk : k ≤ 50000003) :
    (cycle u w (a + k)).timerBip.compt1.toNat = compteBip k := by
  obtain ⟨x, hx, hp, hj⟩ := h.debut
  obtain rfl : a = x := Nat.succ.inj hx
  have hq := h.etat (a + 1) le_rfl h.dure
  have hb := h.fin
  match k with
  | 0 =>
      rcases hp with hp | hp <;> rw [Nat.add_zero, hp.compt1] <;> rfl
  | 1 =>
      rw [(hj.debut rfl).1.compt1]
      rfl
  | j + 2 =>
      have hrun := salve_run h.salve hq hj (d := j + 1) (by omega)
        fun i hi => h.sansReset _ (by omega) (by omega)
      rw [show a + (j + 2) = a + 1 + (j + 1) by omega, (hrun.2.tour j rfl).suit.compt1,
        trajectoire_bip (by omega)]

/-- Every entry of a burst begins one, unless a reset interrupts it. -/
theorem of_entree {x : ℕ} (hq : Salve q) (hne : (cycle u w x).presentState ≠ q)
    (hx : (cycle u w (x + 1)).presentState = q)
    (hr : ∀ i, i < 50000004 → SansReset (w (x + 1 + i))) :
    SalveEntiere u w q (x + 1) (x + 1 + 50000004) := by
  have hj := (salve_debut hq hne hx).2
  refine ⟨hq, ?_, by omega, ?_, ?_, ?_⟩
  · intro y hy
    obtain rfl : x = y := Nat.succ.inj hy
    exact hne
  · intro k hk hkb
    obtain ⟨i, rfl⟩ := Nat.exists_eq_add_of_le hk
    have hi : i < 50000004 := by omega
    rw [salve_etat hq hx hj hi.le fun i' hi' => hr i' (by omega), if_pos hi]
  · rw [salve_etat hq hx hj le_rfl hr, if_neg (Nat.lt_irrefl _)]
    rintro rfl
    exact absurd hq (by decide)
  · intro k hk hkb
    obtain ⟨i, rfl⟩ := Nat.exists_eq_add_of_le hk
    exact hr i (by omega)

end SalveEntiere

/-- Two beeps in a burst of 10 degrees. -/
theorem deuxCreneaux {c : Bord} (h : SalveEntiere u w c.pas10 (a + 1) b) :
    DeuxCreneaux (Bipe u w) (a + 1) b := by
  have hb := h.fin
  refine ⟨a + 12500002, a + 25000002, a + 37400002, a + 50000002, by omega, by omega, by omega,
    by omega, by omega, ?_⟩
  intro n hn hnb
  obtain ⟨k, rfl⟩ : ∃ k, n = a + k + 1 := ⟨n - a - 1, by omega⟩
  rw [bipe_pas10 (h.etat _ hn hnb), h.compte (by omega), compteBip]
  split_ifs
  · omega
  · omega
  · omega

/-- One beep too many in a burst of 1 degree: '1' from the start, '0' during the
overshoot, and '1' in the last cycle. -/
theorem pas_unCreneau {c : Bord} (h : SalveEntiere u w c.pas1 (a + 1) b) :
    ¬ UnCreneau (Bipe u w) (a + 1) b := by
  have hb := h.fin
  have hbipe : ∀ k, k ≤ 50000003 → (Bipe u w (a + k + 1) ↔ compteBip k ≤ 4999) := by
    intro k hk
    rw [bipe_pas1 (h.etat _ (by omega) (by omega)), h.compte hk]
  intro hun
  have h0 : Bipe u w (a + 0 + 1) := (hbipe 0 (by omega)).mpr (by decide)
  have h3 : Bipe u w (a + 50000003 + 1) := (hbipe _ le_rfl).mpr (by decide)
  have h1 := (hbipe 50000001 (by omega)).mp
    (hun.entre (by omega) (by omega) (by omega) (by omega) h0 h3)
  exact absurd h1 (by decide)

/-- **The beeps of a burst**, in every run: a whole burst gives the number of
beeps its step is confirmed by iff the step is one of 10 degrees. -/
theorem bips_iff (h : SalveEntiere u w q a b) :
    BipsAttendus q (Bipe u w) a b ↔ q = .e8 ∨ q = .e10 := by
  obtain ⟨x, rfl, -⟩ := h.debut
  constructor
  · intro hbips
    rcases h.salve with h8 | h9 | h10 | h11
    · exact Or.inl h8
    · obtain rfl : q = Bord.babord.pas1 := h9
      exact absurd (hbips.1 .babord rfl) (pas_unCreneau h)
    · exact Or.inr h10
    · obtain rfl : q = Bord.tribord.pas1 := h11
      exact absurd (hbips.1 .tribord rfl) (pas_unCreneau h)
  · intro hq
    refine ⟨?_, ?_⟩
    · rintro c rfl
      cases c <;> exact absurd hq (by decide)
    · rintro c rfl
      exact deuxCreneaux h

/-- A press of 300 ticks ends in the burst of 10 degrees. -/
theorem croisiere_longue :
    (cycle .simulation (croisiere 5 305) (tic 305 + 1)).presentState = Bord.babord.maintien ∧
      (cycle .simulation (croisiere 5 305) (tic 305 + 1 + 1)).presentState =
        Bord.babord.pas10 := by
  have hbp : ∀ n, tic 5 < n → n ≤ tic 305 →
      (cycle .simulation (croisiere 5 305) n).bp = ⟨.zero, .one, .one⟩ :=
    fun n h1 h2 => croisiere_appui (by omega) h1 h2
  have hpris : (cycle .simulation (croisiere 5 305) (tic 5 + 1 + 1 + 100001000)).presentState =
      Bord.babord.maintien := by
    refine appui_long (croisiere_libre_avant 305) (croisiere_prise le_rfl (by omega)) ?_
    intro k hk
    rw [hbp _ (by omega) (by unfold tic; omega)]
    exact ⟨croisiere_sansReset _, rfl⟩
  have htenu : (cycle .simulation (croisiere 5 305) (tic 305 + 1)).presentState =
      Bord.babord.maintien := by
    refine maintien_run (by unfold tic; omega) hpris ?_
    intro k hk hkn
    rw [hbp k (by omega) (by omega)]
    exact ⟨croisiere_sansReset _, by decide⟩
  refine ⟨htenu, ?_⟩
  rw [cycle_succ, etape_sansReset (croisiere_sansReset _), htenu, etatSuivant_maintien, if_pos]
  rw [croisiere_libre (k := 305) (by omega) (by omega) (Or.inr le_rfl) (Nat.lt_succ_self _)
    (by unfold tic; omega)]
  rfl

theorem bips_iff_temoin : BipsAttendus .e8 (Bipe .simulation (croisiere 5 305))
    (tic 305 + 1 + 1) (tic 305 + 1 + 1 + 50000004) := by
  obtain ⟨hs, hs'⟩ := croisiere_longue
  refine (bips_iff (SalveEntiere.of_entree (q := .e8) (by decide) ?_ hs' ?_)).mpr (Or.inl rfl)
  · rw [hs]
    decide
  · exact fun i _ => croisiere_sansReset _

/-- The burst of a press of one tick. -/
theorem salve_courte : SalveEntiere .simulation (croisiere 5 6) .e9
    (tic 5 + 1 + 1 + 500999 + 1) (tic 5 + 1 + 1 + 500999 + 1 + 50000004) := by
  obtain ⟨hs, hs'⟩ := croisiere_courte
  exact SalveEntiere.of_entree (by decide) (by rw [hs]; decide) hs'
    fun i _ => croisiere_sansReset _

/-- **The extra beep** of a short press, in the last cycle of its burst. -/
theorem bip_en_trop :
    SalveEntiere .simulation (croisiere 5 6) .e9
        (tic 5 + 1 + 1 + 500999 + 1) (tic 5 + 1 + 1 + 500999 + 1 + 50000004) ∧
      ¬ UnCreneau (Bipe .simulation (croisiere 5 6))
        (tic 5 + 1 + 1 + 500999 + 1) (tic 5 + 1 + 1 + 500999 + 1 + 50000004) :=
  ⟨salve_courte, pas_unCreneau (c := .babord) salve_courte⟩

end BarreFranche.GestionBoutton
