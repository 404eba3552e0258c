/-
# `GestionRebond` — the debouncer

`timer_debounce` is never reset and never disabled, so its event, the tick
`mili_s`, comes at the same cycles in every run: `tic k` for `1 ≤ k`
(`miliS_iff`).  At a tick the raw levels go to `PB_*_d`, and to `BP_*` as well
if any button shows the level of the tick before.

The test is shared by the three buttons: a button that has just changed is
taken over as soon as another one has not.  So a debounced level is a level
seen at two ticks in a row iff no tick brings such a change (`filtre_iff`),
and a pulse that covers one tick of port is enough to command the actuator
(`impulsion_acceptee`).
-/
import BarreFranche.GestionEtapes
import BarreFranche.Synchrone.Pulse

namespace BarreFranche.GestionBoutton

open Synchrone

variable {u : PowerUp} {w : ℕ → GestionEntrees}

/-! ## The ticks -/

theorem reglageDebounce : Reglage 999 500 portsDebounce where
  prescaler := rfl
  autoreload := rfl
  three_le := by omega
  lt_top := by omega

theorem periode_debounce : periode 999 500 = 501000 := rfl

/-- The cycle of the `k`-th tick. -/
def tic (k : ℕ) : ℕ := 501000 * k + 2

theorem tic_lt {j k : ℕ} (h : j < k) : tic j < tic k := by
  unfold tic
  omega

theorem tic_le {j k : ℕ} (h : j ≤ k) : tic j ≤ tic k := by
  unfold tic
  omega

theorem tic_ne {j k : ℕ} (h : j ≠ k) : tic j ≠ tic k := by
  unfold tic
  omega

theorem tic_add_le {k d : ℕ} (h : d ≤ 501000) : tic k + d ≤ tic (k + 1) := by
  unfold tic
  omega

theorem debounce_suit (n : ℕ) : Suit 999 500 n (cycle u w n).timerDebounce :=
  cycle_at (I := fun n s => Suit 999 500 n s.timerDebounce) (suit_powerOn u (by omega))
    (fun n hn => by
      rw [etape_timerDebounce]
      exact hn.front reglageDebounce (by decide) rfl) n

/-- **The ticks** are at the same cycles whatever the pins do. -/
theorem miliS_iff : ∀ n, (cycle u w n).miliS = .one ↔ ∃ k, 1 ≤ k ∧ n = tic k
  | 0 => by
      refine ⟨fun h => absurd h (PowerUp.level_ne_one u), ?_⟩
      rintro ⟨k, -, h⟩
      unfold tic at h
      omega
  | 1 => by
      rw [cycle_succ, miliS, etape_timerDebounce, Timer.front_coUEV]
      refine ⟨fun h => absurd h (Nat.lt_irrefl 0), ?_⟩
      rintro ⟨k, -, h⟩
      unfold tic at h
      omega
  | n + 2 => by
      rw [cycle_succ, miliS, etape_timerDebounce,
        (debounce_suit (n + 1)).front_coUEV (by omega) (by omega), periode_debounce]
      constructor
      · rintro ⟨h1, h2⟩
        exact ⟨(n + 2) / 501000, by omega, by unfold tic; omega⟩
      · rintro ⟨k, hk, h⟩
        unfold tic at h
        omega

theorem miliS_tic {k : ℕ} (hk : 1 ≤ k) : (cycle u w (tic k)).miliS = .one :=
  (miliS_iff _).mpr ⟨k, hk, rfl⟩

/-- No tick strictly between two consecutive ones. -/
theorem miliS_entre {k n : ℕ} (h1 : tic k < n) (h2 : n < tic (k + 1)) :
    (cycle u w n).miliS ≠ .one := by
  rw [Ne, miliS_iff]
  rintro ⟨j, -, rfl⟩
  unfold tic at h1 h2
  omega

theorem miliS_avant {n : ℕ} (h : n < tic 1) : (cycle u w n).miliS ≠ .one := by
  rw [Ne, miliS_iff]
  rintro ⟨j, hj, rfl⟩
  unfold tic at h
  omega

/-- Every cycle after the first tick follows one. -/
theorem tic_encadre {n : ℕ} (h : tic 1 < n) : ∃ k, 1 ≤ k ∧ tic k < n ∧ n ≤ tic (k + 1) := by
  unfold tic at h
  exact ⟨(n - 3) / 501000, by omega, by unfold tic; omega, by unfold tic; omega⟩

theorem lt_of_tic {j k n : ℕ} (h1 : tic j < n) (h2 : n ≤ tic k) : j < k := by
  unfold tic at h1 h2
  omega

/-! ## The registers between the ticks -/

theorem pbD_succ (n : ℕ) : (cycle u w (n + 1)).pbD =
    if (cycle u w n).miliS = .one then (w n).pb.niveaux else (cycle u w n).pbD :=
  etape_pbD _ _

theorem bp_succ (n : ℕ) : (cycle u w (n + 1)).bp =
    if (cycle u w n).miliS = .one ∧ Stable (w n).pb (cycle u w n) then (w n).pb.niveaux
    else (cycle u w n).bp :=
  etape_bp _ _

theorem pbD_tient {n : ℕ} (h : (cycle u w n).miliS ≠ .one) :
    (cycle u w (n + 1)).pbD = (cycle u w n).pbD := by
  rw [pbD_succ, if_neg h]

/-- A debounced level changes at a tick only. -/
theorem bp_stable {n : ℕ} (h : (cycle u w n).miliS ≠ .one) :
    (cycle u w (n + 1)).bp = (cycle u w n).bp := by
  rw [bp_succ, if_neg fun hs => h hs.1]

theorem stable_iff {pb : Boutons Bool} {s : GestionBoutton} :
    Stable pb s ↔ ∃ c, s.pbD.get c = .ofBool (pb.get c) := by
  constructor
  · rintro (h | h | h)
    · exact ⟨.stby, h⟩
    · exact ⟨.tribord, h⟩
    · exact ⟨.babord, h⟩
  · rintro ⟨c, h⟩
    cases c with
    | babord => exact Or.inr (Or.inr h)
    | tribord => exact Or.inr (Or.inl h)
    | stby => exact Or.inl h

/-- Before the first tick the registers are as at power-on. -/
theorem boutons_avant {n : ℕ} (hn : n ≤ tic 1) :
    (cycle u w n).pbD = ⟨u.level, u.level, u.level⟩ ∧
      (cycle u w n).bp = ⟨u.level, u.level, u.level⟩ := by
  have hno : ∀ k, k < n → (cycle u w k).miliS ≠ .one :=
    fun k hk => miliS_avant (Nat.lt_of_lt_of_le hk hn)
  constructor
  · exact registre_neuf (c := fun k => (cycle u w k).pbD) (fun _ => pbD_tient) hno
  · exact registre_neuf (c := fun k => (cycle u w k).bp) (fun _ => bp_stable) hno

/-- From one tick to the next `PB_*_d` holds the raw levels of the former. -/
theorem pbD_tic {k n : ℕ} (hk : 1 ≤ k) (h1 : tic k < n) (h2 : n ≤ tic (k + 1)) :
    (cycle u w n).pbD = (w (tic k)).pb.niveaux := by
  have hdernier : Dernier (fun k => (cycle u w k).miliS = .one) n (tic k) :=
    ⟨h1, miliS_tic hk, fun j hj hjn => miliS_entre hj (Nat.lt_of_lt_of_le hjn h2)⟩
  refine registre_dernier (c := fun k => (cycle u w k).pbD) (v := fun k => (w k).pb.niveaux) ?_
    (fun _ => pbD_tient) hdernier
  intro j hj
  rw [pbD_succ, if_pos hj]

/-- And `BP_*` is constant. -/
theorem bp_entre {k n : ℕ} (h1 : tic k < n) (h2 : n ≤ tic (k + 1)) :
    (cycle u w n).bp = (cycle u w (tic k + 1)).bp := by
  induction n, h1 using Nat.le_induction with
  | base => rfl
  | succ n h1 ih => rw [bp_stable (miliS_entre h1 h2), ih (by omega)]

/-! ## Defined levels -/

/-- A level taken from a pin is never 'U' again. -/
theorem bp_defini {n : ℕ} {c : Bouton} (h : (cycle u w n).bp.get c ≠ .U) :
    (cycle u w (n + 1)).bp.get c ≠ .U := by
  rw [bp_succ]
  split_ifs
  · rw [Boutons.get_niveaux]
    exact StdLogic.ofBool_ne_U _
  · exact h

/-- A command or a press begins with the button at '0'. -/
theorem pris_avant {e : GestionEntrees} {s : GestionBoutton} {b : Bord}
    (h : (etape e s).presentState = b.manuel ∨ (etape e s).presentState = b.appui) :
    (s.presentState = b.manuel ∨ s.presentState = b.appui) ∨ s.bp.get b.bouton = .zero := by
  have hne : (etape e s).presentState ≠ .e0 := by
    rcases h with h | h <;> rw [h]
    · exact manuel_ne_e0 b
    · exact (arme_appui b).ne_e0
  rw [(etape_ne_e0 hne).2] at h
  rcases h with h | h
  · rcases vers_manuel h with ⟨h1, -⟩ | ⟨-, h1⟩
    · exact Or.inl (Or.inl (etatAvant_ne_e0 (manuel_ne_e0 b) h1).1)
    · exact Or.inr h1
  · rcases vers_appui h with h1 | ⟨-, h1⟩
    · exact Or.inl (Or.inr (etatAvant_ne_e0 (arme_appui b).ne_e0 h1).1)
    · exact Or.inr h1

theorem pris_defini (b : Bord) : ∀ n,
    ((cycle u w n).presentState = b.manuel ∨ (cycle u w n).presentState = b.appui) →
      (cycle u w n).bp.get b.bouton ≠ .U
  | 0, h => by
      rcases h with h | h
      · exact absurd h.symm (manuel_ne_e0 b)
      · exact absurd h.symm (arme_appui b).ne_e0
  | n + 1, h => by
      refine bp_defini ?_
      rcases pris_avant h with h1 | h1
      · exact pris_defini b n h1
      · exact StdLogic.ne_U_of_zero h1

/-! ## What the filter lets through -/

/-- Whenever `BP` of button `b` changes, the raw level of `b` was the new one
at this tick and at the tick before. -/
def Filtre (u : PowerUp) (w : ℕ → GestionEntrees) (b : Bouton) : Prop :=
  ∀ t, (cycle u w (t + 1)).bp.get b ≠ (cycle u w t).bp.get b →
    (cycle u w t).miliS = .one ∧
      (cycle u w (t + 1)).bp.get b = .ofBool ((w t).pb.get b) ∧
      ∃ t', t' < t ∧ (cycle u w t').miliS = .one ∧
        (∀ k, t' < k → k < t → (cycle u w k).miliS ≠ .one) ∧
        (w t').pb.get b = (w t).pb.get b

/-- If this edge is a tick at which button `b` shows another level than at the
tick before, then `BP` has that level already, or no button is stable. -/
def SansRebond (b : Bouton) (e : GestionEntrees) (s : GestionBoutton) : Prop :=
  s.miliS = .one → s.pbD.get b ≠ .ofBool (e.pb.get b) →
    s.bp.get b = .ofBool (e.pb.get b) ∨ ¬ Stable e.pb s

/-- At a tick `PB_*_d` shows the raw levels of the tick before, if there is one. -/
theorem tic_precedent {t : ℕ} (ht : (cycle u w t).miliS = .one) :
    ((∀ k, k < t → (cycle u w k).miliS ≠ .one) ∧ (cycle u w t).pbD = (cycle u w t).bp) ∨
      ∃ t', t' < t ∧ (cycle u w t').miliS = .one ∧
        (∀ k, t' < k → k < t → (cycle u w k).miliS ≠ .one) ∧
        (cycle u w t).pbD = (w t').pb.niveaux := by
  obtain ⟨k, hk, rfl⟩ := (miliS_iff t).mp ht
  obtain ⟨j, rfl⟩ : ∃ j, k = j + 1 := ⟨k - 1, by omega⟩
  rcases Nat.eq_zero_or_pos j with rfl | hj
  · left
    obtain ⟨h1, h2⟩ := boutons_avant (u := u) (w := w) (le_refl (tic 1))
    exact ⟨fun n hn => miliS_avant hn, h1.trans h2.symm⟩
  · right
    have hlt : tic j < tic (j + 1) := tic_lt (Nat.lt_succ_self j)
    refine ⟨tic j, hlt, miliS_tic hj, fun n => miliS_entre, ?_⟩
    exact pbD_tic hj hlt le_rfl

/-- A change of `BP`: a tick, a stable button, and the raw level taken over. -/
theorem bp_change {t : ℕ} {b : Bouton}
    (h : (cycle u w (t + 1)).bp.get b ≠ (cycle u w t).bp.get b) :
    (cycle u w t).miliS = .one ∧ Stable (w t).pb (cycle u w t) ∧
      (cycle u w (t + 1)).bp.get b = .ofBool ((w t).pb.get b) := by
  rw [bp_succ] at h ⊢
  split_ifs at h ⊢ with hs
  · exact ⟨hs.1, hs.2, Boutons.get_niveaux _ _⟩
  · exact absurd rfl h

/-- **The filter.**  Every change of a debounced button was seen at two
consecutive ticks iff no tick brings a change of the raw button that `BP` does
not have yet while some button is stable. -/
theorem filtre_iff (b : Bouton) :
    Filtre u w b ↔ ∀ t, SansRebond b (w t) (cycle u w t) := by
  constructor
  · intro h t ht hne
    by_contra hno
    obtain ⟨hbp, hst⟩ : (cycle u w t).bp.get b ≠ .ofBool ((w t).pb.get b) ∧
        Stable (w t).pb (cycle u w t) := by
      simpa only [not_or, not_not] using hno
    have hnew : (cycle u w (t + 1)).bp.get b = .ofBool ((w t).pb.get b) := by
      rw [bp_succ, if_pos ⟨ht, hst⟩, Boutons.get_niveaux]
    obtain ⟨-, -, t', ht', h1, hno', heq⟩ := h t (by rw [hnew]; exact hbp.symm)
    rcases tic_precedent ht with ⟨h0, -⟩ | ⟨t'', ht'', h2, hno'', hd⟩
    · exact h0 t' ht' h1
    · obtain rfl : t' = t'' := by
        rcases Nat.lt_trichotomy t' t'' with hlt | he | hlt
        · exact absurd h2 (hno' t'' hlt ht'')
        · exact he
        · exact absurd h1 (hno'' t' hlt ht')
      exact hne (by rw [hd, Boutons.get_niveaux, heq])
  · intro h t hch
    obtain ⟨ht, hst, hnew⟩ := bp_change hch
    rw [hnew] at hch
    have hd : (cycle u w t).pbD.get b = .ofBool ((w t).pb.get b) := by
      by_contra hne
      rcases h t ht hne with h1 | h1
      · exact hch h1.symm
      · exact h1 hst
    refine ⟨ht, hnew, ?_⟩
    rcases tic_precedent ht with ⟨-, h0⟩ | ⟨t', ht', h1, hno, hraw⟩
    · rw [h0] at hd
      exact absurd hd.symm hch
    · refine ⟨t', ht', h1, hno, ?_⟩
      rw [hraw, Boutons.get_niveaux, StdLogic.ofBool_inj] at hd
      exact hd

/-! ## When one button does not move

The other two are then not filtered at all: from the second tick on, `BP` is
the raw level of the last tick. -/

/-- Nothing is taken over at the first tick of a simulation: `PB_*_d` is 'U'. -/
theorem bp_debut {n : ℕ} (h : n ≤ tic 2) : (cycle .simulation w n).bp = ⟨.U, .U, .U⟩ := by
  have h1 := boutons_avant (u := .simulation) (w := w) (le_refl (tic 1))
  rcases Nat.lt_or_ge (tic 1) n with hlt | hle
  · rw [bp_entre hlt h, bp_succ, if_neg]
    · exact h1.2
    · rintro ⟨-, hst⟩
      obtain ⟨c, hc⟩ := stable_iff.mp hst
      rw [h1.1] at hc
      cases c <;> exact absurd hc.symm (StdLogic.ofBool_ne_U _)
  · exact (boutons_avant hle).2

/-- With one button at a constant level. -/
theorem bp_tic {c : Bouton} {v : Bool} (hc : ∀ n, (w n).pb.get c = v) {k n : ℕ} (hk : 2 ≤ k)
    (h1 : tic k < n) (h2 : n ≤ tic (k + 1)) :
    (cycle u w n).bp = (w (tic k)).pb.niveaux := by
  obtain ⟨j, rfl⟩ : ∃ j, k = j + 1 := ⟨k - 1, by omega⟩
  have hlt : tic j < tic (j + 1) := tic_lt (Nat.lt_succ_self j)
  have hst : Stable (w (tic (j + 1))).pb (cycle u w (tic (j + 1))) := by
    refine stable_iff.mpr ⟨c, ?_⟩
    rw [pbD_tic (k := j) (by omega) hlt le_rfl, Boutons.get_niveaux, hc, hc]
  rw [bp_entre h1 h2, bp_succ, if_pos ⟨miliS_tic (by omega), hst⟩]

/-- From power-on state 0 waits until a button is at '0', whatever `reset_n`
does. -/
theorem veille_run {d : ℕ} (hbp : ∀ k, k < d → ∀ c, (cycle u w k).bp.get c ≠ .zero) :
    ∀ k, k ≤ d → (cycle u w k).presentState = .e0
  | 0, _ => rfl
  | k + 1, hk => by
      have hstay : etatAvant (w k) (cycle u w k) = .e0 := by
        rw [etatAvant, veille_run hbp k (Nat.le_of_succ_le hk)]
        split_ifs <;> rfl
      have hb := hbp k hk
      rw [cycle_succ, etape_presentState, hstay]
      split_ifs
      · rfl
      · exact (if_neg (hb .tribord)).trans ((if_neg (hb .babord)).trans (if_neg (hb .stby)))

/-- With tribord released throughout and every button released at the second
tick, state 0 waits until after the third one. -/
theorem veille_debut (hc : ∀ n, (w n).pb.tribord = true)
    (h2 : (w (tic 2)).pb = ⟨true, true, true⟩) :
    (cycle .simulation w (tic 3 + 1)).presentState = .e0 := by
  refine veille_run (d := tic 3 + 1) (fun k hk c => ?_) _ le_rfl
  rcases Nat.lt_or_ge (tic 2) k with hlt | hle
  · rw [bp_tic (c := .tribord) hc le_rfl hlt (Nat.le_of_lt_succ hk), h2]
    cases c <;> decide
  · rw [bp_debut hle]
    cases c <;> decide

/-- Port at '0' at the third tick and at no other, the other buttons released;
`r` gives the levels of `reset_n` between the edges. -/
def parasite (r : ℕ → List Bool) : ℕ → GestionEntrees :=
  fun n => ⟨r n, true, ⟨decide (n ≠ tic 3), true, true⟩⟩

section
variable (r : ℕ → List Bool)

theorem parasite_relache {k : ℕ} (hk : k ≠ 3) :
    (parasite r (tic k)).pb = ⟨true, true, true⟩ := by
  simp [parasite, tic_ne hk]

theorem parasite_avant : (cycle .simulation (parasite r) (tic 3)).bp = ⟨.one, .one, .one⟩ := by
  rw [bp_tic (w := parasite r) (c := .tribord) (n := tic 3) (fun _ => rfl) le_rfl
    (tic_lt (by omega)) le_rfl, parasite_relache r (by omega)]
  rfl

theorem parasite_apres :
    (cycle .simulation (parasite r) (tic 3 + 1)).bp = ⟨.zero, .one, .one⟩ := by
  have hbas : (parasite r (tic 3)).pb = ⟨false, true, true⟩ := by simp [parasite]
  have h := bp_tic (u := .simulation) (w := parasite r) (c := .tribord) (k := 3)
    (n := tic 3 + 1) (fun _ => rfl) (by omega) (Nat.lt_succ_self _) (tic_add_le (by omega))
  rw [hbas] at h
  exact h

/-- The pulse takes the block from state 0 to the manual command. -/
theorem parasite_commande (hr : r (tic 3 + 1) = []) :
    (cycle .simulation (parasite r) (tic 3 + 2)).presentState = .e1 ∧
      (cycle .simulation (parasite r) (tic 3 + 2)).sorties.codeFonction = some 0b0001 := by
  have hveille := veille_debut (w := parasite r) (fun _ => rfl) (parasite_relache r (by omega))
  have hsans : SansReset (parasite r (tic 3 + 1)) := ⟨by simp [parasite, hr], rfl⟩
  have he1 : (cycle .simulation (parasite r) (tic 3 + 2)).presentState = .e1 := by
    rw [cycle_succ, etape_sansReset hsans, hveille, etatSuivant, parasite_apres]
    rfl
  refine ⟨he1, ?_⟩
  rw [cycle_succ] at he1 ⊢
  rw [etape_sorties, hsans.2, if_neg (by decide), affecte_codeFonction, he1]
  rfl

end

end BarreFranche.GestionBoutton
