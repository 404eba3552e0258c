/-
# `AnemometreSilence` — when the block never publishes

A publication follows every return of the counter to 0, so a block that never
publishes is one whose counter never leaves 0: once it has counted a tick, it is
brought back either by the end of the window or by a reset, and both publish.

The first tick comes 9,999 cycles after power-on and 10,002 cycles after an edge
with `reset_n` at '0'.  A reset at edge `k` clears the counter at cycle `k + 3`
and takes precedence over a tick there, so it comes early enough if `k` is at
most 9,996, or if the last one was at edge `k - 9999` or later.  So the block is
silent for ever iff `reset_n` is '0' at one of the first 9,997 edges and at one
of every 9,999 consecutive ones (`silence_iff`), whatever the other pins do.
-/
import BarreFranche.AnemometreReset

namespace BarreFranche.Anemometre

open Synchrone

/-- `reset_n` never stays at '1' long enough for a tick. -/
structure ResetFrequent (r : ℕ → Bool) : Prop where
  debut : ∃ k, k < 9997 ∧ r k = false
  suite : ∀ a, ∃ k, a ≤ k ∧ k < a + 9999 ∧ r k = false

/-- More resets. -/
theorem ResetFrequent.mono {r ρ : ℕ → Bool} (h : ResetFrequent r)
    (hle : ∀ k, r k = false → ρ k = false) : ResetFrequent ρ where
  debut := by
    obtain ⟨k, hk, hr⟩ := h.debut
    exact ⟨k, hk, hle k hr⟩
  suite := by
    intro a
    obtain ⟨k, hak, hk, hr⟩ := h.suite a
    exact ⟨k, hak, hk, hle k hr⟩

/-- From each cycle on, counting the edge before it. -/
theorem ResetFrequent.proche {r : ℕ → Bool} (h : ResetFrequent r) (n : ℕ) :
    ∃ k, n ≤ k + 1 ∧ k < n + 9998 ∧ r k = false := by
  rcases Nat.eq_zero_or_pos n with hn | hn
  · obtain ⟨k, hk, hr⟩ := h.debut
    exact ⟨k, by omega, by omega, hr⟩
  · obtain ⟨k, hnk, hk, hr⟩ := h.suite (n - 1)
    exact ⟨k, by omega, by omega, hr⟩

/-- No event, nothing counted, and no tick before the next reset. -/
structure SansTic (r : ℕ → Bool) (n : ℕ) (s : Anemometre) : Prop where
  second : s.second ≠ .one
  compt1 : s.timer1hz.compt1 = 0
  retard : s.timer1hz.counterOverflowD = 0
  phase : (∃ k, n ≤ k ∧ r k = false ∧ s.timer1hz.div.toNat + (k - n) ≤ 9996) ∨
    (s.internalReset = .one ∧ s.timer1hz.div.toNat ≤ 9997) ∨
      (s.timer1hz.resetDiv = .one ∧ s.timer1hz.srstCompt1 = .one)

variable {u : PowerUp} {w : ℕ → AnemometreEntrees}

/-! ## Frequent resets keep the block silent -/

section
variable {r : ℕ → Bool} {n : ℕ} {s : Anemometre} {e : AnemometreEntrees}

/-- No tick enables the counter at this edge, or it is being cleared. -/
theorem SansTic.reste (h : SansTic r n s) : (front e s).timer1hz.compt1 = 0 := by
  refine (compt1_reste h.compt1).mpr ?_
  rcases h.phase with ⟨k, -, -, hd⟩ | ⟨-, hd⟩ | ⟨-, hs⟩
  · exact Or.inr (by omega)
  · exact Or.inr (by omega)
  · exact Or.inl hs

/-- After a clear the next reset is near, or already on its way. -/
theorem phase_efface (hr : ResetFrequent r) (hz : (front e s).timer1hz.div = 0)
    (hpasse : ∀ k, n = k + 1 → r k = false → s.internalReset = .one)
    (hcourant : r n = false → (front e s).internalReset = .one) :
    (∃ k, n + 1 ≤ k ∧ r k = false ∧ (front e s).timer1hz.div.toNat + (k - (n + 1)) ≤ 9996) ∨
      ((front e s).internalReset = .one ∧ (front e s).timer1hz.div.toNat ≤ 9997) ∨
        ((front e s).timer1hz.resetDiv = .one ∧ (front e s).timer1hz.srstCompt1 = .one) := by
  have hz0 : (front e s).timer1hz.div.toNat = 0 := by
    rw [hz]
    rfl
  obtain ⟨k, hk, hk', hrk⟩ := hr.proche n
  rcases Nat.lt_trichotomy k n with hlt | rfl | hgt
  · have hn : n = k + 1 := by omega
    have hρ : s.ports.reset = .one := hpasse k hn hrk
    exact Or.inr (Or.inr (efface_of_reset (K := 9999) (A := 4999) hρ))
  · refine Or.inr (Or.inl ⟨hcourant hrk, ?_⟩)
    rw [hz0]
    exact Nat.zero_le _
  · refine Or.inl ⟨k, hgt, hrk, ?_⟩
    rw [hz0]
    omega

theorem SansTic.front (hr : ResetFrequent r) (h : SansTic r n s) (he : e.resetN = r n)
    (hpasse : ∀ k, n = k + 1 → r k = false → s.internalReset = .one) :
    SansTic r (n + 1) (front e s) where
  second := front_coUEV_of_retard h.retard
  compt1 := h.reste
  retard := h.compt1
  phase := by
    have hdiv : (Anemometre.front e s).timer1hz.div.toNat ≤ s.timer1hz.div.toNat + 1 :=
      diviseur_le _ _ _ _
    have hcourant : r n = false → (Anemometre.front e s).internalReset = .one :=
      fun hrn => (front_internalReset e s).mpr (Or.inr (he.trans hrn))
    rcases h.phase with ⟨k, hk, hrk, hd⟩ | ⟨hρ, -⟩ | hclear
    · rcases Nat.eq_or_lt_of_le hk with rfl | hlt
      · exact Or.inr (Or.inl ⟨hcourant hrk, by omega⟩)
      · exact Or.inl ⟨k, hlt, hrk, by omega⟩
    · have hρ : s.ports.reset = .one := hρ
      exact Or.inr (Or.inr (efface_of_reset (K := 9999) (A := 4999) hρ))
    · exact phase_efface hr (div_of_efface (K := 9999) (A := 4999) hclear) hpasse hcourant

theorem sansTic_powerOn (hr : ResetFrequent r) : SansTic r 0 (powerOn u) where
  second := PowerUp.level_ne_one u
  compt1 := rfl
  retard := rfl
  phase := by
    obtain ⟨k, hk, hrk⟩ := hr.debut
    have hz : (powerOn u).timer1hz.div.toNat = 0 := rfl
    exact Or.inl ⟨k, Nat.zero_le k, hrk, by omega⟩

end

theorem sansTic_cycle (hr : ResetFrequent fun k => (w k).resetN) (n : ℕ) :
    SansTic (fun k => (w k).resetN) n (cycle u w n) := by
  refine run_at (sansTic_powerOn hr) ?_ n
  intro n hn
  rw [run_succ]
  refine hn.front hr rfl ?_
  rintro k rfl hrk
  exact internalReset_reset (u := u) hrk

/-! ## A tick is followed by a publication -/

/-- Without a publication the counter never decreases. -/
theorem compt1_mono (hno : ∀ n, (cycle u w n).second ≠ .one) {a b : ℕ} (hab : a ≤ b) :
    (cycle u w a).timer1hz.compt1.toNat ≤ (cycle u w b).timer1hz.compt1.toNat := by
  induction b, hab using Nat.le_induction with
  | base => exact le_rfl
  | succ b hab ih =>
      refine ih.trans ?_
      have h := retard_le (hno (b + 2))
      rwa [cycle_succ b] at h ⊢

/-- The reset of edge `k` has cleared the counter at cycle `k + 3`. -/
theorem compt1_apres_reset {k : ℕ} (h : (w k).resetN = false) :
    (cycle u w (k + 3)).timer1hz.compt1 = 0 := by
  have hρ : (cycle u w (k + 1)).ports.reset = .one := internalReset_reset h
  exact compt1_of_efface (K := 9999) (A := 4999) (efface_of_reset hρ)

/-- The first tick of a window: `reset_n` needs to be at '1' for 9,997 edges. -/
theorem premier_tic {c : ℕ} (h : Fenetre 0 (cycle u w c))
    (hr : ∀ k, k < 9997 → (w (c + k)).resetN = true) :
    (cycle u w (c + 9999)).timer1hz.compt1.toNat = 1 := by
  have hw : Fenetre (0 + 9997) (cycle u w (c + 9997)) := fenetre_run h (by omega) hr
  have hsuit : Suit 9999 4999 9998 (cycle u w (c + 9998)).timer1hz :=
    hw.suit.front (reglage _) hw.reset hw.enable
  have htic := hsuit.front_compt1 (reglage (cycle u w (c + 9998)))
  rw [← front_timer1hz (w (c + 9998)), ← cycle_succ] at htic
  exact htic

/-- A window whose first tick is counted ends in a publication, its own or that
of the reset that cuts it short. -/
theorem fenetre_publie_ou_coupe {c : ℕ} (h : Fenetre 0 (cycle u w c))
    (hr : ∀ k, k < 9997 → (w (c + k)).resetN = true) : ∃ n, (cycle u w n).second = .one := by
  by_contra hno
  have hno : ∀ n, (cycle u w n).second ≠ .one := not_exists.mp hno
  by_cases hall : ∀ k, k < 50000002 → (w (c + k)).resetN = true
  · exact hno _ (fenetre_publie h hall).1
  · push Not at hall
    obtain ⟨k, hk, hrk⟩ := hall
    have hk9 : ¬ k < 9997 := fun hlt => hrk (hr k hlt)
    have hz := compt1_apres_reset (u := u) (Bool.eq_false_of_not_eq_true hrk)
    have hle := compt1_mono hno (show c + 9999 ≤ c + k + 3 by omega)
    rw [premier_tic h hr, hz] at hle
    exact absurd hle (by decide)

/-- Where the reset of edge `i` leaves a block that has never published. -/
theorem fenetre_apres_reset {i : ℕ} (hno : ∀ n, n ≤ i + 4 → (cycle u w n).second ≠ .one)
    (hi : (w i).resetN = false) (h1 : (w (i + 1)).resetN = true)
    (h2 : (w (i + 2)).resetN = true) : Fenetre 0 (cycle u w (i + 3)) := by
  have hrepos : ∀ k, (w k).resetN = true → k ≤ i + 2 →
      (cycle u w (k + 1)).internalReset ≠ .one := by
    intro k hk hki
    rw [cycle_succ, Ne, front_internalReset]
    simp [hno k (by omega), hk]
  have hρ : (cycle u w (i + 1)).ports.reset = .one := internalReset_reset hi
  have hle := retard_le (hno (i + 4) le_rfl)
  exact
    { suit := suit_zero_of_efface (reglage _) (efface_of_reset hρ) (hrepos _ h1 (by omega))
      retard := fun _ => by
        rw [compt1_apres_reset hi] at hle
        exact BitVec.eq_of_toNat_eq (Nat.le_zero.mp hle)
      evenement := ⟨fun hs => absurd hs (hno _ (by omega)), fun h0 => absurd h0 (by omega)⟩
      enable := timerEnable_neuf fun k hk => hno k (by omega)
      reset := hrepos _ h2 le_rfl }

/-- **When the block never publishes**: iff no stretch of `reset_n` at '1' lets
the timer count a tick. -/
theorem silence_iff (u : PowerUp) (w : ℕ → AnemometreEntrees) :
    (∀ n, (cycle u w n).second ≠ .one) ↔ ResetFrequent fun k => (w k).resetN := by
  constructor
  · intro hno
    have hcoupe : ∀ c, Fenetre 0 (cycle u w c) → ∃ k, k < 9997 ∧ (w (c + k)).resetN = false := by
      intro c hc
      by_contra hnot
      push Not at hnot
      obtain ⟨n, hn⟩ := fenetre_publie_ou_coupe hc
        fun k hk => Bool.eq_true_of_not_eq_false (hnot k hk)
      exact hno n hn
    have hdebut : ∃ k, k < 9997 ∧ (w k).resetN = false := by
      obtain ⟨k, hk, hrk⟩ := hcoupe 0 ((repos_powerOn u).fenetre rfl)
      exact ⟨k, hk, Nat.zero_add k ▸ hrk⟩
    refine ⟨hdebut, ?_⟩
    intro a
    by_contra hnot
    push Not at hnot
    have hone : ∀ k, a ≤ k → k < a + 9999 → (w k).resetN = true :=
      fun k hk hk' => Bool.eq_true_of_not_eq_false (hnot k hk hk')
    rcases dernier_ou_aucun (fun k => (w k).resetN = false) a with haucun | ⟨i, hi⟩
    · obtain ⟨k, hk, hrk⟩ := hdebut
      rcases Nat.lt_or_ge k a with hlt | hge
      · exact haucun k hlt hrk
      · exact hnot k hge (by omega) hrk
    · have hlevel : ∀ k, i < k → k < a + 9999 → (w k).resetN = true := by
        intro k hik hk
        rcases Nat.lt_or_ge k a with hlt | hge
        · exact Bool.eq_true_of_not_eq_false (hi.silence k hik hlt)
        · exact hone k hge hk
      have hia := hi.avant
      have hf : Fenetre 0 (cycle u w (i + 3)) :=
        fenetre_apres_reset (fun n _ => hno n) hi.pulse (hlevel _ (by omega) (by omega))
          (hlevel _ (by omega) (by omega))
      obtain ⟨k, hk, hrk⟩ := hcoupe (i + 3) hf
      rw [hlevel _ (by omega) (by omega)] at hrk
      exact absurd hrk (by decide)
  · exact fun hr n => (sansTic_cycle hr n).second

end BarreFranche.Anemometre
