/-
# `TimerArret` — a disabled timer

`Enable` reaches the divider only; the counter is enabled by the level of
`DivOutput`.  The header of diviseur.vhd says that this level lasts one cycle,
which holds while the divider moves.  A divider that is stopped on its last
count, `Prescaler - 1`, keeps `DivOutput` at '1', and the counter then runs at
the speed of the clock.

`front_div_arret` says what the first disabled edge makes of the divider; from
there on it stands.  So the disabled timer is still iff that edge does not leave
the divider on its last count (`desactive_iff`), and never with `Prescaler = 1`,
where 0 is the last count.
-/
import BarreFranche.Timer
import BarreFranche.Synchrone.Run

namespace BarreFranche.Timer

open Synchrone

variable {P : ℕ}

/-- The ports of a timer disabled and not reset. -/
def portsArret (prescaler autoreload : BitVec P) : TimerPorts P :=
  { enable := .zero, reset := .zero, prescaler := prescaler, autoreload := autoreload }

/-- The contents `k` edges into a stretch of disabled edges that finds `s`. -/
def desactive (prescaler autoreload : BitVec P) (s : Timer P) (k : ℕ) : Timer P :=
  run front s (fun _ => portsArret prescaler autoreload) k

section
variable {prescaler autoreload : BitVec P} {s : Timer P}

theorem desactive_succ (k : ℕ) : desactive prescaler autoreload s (k + 1) =
    front (portsArret prescaler autoreload) (desactive prescaler autoreload s k) := run_succ k

variable (hK : 1 ≤ prescaler.toNat)

include hK

/-- The divider after a disabled edge: cleared by a pending reset or by its own
overshoot, and else where it was. -/
theorem front_div_arret :
    (front (portsArret prescaler autoreload) s).div.toNat =
      if s.resetDiv = .one ∨ prescaler.toNat ≤ s.div.toNat then 0 else s.div.toNat := by
  change (diviseur .zero s.resetDiv prescaler s.div).toNat = _
  split_ifs with h
  · rcases h with hr | hover
    · rw [diviseur_reset hr]
      rfl
    · exact congrArg BitVec.toNat (diviseur_wrap hK hover)
  · rw [not_or] at h
    exact congrArg BitVec.toNat (diviseur_hold hK h.1 (by omega) (by decide))

/-- From the second edge on it stands. -/
theorem desactive_div (k : ℕ) :
    (desactive prescaler autoreload s (k + 1)).div.toNat =
        (desactive prescaler autoreload s 1).div.toNat ∧
      (desactive prescaler autoreload s (k + 1)).div.toNat < prescaler.toNat := by
  induction k with
  | zero =>
      refine ⟨rfl, ?_⟩
      rw [desactive_succ, front_div_arret hK]
      split_ifs <;> omega
  | succ k ih =>
      have hr : (desactive prescaler autoreload s (k + 1)).resetDiv = .zero := by
        rw [desactive_succ]
        rfl
      have hstep : (desactive prescaler autoreload s (k + 1 + 1)).div.toNat =
          (desactive prescaler autoreload s (k + 1)).div.toNat := by
        rw [desactive_succ, front_div_arret hK, hr, if_neg]
        rintro (h | h)
        · exact absurd h (by decide)
        · omega
      rw [hstep]
      exact ih

/-- Off its last count the divider enables nothing: the counter stays or is
cleared. -/
theorem compt1_arret {k : ℕ}
    (hd : (desactive prescaler autoreload s 1).div.toNat + 1 ≠ prescaler.toNat) :
    (desactive prescaler autoreload s (k + 2)).compt1.toNat ≤
      (desactive prescaler autoreload s (k + 1)).compt1.toNat := by
  have hdiv : (desactive prescaler autoreload s (k + 1)).div.toNat =
      (desactive prescaler autoreload s 1).div.toNat := (desactive_div hK k).1
  rw [desactive_succ (k + 1)]
  by_cases hs : (desactive prescaler autoreload s (k + 1)).srstCompt1 = .one
  · rw [front_compt1_clear hs]
    exact Nat.zero_le _
  · rw [front_compt1_hold hK (by rw [hdiv]; exact hd) hs]

/-- On its last count it enables every edge. -/
theorem compt1_emballe {k : ℕ}
    (hd : (desactive prescaler autoreload s 1).div.toNat + 1 = prescaler.toNat)
    (hs : (desactive prescaler autoreload s (k + 1)).srstCompt1 ≠ .one) :
    (desactive prescaler autoreload s (k + 2)).compt1 =
      (desactive prescaler autoreload s (k + 1)).compt1 + 1 := by
  have hdiv : (desactive prescaler autoreload s (k + 1)).div.toNat =
      (desactive prescaler autoreload s 1).div.toNat := (desactive_div hK k).1
  rw [desactive_succ (k + 1), front_compt1_incr hK (by rw [hdiv]; exact hd) hs]

/-- From 0 and not cleared, such a counter increases. -/
theorem compt1_repart {k : ℕ}
    (hd : (desactive prescaler autoreload s 1).div.toNat + 1 = prescaler.toNat)
    (hs : (desactive prescaler autoreload s (k + 1)).srstCompt1 ≠ .one)
    (h0 : (desactive prescaler autoreload s (k + 1)).compt1 = 0) :
    (desactive prescaler autoreload s (k + 1)).compt1.toNat <
      (desactive prescaler autoreload s (k + 2)).compt1.toNat := by
  have hP := prescaler.isLt
  have hz : (0 : BitVec P).toNat = 0 := rfl
  rw [compt1_emballe hK hd hs, h0, toNat_incr (by omega)]
  exact Nat.lt_succ_self _

/-- So one of the three edges after the first increases the counter: at once,
or after the wrap and the clear that may come first. -/
theorem compt1_croit
    (hd : (desactive prescaler autoreload s 1).div.toNat + 1 = prescaler.toNat) :
    ∃ k, 1 ≤ k ∧ k ≤ 3 ∧ (desactive prescaler autoreload s k).compt1.toNat <
      (desactive prescaler autoreload s (k + 1)).compt1.toNat := by
  have hclear : ∀ k, (desactive prescaler autoreload s (k + 1)).srstCompt1 = .one ↔
      autoreload.toNat < (desactive prescaler autoreload s k).compt1.toNat := by
    intro k
    rw [desactive_succ, front_srstCompt1]
    simp [portsArret]
  -- two cycles at 0 are enough: the second finds no clear pending
  have hdeux : ∀ k, (desactive prescaler autoreload s (k + 1)).compt1 = 0 →
      ∃ j, k + 1 ≤ j ∧ j ≤ k + 2 ∧ (desactive prescaler autoreload s j).compt1.toNat <
        (desactive prescaler autoreload s (j + 1)).compt1.toNat := by
    intro k h0
    by_cases hs : (desactive prescaler autoreload s (k + 1)).srstCompt1 = .one
    · have h1 : (desactive prescaler autoreload s (k + 2)).compt1 = 0 := by
        rw [desactive_succ (k + 1), front_compt1_clear hs]
      have hs1 : (desactive prescaler autoreload s (k + 2)).srstCompt1 ≠ .one := by
        rw [Ne, hclear (k + 1), h0]
        exact Nat.not_lt_zero _
      exact ⟨k + 2, by omega, le_rfl, compt1_repart hK hd hs1 h1⟩
    · exact ⟨k + 1, le_rfl, by omega, compt1_repart hK hd hs h0⟩
  by_cases hs : (desactive prescaler autoreload s 1).srstCompt1 = .one
  · obtain ⟨j, h1, h2, hj⟩ := hdeux 1 (by rw [desactive_succ 1, front_compt1_clear hs])
    exact ⟨j, by omega, by omega, hj⟩
  · by_cases htop : (desactive prescaler autoreload s 1).compt1.toNat + 1 < 2 ^ P
    · refine ⟨1, le_rfl, by omega, ?_⟩
      rw [compt1_emballe hK hd hs, toNat_incr htop]
      exact Nat.lt_succ_self _
    · obtain ⟨j, h1, h2, hj⟩ := hdeux 1 (by rw [compt1_emballe hK hd hs, incr_eq_zero htop])
      exact ⟨j, by omega, by omega, hj⟩

/-- **Disabled is not stopped.**  Whatever the registers hold when `Enable`
falls, in every stretch of disabled edges the counter does not increase after
the first edge iff the prescaler is at least 2 and the divider is not on its
last count, or is about to be cleared by a reset. -/
theorem desactive_iff :
    (∀ k, 1 ≤ k →
        (desactive prescaler autoreload s (k + 1)).compt1.toNat ≤
          (desactive prescaler autoreload s k).compt1.toNat) ↔
      2 ≤ prescaler.toNat ∧ (s.resetDiv = .one ∨ s.div.toNat + 1 ≠ prescaler.toNat) := by
  have hdiv : (desactive prescaler autoreload s 1).div.toNat =
      if s.resetDiv = .one ∨ prescaler.toNat ≤ s.div.toNat then 0 else s.div.toNat :=
    front_div_arret hK
  have hcond : (2 ≤ prescaler.toNat ∧ (s.resetDiv = .one ∨ s.div.toNat + 1 ≠ prescaler.toNat)) ↔
      (desactive prescaler autoreload s 1).div.toNat + 1 ≠ prescaler.toNat := by
    rw [hdiv]
    by_cases hr : s.resetDiv = .one
    · rw [if_pos (Or.inl hr)]
      simp only [hr, true_or, and_true]
      omega
    · simp only [hr, false_or]
      split_ifs <;> omega
  rw [hcond]
  constructor
  · intro h hd
    obtain ⟨k, h1, h3, hlt⟩ := compt1_croit hK hd
    exact Nat.not_lt.mpr (h k h1) hlt
  · intro hd k hk
    obtain ⟨j, rfl⟩ : ∃ j, k = j + 1 := ⟨k - 1, by omega⟩
    exact compt1_arret hK hd

end

/-- A timer of width 4 with `Prescaler = 3`, disabled with its divider at 1. -/
theorem desactive_iff_temoin :
    (run front (powerOn 4 .fpga) (fun _ => ⟨.one, .zero, 3, 9⟩) 1).div = 1 ∧
      ∀ k, 1 ≤ k →
        (desactive 3 9 (run front (powerOn 4 .fpga) (fun _ => ⟨.one, .zero, 3, 9⟩) 1)
            (k + 1)).compt1.toNat ≤
          (desactive 3 9 (run front (powerOn 4 .fpga) (fun _ => ⟨.one, .zero, 3, 9⟩) 1)
            k).compt1.toNat :=
  ⟨by decide, (desactive_iff (by decide)).mpr (by decide)⟩

/-- **Disabled on the last count**: two enabled edges after power-on the divider
stands at 2, and the counter of the disabled timer goes from 1 to 2 and 3. -/
theorem desactive_emballe :
    (desactive (3 : BitVec 4) 9
        (run front (powerOn 4 .fpga) (fun _ => ⟨.one, .zero, 3, 9⟩) 2) 1).compt1 = 1 ∧
      (desactive (3 : BitVec 4) 9
        (run front (powerOn 4 .fpga) (fun _ => ⟨.one, .zero, 3, 9⟩) 2) 2).compt1 = 2 ∧
      (desactive (3 : BitVec 4) 9
        (run front (powerOn 4 .fpga) (fun _ => ⟨.one, .zero, 3, 9⟩) 2) 3).compt1 = 3 := by
  decide

end BarreFranche.Timer
