/-
# `Trajectoire` — what a timer does after it has been cleared

Fix the prescaler `K` and the reload value `A`, and let `M = (A+1)*(K+1)`, the
period the header of timer.vhd announces.  A timer whose divider and counter
have just been cleared, and which is then enabled, is at *position* `n` after
`n` edges, and its registers are functions of `n`:

    div       n % (K+1)
    compt1    trajectoire K A n
    srst      '1'  iff  M ≤ n and n % M ≤ 1
    coUEV     '1'  iff  M + 2 ≤ n and n % M = 2

The counter reaches `A+1`, one more than it may, and stays there for two
cycles, because the clear goes through a register; the clear then lasts two
cycles itself.  With `3 ≤ K` no divider pulse falls into them, so the position
keeps its meaning for ever.  With `K ≤ 2` one does, and the count is late by
one from there on: the bound is not an artefact of the proof.
-/
import BarreFranche.Timer
import Mathlib.Data.Nat.ModEq
import Mathlib.Algebra.Order.Group.Nat
import Mathlib.Data.Nat.Cast.Order.Basic

namespace BarreFranche

/-! ## The closed form -/

/-- The period announced in the header: `Fclk / Fpwm`. -/
def periode (K A : ℕ) : ℕ := (A + 1) * (K + 1)

/-- The counter at position `n`. -/
def trajectoire (K A n : ℕ) : ℕ :=
  if periode K A ≤ n + 1 ∧ (n + 1) % periode K A ≤ 1 then A + 1
  else (n + 1) % periode K A / (K + 1)

theorem mod_succ {M : ℕ} (hM : 0 < M) (n : ℕ) :
    (n + 1) % M = if n % M + 1 = M then 0 else n % M + 1 := by
  have hlt := Nat.mod_lt n hM
  rw [← Nat.mod_add_mod]
  split
  · rename_i h
    rw [h, Nat.mod_self]
  · exact Nat.mod_eq_of_lt (by omega)

section
variable {K A : ℕ}

theorem periode_pos : 0 < periode K A := Nat.mul_pos (Nat.succ_pos A) (Nat.succ_pos K)

theorem le_periode : K + 1 ≤ periode K A := Nat.le_mul_of_pos_left _ (Nat.succ_pos A)

/-- The setting of the 1 s timers: 10,000 cycles a tick, 5,000 ticks. -/
@[simp] theorem periode_seconde : periode 9999 4999 = 50000000 := rfl

theorem periode_div : periode K A / (K + 1) = A + 1 := Nat.mul_div_cancel _ (Nat.succ_pos K)

theorem mod_periode_mod (n : ℕ) : n % periode K A % (K + 1) = n % (K + 1) :=
  Nat.mod_mod_of_dvd n (Dvd.intro_left (A + 1) rfl)

theorem trajectoire_pic {n : ℕ} (h : periode K A ≤ n + 1) (h1 : (n + 1) % periode K A ≤ 1) :
    trajectoire K A n = A + 1 := if_pos ⟨h, h1⟩

theorem trajectoire_of_not {n : ℕ} (h : ¬ (periode K A ≤ n + 1 ∧ (n + 1) % periode K A ≤ 1)) :
    trajectoire K A n = (n + 1) % periode K A / (K + 1) := if_neg h

/-- Away from the overshoot the counter is at most `A`. -/
theorem lt_trajectoire {n : ℕ} :
    A < trajectoire K A n ↔ periode K A ≤ n + 1 ∧ (n + 1) % periode K A ≤ 1 := by
  by_cases h : periode K A ≤ n + 1 ∧ (n + 1) % periode K A ≤ 1
  · simp [trajectoire_pic h.1 h.2, h]
  · simp only [h, iff_false, Nat.not_lt, trajectoire_of_not h]
    have hlt : (n + 1) % periode K A < (A + 1) * (K + 1) := Nat.mod_lt _ periode_pos
    exact Nat.le_of_lt_succ ((Nat.div_lt_iff_lt_mul (Nat.succ_pos K)).mpr hlt)

theorem trajectoire_le (n : ℕ) : trajectoire K A n ≤ A + 1 := by
  by_cases h : periode K A ≤ n + 1 ∧ (n + 1) % periode K A ≤ 1
  · exact (trajectoire_pic h.1 h.2).le
  · have := mt lt_trajectoire.mp h
    omega

/-- During the first divider period the counter is still 0. -/
theorem trajectoire_debut {n : ℕ} (h : n < K) : trajectoire K A n = 0 := by
  have hM := le_periode (K := K) (A := A)
  rw [trajectoire_of_not (by omega), Nat.mod_eq_of_lt (by omega)]
  exact Nat.div_eq_of_lt (by omega)

/-- The divider pulse of position `n` takes a count that keeps step with it to
a multiple of `K+1`. -/
theorem dvd_succ_iff (hK : 1 ≤ K) {m n : ℕ} (h : m % (K + 1) = (n + 1) % (K + 1)) :
    K + 1 ∣ m + 1 ↔ n % (K + 1) + 1 = K := by
  have hK1 : 0 < K + 1 := Nat.succ_pos K
  have hlt := Nat.mod_lt n hK1
  rw [Nat.dvd_iff_mod_eq_zero, mod_succ hK1, h, mod_succ hK1]
  constructor
  · intro h0
    split_ifs at h0 <;> omega
  · intro h0
    have hne : ¬ n % (K + 1) + 1 = K + 1 := by omega
    rw [if_neg hne, if_pos (by omega)]

/-- After the second cycle of the overshoot, and after the next, the counter is 0. -/
theorem trajectoire_efface (hK : 3 ≤ K) {n : ℕ} (hpic : periode K A ≤ n ∧ n % periode K A ≤ 1) :
    trajectoire K A (n + 1) = 0 := by
  have hM : K + 1 ≤ periode K A := le_periode
  have h1 := mod_succ (periode_pos (K := K) (A := A)) n
  have h2 := mod_succ (periode_pos (K := K) (A := A)) (n + 1)
  have hval : (n + 1 + 1) % periode K A = n % periode K A + 2 := by
    rw [h2, h1]
    split_ifs <;> omega
  rw [trajectoire_of_not (by omega), hval]
  exact Nat.div_eq_of_lt (by omega)

/-- The counter has just reached `A+1`: it stays there one more cycle. -/
theorem trajectoire_arrivee (hK : 3 ≤ K) {n : ℕ} (hlast : n % periode K A + 1 = periode K A) :
    trajectoire K A n = A + 1 ∧ trajectoire K A (n + 1) = A + 1 := by
  have hM : 3 + 1 ≤ periode K A := (Nat.succ_le_succ hK).trans le_periode
  have hn : n % periode K A ≤ n := Nat.mod_le _ _
  have h1 := mod_succ (periode_pos (K := K) (A := A)) n
  have h2 := mod_succ (periode_pos (K := K) (A := A)) (n + 1)
  rw [if_pos hlast] at h1
  rw [h1, if_neg (by omega)] at h2
  exact ⟨trajectoire_pic (by omega) (by omega), trajectoire_pic (by omega) (by omega)⟩

/-- Everywhere else both values are quotients by `K+1`. -/
theorem trajectoire_courant {n : ℕ} (hpic : ¬ (periode K A ≤ n ∧ n % periode K A ≤ 1))
    (hlast : n % periode K A + 1 ≠ periode K A) :
    trajectoire K A n = (n % periode K A + 1) / (K + 1) ∧
      trajectoire K A (n + 1) = (n % periode K A + 2) / (K + 1) := by
  have hM : K + 1 ≤ periode K A := le_periode
  have hr : n % periode K A < periode K A := Nat.mod_lt _ periode_pos
  have hn : n % periode K A ≤ n := Nat.mod_le _ _
  have h1 := mod_succ (periode_pos (K := K) (A := A)) n
  have h2 := mod_succ (periode_pos (K := K) (A := A)) (n + 1)
  rw [if_neg hlast] at h1
  refine ⟨?_, ?_⟩
  · have hnot : ¬ (periode K A ≤ n + 1 ∧ (n + 1) % periode K A ≤ 1) := by
      rw [h1]
      rintro ⟨hle, h0⟩
      have hne : n + 1 ≠ periode K A := by
        intro he
        rw [he, Nat.mod_self] at h1
        omega
      exact hpic ⟨by omega, by omega⟩
    rw [trajectoire_of_not hnot, h1]
  · by_cases hnext : n % periode K A + 2 = periode K A
    · -- the pulse that makes the counter pass `A`
      rw [hnext, periode_div]
      refine trajectoire_pic (by omega) ?_
      rw [h2, h1]
      split_ifs <;> omega
    · have hval : (n + 1 + 1) % periode K A = n % periode K A + 2 := by
        rw [h2, h1]
        split_ifs <;> omega
      rw [trajectoire_of_not (by omega), hval]

/-- One edge of the closed form: the overshoot is cleared after its second
cycle, and otherwise the counter follows the divider pulses. -/
theorem trajectoire_succ (hK : 3 ≤ K) (n : ℕ) :
    trajectoire K A (n + 1) =
      if periode K A ≤ n ∧ n % periode K A ≤ 1 then 0
      else if n % (K + 1) + 1 = K then trajectoire K A n + 1
      else trajectoire K A n := by
  have hd : n % periode K A % (K + 1) = n % (K + 1) := mod_periode_mod n
  have hstep : (n % periode K A + 1) % (K + 1) = (n + 1) % (K + 1) := by
    rw [Nat.add_mod, hd, ← Nat.add_mod]
  have hpulse : K + 1 ∣ n % periode K A + 1 + 1 ↔ n % (K + 1) + 1 = K :=
    dvd_succ_iff (by omega) hstep
  by_cases hpic : periode K A ≤ n ∧ n % periode K A ≤ 1
  · rw [if_pos hpic, trajectoire_efface hK hpic]
  · rw [if_neg hpic]
    by_cases hlast : n % periode K A + 1 = periode K A
    · obtain ⟨hnow, hnext⟩ := trajectoire_arrivee hK hlast
      have hnot : ¬ n % (K + 1) + 1 = K := by
        have hM : K + 1 ∣ periode K A := Dvd.intro_left (A + 1) rfl
        rw [← hpulse, hlast, Nat.dvd_add_right hM]
        exact Nat.not_dvd_of_pos_of_lt one_pos (by omega)
      rw [hnow, hnext, if_neg hnot]
    · obtain ⟨hnow, hnext⟩ := trajectoire_courant hpic hlast
      rw [hnow, hnext, Nat.succ_div]
      simp only [hpulse]
      split_ifs <;> rfl

/-- The counter decreases only at the end of the overshoot. -/
theorem trajectoire_succ_lt (hK : 3 ≤ K) (n : ℕ) :
    trajectoire K A (n + 1) < trajectoire K A n ↔ periode K A ≤ n ∧ n % periode K A = 0 := by
  have hM : K + 1 ≤ periode K A := le_periode
  have h1 := mod_succ (periode_pos (K := K) (A := A)) n
  rw [trajectoire_succ hK]
  by_cases hpic : periode K A ≤ n ∧ n % periode K A ≤ 1
  · rw [if_pos hpic]
    rw [if_neg (by omega)] at h1
    by_cases h0 : n % periode K A = 0
    · rw [trajectoire_pic (by omega) (by omega)]
      simp [hpic.1, h0]
    · have hzero : trajectoire K A n = 0 := by
        rw [trajectoire_of_not (by omega)]
        exact Nat.div_eq_of_lt (by omega)
      simp [hzero, h0]
  · rw [if_neg hpic]
    constructor
    · intro h
      split_ifs at h <;> omega
    · intro h
      exact absurd ⟨h.1, by omega⟩ hpic

/-- It passes any threshold up to `A` downwards there, and nowhere else. -/
theorem trajectoire_franchit (hK : 3 ≤ K) {c : ℕ} (hc : c ≤ A) (n : ℕ) :
    c < trajectoire K A n ∧ trajectoire K A (n + 1) ≤ c ↔
      periode K A ≤ n ∧ n % periode K A = 0 := by
  rw [← trajectoire_succ_lt hK]
  constructor
  · rintro ⟨h1, h2⟩
    exact Nat.lt_of_le_of_lt h2 h1
  · intro h
    have hM : K + 1 ≤ periode K A := le_periode
    have h0 := (trajectoire_succ_lt hK n).mp h
    have h1 := mod_succ (periode_pos (K := K) (A := A)) n
    rw [if_neg (by omega)] at h1
    rw [trajectoire_pic (by omega) (by omega), trajectoire_succ hK, if_pos ⟨h0.1, by omega⟩]
    exact ⟨by omega, Nat.zero_le c⟩

end

end BarreFranche
