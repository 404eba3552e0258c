/-
# `Synchrone.PremierBit` — the first set bit from a position on

The least set bit of `x` is `x & (~x + 1)`.  Adding `2 ^ p` for 1 isolates the
first set bit at an index no lower than `p` instead: the carry of the sum runs
through the ones of `~x` from `p` on and stops at the first zero, so the sum
agrees with `~x` below `p` and above that bit, and with `x` only there.

    carry_avant, carry_apres    the carry: from bit `p + 1` up to the set bit
    and_premier                 x & (~x + 2 ^ p) = 2 ^ t

`ripple` is the sum as a chain of full adders.
-/
import Mathlib.Data.Nat.Init
import Mathlib.Order.Nat
import Mathlib.Tactic.Common

namespace Synchrone

variable {w : ℕ}

/-- A chain of full adders. -/
def ripple (a b : BitVec w) : BitVec w :=
  (BitVec.iunfoldr (fun (i : Fin w) c =>
    ((a.getLsbD i && b.getLsbD i) || (c && (a.getLsbD i ^^ b.getLsbD i)),
      (a.getLsbD i ^^ b.getLsbD i) ^^ c)) false).2

theorem ripple_eq (a b : BitVec w) : ripple a b = a + b := by
  rw [BitVec.add_eq_adc, ripple, BitVec.adc]
  congr 2
  funext i c
  rw [BitVec.adcb]
  cases a.getLsbD i <;> cases b.getLsbD i <;> cases c <;> rfl

section
variable {x : BitVec w} {p : ℕ}

/-- Up to bit `n` no bit is set from `p` on: the carry has run from `p`. -/
theorem carry_avant {n : ℕ} (hn : n ≤ w) (h : ∀ i, p ≤ i → i < n → x.getLsbD i = false) :
    BitVec.carry n (~~~x) (BitVec.twoPow w p) false = decide (p < n) := by
  induction n with
  | zero => simp
  | succ n ih =>
      have hn' : n < w := hn
      rw [BitVec.carry_succ, ih hn'.le fun i hi hin => h i hi (Nat.lt_succ_of_lt hin),
        BitVec.getLsbD_not, BitVec.getLsbD_twoPow]
      rcases Nat.lt_trichotomy n p with hlt | rfl | hgt
      · simp [Nat.not_lt.mpr hlt.le, hlt.ne', Nat.not_lt.mpr (Nat.succ_le_of_lt hlt)]
      · rw [h n le_rfl (Nat.lt_succ_self n)]
        simp [hn']
      · rw [h n hgt.le (Nat.lt_succ_self n)]
        simp [hn', hgt, Nat.lt_succ_of_lt hgt]

/-- The carry is stopped by the first set bit. -/
theorem carry_apres {t n : ℕ} (hpt : p ≤ t) (htn : t < n) (hn : n ≤ w)
    (h : ∀ i, p ≤ i → i < t → x.getLsbD i = false) (ht : x.getLsbD t = true) :
    BitVec.carry n (~~~x) (BitVec.twoPow w p) false = false := by
  induction n, htn using Nat.le_induction with
  | base =>
      rw [BitVec.carry_succ, carry_avant (Nat.le_of_succ_le hn) h, BitVec.getLsbD_not,
        BitVec.getLsbD_twoPow, ht]
      rcases Nat.lt_or_eq_of_le hpt with hlt | rfl
      · simp [hlt.ne]
      · simp
  | succ n htn ih =>
      rw [BitVec.carry_succ, ih (Nat.le_of_succ_le hn), BitVec.getLsbD_twoPow]
      have hne : p ≠ n := by omega
      simp [hne]

/-- **The first set bit from `p` on.** -/
theorem and_premier {t : ℕ} (hpt : p ≤ t) (h : ∀ i, p ≤ i → i < t → x.getLsbD i = false)
    (ht : x.getLsbD t = true) : x &&& (~~~x + BitVec.twoPow w p) = BitVec.twoPow w t := by
  have htw : t < w := BitVec.lt_of_getLsbD ht
  refine BitVec.eq_of_getLsbD_eq fun i hi => ?_
  rw [BitVec.getLsbD_and, BitVec.getLsbD_add hi, BitVec.getLsbD_not, BitVec.getLsbD_twoPow,
    BitVec.getLsbD_twoPow]
  rcases Nat.lt_trichotomy i t with hlt | rfl | hgt
  · rw [carry_avant hi.le fun j hj hji => h j hj (hji.trans hlt)]
    rcases Nat.lt_or_ge i p with hip | hpi
    · simp [hi, hip.ne', hlt.ne', Nat.not_lt.mpr hip.le]
    · simp [h i hpi hlt, hlt.ne']
  · rw [carry_avant hi.le h, ht]
    rcases Nat.lt_or_eq_of_le hpt with hlt | rfl
    · simp [hi, hlt, hlt.ne]
    · simp [hi]
  · have hne : p ≠ i := by omega
    rw [carry_apres hpt hgt hi.le h ht]
    simp [hi, hgt.ne, hne]

end

end Synchrone
