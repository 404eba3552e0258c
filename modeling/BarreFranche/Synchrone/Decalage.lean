/-
# `Synchrone.Decalage` — shift registers

    ligne_iff      a delay line: bit `i` is what went in `i + 1` edges ago
    retenue_iff    a register that some edges fill and the others empty by one
                   bit: a bit is up iff it has been filled within its reach

Both say what a bit shows by when, for any width and from any contents, so that no
later proof looks at a shift.
-/
import Mathlib.Data.Nat.Init
import Mathlib.Tactic.Common

namespace Synchrone

variable {n : ℕ} {c : ℕ → BitVec n}

/-- `{c[n-2:0], entree}` at every edge. -/
theorem ligne_iff {entree : ℕ → Bool} (hc : ∀ k, c (k + 1) = (c k).shiftConcat (entree k))
    {i : ℕ} (hi : i < n) (k : ℕ) : (c k).getLsbD i = true ↔
      (∃ u, u + i + 1 = k ∧ entree u = true) ∨ (k ≤ i ∧ (c 0).getLsbD (i - k) = true) := by
  induction k generalizing i with
  | zero =>
      constructor
      · exact fun h => Or.inr ⟨Nat.zero_le i, h⟩
      · rintro (⟨u, hu, -⟩ | ⟨-, h⟩)
        · exact absurd hu (Nat.succ_ne_zero _)
        · exact h
  | succ k ih =>
      rw [hc, BitVec.getLsbD_shiftConcat, decide_eq_true hi, Bool.true_and]
      cases i with
      | zero =>
          rw [if_pos rfl]
          constructor
          · exact fun h => Or.inl ⟨k, rfl, h⟩
          · rintro (⟨u, hu, h⟩ | ⟨hk, -⟩)
            · obtain rfl : u = k := Nat.succ.inj hu
              exact h
            · exact absurd hk (Nat.not_succ_le_zero k)
      | succ i =>
          rw [if_neg (Nat.succ_ne_zero i), Nat.add_sub_cancel, ih (Nat.lt_of_succ_lt hi),
            Nat.add_sub_add_right, Nat.succ_le_succ_iff]
          refine or_congr_left (exists_congr fun u => and_congr_left fun _ => ?_)
          exact Nat.succ_inj.symm

/-- All ones at the edges `q` describes, a shift to the right at the others. -/
theorem retenue_iff {q : ℕ → Prop} [DecidablePred q]
    (hc : ∀ k, c (k + 1) = if q k then BitVec.allOnes n else c k >>> 1) (j k : ℕ) :
    (c k).getLsbD j = true ↔
      (∃ u, u < k ∧ q u ∧ k + j ≤ u + n) ∨ (c 0).getLsbD (k + j) = true := by
  induction k generalizing j with
  | zero =>
      constructor
      · intro h
        rw [Nat.zero_add]
        exact Or.inr h
      · rintro (⟨u, hu, -⟩ | h)
        · exact absurd hu (Nat.not_lt_zero u)
        · rwa [Nat.zero_add] at h
  | succ k ih =>
      rw [hc]
      split_ifs with hq
      · rw [BitVec.getLsbD_allOnes, decide_eq_true_eq]
        constructor
        · exact fun hj => Or.inl ⟨k, k.lt_succ_self, hq, by omega⟩
        · rintro (⟨u, hu, -, h⟩ | h)
          · omega
          · have := BitVec.lt_of_getLsbD h
            omega
      · rw [BitVec.getLsbD_ushiftRight, ih, show k + (1 + j) = k + 1 + j by omega]
        refine or_congr_left (exists_congr fun u => ?_)
        constructor
        · exact fun ⟨hu, h⟩ => ⟨Nat.lt_succ_of_lt hu, h⟩
        · rintro ⟨hu, hqu, h⟩
          rcases Nat.lt_succ_iff_lt_or_eq.mp hu with hlt | rfl
          · exact ⟨hlt, hqu, h⟩
          · exact absurd hqu hq

end Synchrone
