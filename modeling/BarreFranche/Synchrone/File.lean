/-
# `Synchrone.File` — queues

A queue is a list; a cycle takes its head away, appends an element, does both
or neither.  `passe e a n` lists what the channel `e` carries in the `n` cycles
from cycle `a` on, in order, and the law of a queue is

    passe (what goes in) = passe (what comes out) ++ contents     (`file_conserve`)

for a queue that is empty at the start: nothing is lost, nothing is made up,
nothing changes places.  `file_traverse` is the same for anything that is passed
on, whether or not it stays for a cycle, and whatever is there at the start.
-/
import Mathlib.Data.List.Range
import Mathlib.Tactic.Common

namespace Synchrone

variable {α : Type*}

/-- The queue after one cycle. -/
def suivante (entre : Option α) (sort : Bool) (l : List α) : List α :=
  (if sort then l.tail else l) ++ entre.toList

/-- What a channel carries in the `n` cycles from cycle `a` on. -/
def passe (e : ℕ → Option α) (a n : ℕ) : List α := (List.range' a n).filterMap e

section
variable {e : ℕ → Option α} {a n : ℕ}

@[simp] theorem passe_zero : passe e a 0 = [] := rfl

theorem passe_succ : passe e a (n + 1) = passe e a n ++ (e (a + n)).toList := by
  rw [passe, passe, List.range'_concat, List.filterMap_append, Nat.one_mul]
  cases h : e (a + n) <;> simp [h]

/-- The same list, from a channel watched from cycle `a` on. -/
theorem passe_depuis (n : ℕ) : passe e a n = passe (fun k => e (a + k)) 0 n := by
  induction n with
  | zero => rfl
  | succ n ih => rw [passe_succ, passe_succ, ih, Nat.zero_add]

theorem passe_prefixe (d : ℕ) : passe e a n <+: passe e a (n + d) := by
  induction d with
  | zero => exact List.prefix_rfl
  | succ d ih =>
      rw [← Nat.add_assoc, passe_succ]
      exact ih.trans (List.prefix_append _ _)

end

/-- **Conservation.**  If nothing is lost in any one cycle, nothing is lost: what
was there and what went in is what came out, and then what is left. -/
theorem file_traverse {l : ℕ → List α} {entre sortie : ℕ → Option α} {a n : ℕ}
    (hl : ∀ k, k < n → l k ++ (entre (a + k)).toList = (sortie (a + k)).toList ++ l (k + 1)) :
    l 0 ++ passe entre a n = passe sortie a n ++ l n := by
  induction n with
  | zero => simp
  | succ n ih =>
      rw [passe_succ, passe_succ, ← List.append_assoc, ih fun k hk => hl k (Nat.lt_succ_of_lt hk),
        List.append_assoc, hl n (Nat.lt_succ_self n), List.append_assoc]

/-- A queue hands over its head, and takes what comes at the end. -/
theorem file_conserve {l : ℕ → List α} {entre sortie : ℕ → Option α} {a n : ℕ} (h0 : l 0 = [])
    (hl : ∀ k, k < n → l (k + 1) = suivante (entre (a + k)) (sortie (a + k)).isSome (l k))
    (hs : ∀ k, k < n → ∀ x, sortie (a + k) = some x → (l k).head? = some x) :
    passe entre a n = passe sortie a n ++ l n := by
  have htrav : l 0 ++ passe entre a n = passe sortie a n ++ l n := by
    refine file_traverse fun k hk => ?_
    rw [hl k hk]
    cases hx : sortie (a + k) with
    | none => simp [suivante]
    | some x =>
        obtain ⟨l', hl'⟩ := List.head?_eq_some_iff.mp (hs k hk x hx)
        simp [suivante, hl']
  rwa [h0, List.nil_append] at htrav

end Synchrone
