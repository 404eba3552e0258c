/-
# `Synchrone.Run` — clocked machines and their runs

A synchronous circuit is a step function: one clock edge takes the inputs
sampled at that edge and the contents of the registers before it to the
contents after it.  A run feeds it an infinite stream of inputs, and
`run step s w n` is the register contents after `n` edges, so that edge `n`
leads from cycle `n` to cycle `n + 1`.

The rules below are the inductions over time of every later module:

    run_invariant    a property every step keeps
    run_at           a property that names the cycle, from power-on
    run_window       a property that names the distance from cycle `a`, for
                     `d` edges
    run_projection   a machine inside another runs as it does alone, on what
                     the outer one feeds it
    run_congr        equal contents and equal inputs from there on
    run_debut        the inputs to come do not matter
    foldl_tient      levels an asynchronous input takes within a cycle and
                     that leave the contents as they are

Nothing here knows what the machine is.
-/
import Mathlib.Data.Nat.Init
import Mathlib.Tactic.Common

namespace Synchrone

variable {ι κ σ τ : Type*}

/-- The register contents at cycle `n`: after the first `n` clock edges. -/
def run (step : ι → σ → σ) (s : σ) (w : ℕ → ι) : ℕ → σ
  | 0 => s
  | n + 1 => step (w n) (run step s w n)

section
variable {step : ι → σ → σ} {s : σ} {w : ℕ → ι}

theorem run_zero : run step s w 0 = s := rfl

theorem run_succ (n : ℕ) : run step s w (n + 1) = step (w n) (run step s w n) := rfl

/-- What holds at power-on and is kept by every step holds at every cycle. -/
theorem run_invariant {I : σ → Prop} (h0 : I s) (hstep : ∀ i x, I x → I (step i x)) :
    ∀ n, I (run step s w n)
  | 0 => h0
  | n + 1 => hstep _ _ (run_invariant h0 hstep n)

/-- The same for a property that names the cycle. -/
theorem run_at {I : ℕ → σ → Prop} (h0 : I 0 s)
    (hstep : ∀ n, I n (run step s w n) → I (n + 1) (run step s w (n + 1))) :
    ∀ n, I n (run step s w n)
  | 0 => h0
  | n + 1 => hstep n (run_at h0 hstep n)

/-- And for a property that names the distance from cycle `a`, carried over the
`d` edges from there on. -/
theorem run_window {I : ℕ → σ → Prop} {a d : ℕ} (ha : I 0 (run step s w a))
    (hstep : ∀ k, k < d → I k (run step s w (a + k)) → I (k + 1) (run step s w (a + k + 1))) :
    ∀ k, k ≤ d → I k (run step s w (a + k))
  | 0, _ => ha
  | k + 1, hk => hstep k hk (run_window ha hstep k (Nat.le_of_succ_le hk))

/-- A part `f` of the registers that every edge takes to its next contents on
the inputs `x` makes a run of its own. -/
theorem run_projection {step' : κ → τ → τ} {f : σ → τ} {x : ℕ → κ}
    (hstep : ∀ n, f (step (w n) (run step s w n)) = step' (x n) (f (run step s w n))) :
    ∀ n, f (run step s w n) = run step' (f s) x n
  | 0 => rfl
  | n + 1 => by rw [run_succ, run_succ, hstep n, run_projection hstep n]

/-- Two runs that meet, and receive the same inputs from then on, stay
together; they may meet at different cycles. -/
theorem run_congr {t : σ} {x : ℕ → ι} {a b : ℕ} (h : run step s w a = run step t x b) :
    ∀ n, (∀ k, k < n → w (a + k) = x (b + k)) → run step s w (a + n) = run step t x (b + n)
  | 0, _ => h
  | n + 1, hsame => by
      rw [← Nat.add_assoc, ← Nat.add_assoc, run_succ, run_succ, hsame n n.lt_succ_self,
        run_congr h n fun k hk => hsame k (Nat.lt_succ_of_lt hk)]

/-- The contents do not depend on the inputs to come. -/
theorem run_debut {x : ℕ → ι} {n : ℕ} (hsame : ∀ k, k < n → w k = x k) :
    run step s w n = run step s x n := by
  have h : run step s w 0 = run step s x 0 := rfl
  rw [← Nat.zero_add n]
  refine run_congr h n ?_
  intro k hk
  rw [Nat.zero_add, hsame k hk]

theorem foldl_tient {f : σ → κ → σ} {l : List κ} (h : ∀ b, b ∈ l → f s b = s) :
    l.foldl f s = s := by
  refine List.foldlRecOn (motive := fun x => x = s) l f rfl ?_
  rintro x rfl b hb
  exact h b hb

end

end Synchrone
