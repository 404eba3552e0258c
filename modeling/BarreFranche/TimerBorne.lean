/-
# `TimerBorne` — how far a timer can run past `Autoreload`

The overshoot is seen by a comparison whose result is registered before it
clears the counter, so a counter past `Autoreload` is back at 0 two edges
later and not one.  In the meantime it may be incremented twice: a divider
held at `Prescaler - 1` enables it at every edge.  Two edges after a counter
within the limit it is therefore at most `Autoreload + 2`, and this value is
reached (`borne_atteinte`).

Nothing is asked of the contents the run starts from.  What the first two
edges leave depends on the ports only, so a limit lowered below the current
count is no exception.
-/
import BarreFranche.Timer
import BarreFranche.Synchrone.Run

namespace BarreFranche.Timer

open Synchrone

variable {P : ℕ} {p q : TimerPorts P} {s : Timer P}

theorem front_compt1_le : (front p s).compt1.toNat ≤ s.compt1.toNat + 1 :=
  compteur_le _ _ _ _

/-- Past the limit of this edge, the counter is 0 after the next one. -/
theorem front_front_depasse (h : p.autoreload.toNat < s.compt1.toNat) :
    (front q (front p s)).compt1 = 0 :=
  front_compt1_clear ((front_srstCompt1 p s).mpr (Or.inl h))

theorem front_front_le :
    (front q (front p s)).compt1.toNat ≤ p.autoreload.toNat + 2 := by
  rcases Nat.lt_or_ge p.autoreload.toNat s.compt1.toNat with hlt | hge
  · rw [front_front_depasse hlt]
    exact Nat.zero_le _
  · have h1 : (front p s).compt1.toNat ≤ s.compt1.toNat + 1 := front_compt1_le
    have h2 : (front q (front p s)).compt1.toNat ≤ (front p s).compt1.toNat + 1 :=
      front_compt1_le
    omega

/-- A divider held at `Prescaler - 1`. -/
def fige (A : BitVec P) : TimerPorts P :=
  { enable := .zero
    reset := .zero
    prescaler := 1
    autoreload := A }

@[simp] theorem fige_enable {A : BitVec P} : (fige A).enable = .zero := rfl

@[simp] theorem fige_reset {A : BitVec P} : (fige A).reset = .zero := rfl

theorem fige_prescaler {A : BitVec P} : (fige A).prescaler - 1 = 0 := by
  simp [fige]

/-- **A timer cannot run away.**  From any contents and for every `Enable`,
`Reset` and `Prescaler`, with a constant `Autoreload`: from the second edge on
the counter is at most `Autoreload + 2`, and past `Autoreload` it is back at 0
two edges later. -/
theorem compt1_borne (s : Timer P) (w : ℕ → TimerPorts P) (A : BitVec P)
    (hA : ∀ k, (w k).autoreload = A) (n : ℕ) (hn : 2 ≤ n) :
    (run front s w n).compt1.toNat ≤ A.toNat + 2 ∧
      (A.toNat < (run front s w n).compt1.toNat → (run front s w (n + 2)).compt1 = 0) := by
  obtain ⟨m, rfl⟩ : ∃ m, n = m + 2 := ⟨n - 2, by omega⟩
  refine ⟨?_, ?_⟩
  · rw [run_succ, run_succ, ← hA m]
    exact front_front_le
  · intro hlt
    rw [run_succ, run_succ]
    apply front_front_depasse
    rwa [hA]

/-- A limit lowered to 3 below a count of 200: cleared at once, the counter next
overshoots at cycle 7 and is back at cycle 9. -/
theorem compt1_borne_abaisse :
    let t := run front { powerOn 8 .simulation with compt1 := 200 } fun _ => fige 3
    (t 0).compt1 = 200 ∧ (t 2).compt1.toNat ≤ 5 ∧ (t 7).compt1 = 4 ∧ (t 9).compt1 = 0 := by
  refine ⟨rfl, ?_, by decide, ?_⟩
  · exact (compt1_borne _ (fun _ => fige 3) 3 (fun _ => rfl) 2 le_rfl).1
  · exact (compt1_borne _ (fun _ => fige 3) 3 (fun _ => rfl) 7 (by decide)).2 (by decide)

/-! ## The bound is reached -/

/-- With the divider held, the counter follows the cycles from power-on, up to
two past the limit. -/
theorem fige_run (u : PowerUp) {A : BitVec P} (hA : A.toNat + 2 < 2 ^ P) :
    ∀ k, k ≤ A.toNat + 2 →
      let t := run front (powerOn P u) (fun _ => fige A) k
      t.div = 0 ∧ t.compt1.toNat = k ∧ (t.srstCompt1 = .one → k = A.toNat + 2) ∧
        t.resetDiv = .zero := by
  intro k
  induction k with
  | zero =>
      intro _
      exact ⟨rfl, rfl, fun h => absurd h (StdLogic.ne_one_of_zero rfl), rfl⟩
  | succ k ih =>
      intro hk
      obtain ⟨hdiv, hc, hs, hrd⟩ := ih (by omega)
      have hsrst : (run front (powerOn P u) (fun _ => fige A) k).srstCompt1 ≠ .one := by
        intro h
        have := hs h
        omega
      refine ⟨?_, ?_, ?_, rfl⟩
      · rw [run_succ, front_div, hdiv, hrd, diviseur, sortieComparateur, fige_prescaler]
        refine compteur_hold ?_ (by simp)
        rw [Ne, StdLogic.or_eq_one, comparateur_gt]
        simp
      · rw [run_succ, front_compt1, hdiv, compteur_incr hsrst, toNat_incr (by omega), hc]
        rw [divOutput, sortieComparateur, fige_prescaler, comparateur_eq]
      · intro h
        rw [run_succ, front_srstCompt1, hc] at h
        rcases h with h | h
        · have : A.toNat < k := h
          omega
        · exact absurd h (StdLogic.ne_one_of_zero rfl)

/-- **The bound of `compt1_borne` is the least one**, wherever the width leaves
room for it. -/
theorem borne_atteinte {A : BitVec P} (hA : A.toNat + 2 < 2 ^ P) :
    ∃ (s : Timer P) (w : ℕ → TimerPorts P), (∀ k, (w k).autoreload = A) ∧
      ∃ n, 2 ≤ n ∧ (run front s w n).compt1.toNat = A.toNat + 2 :=
  ⟨powerOn P .simulation, fun _ => fige A, fun _ => rfl, A.toNat + 2, by omega,
    (fige_run .simulation hA _ le_rfl).2.1⟩

end BarreFranche.Timer
