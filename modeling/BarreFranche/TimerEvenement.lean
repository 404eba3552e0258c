/-
# `TimerEvenement` — when a timer raises `coUEV`

`pReset` compares the counter with its delayed copy by magnitude, while the
header of timer.vhd promises an event at an overflow or a reset.  The two agree
because the counter never decreases but to 0 (`front_compt1_lt`), by a clear or
by a wrap, and because the delayed copy is always one cycle old.  Neither needs
anything of the ports: `Enable`, `Reset`, `Prescaler` and `Autoreload` may
change at every edge.

So an event marks a return of the counter to 0, two cycles late, and every
return has one (`coUEV_iff`).
-/
import BarreFranche.Timer
import BarreFranche.Synchrone.Run

namespace BarreFranche.Timer

open Synchrone

variable {P : ℕ} {u : PowerUp} {w : ℕ → TimerPorts P}

/-- The contents at cycle `n` of a run from power-on. -/
def cycle (u : PowerUp) (w : ℕ → TimerPorts P) (n : ℕ) : Timer P :=
  run front (powerOn P u) w n

@[simp] theorem cycle_zero : cycle u w 0 = powerOn P u := run_zero

theorem cycle_succ (n : ℕ) : cycle u w (n + 1) = front (w n) (cycle u w n) := run_succ n

/-- The delayed copy is the counter of the cycle before. -/
theorem retard_succ (n : ℕ) :
    (cycle u w (n + 1)).counterOverflowD = (cycle u w n).compt1 := by
  rw [cycle_succ, front_counterOverflowD]

/-- No event before the first counter value has been delayed once. -/
theorem coUEV_debut {n : ℕ} (hn : n ≤ 1) : (cycle u w n).coUEV ≠ .one := by
  obtain rfl | rfl : n = 0 ∨ n = 1 := by omega
  · exact PowerUp.level_ne_one u
  · rw [cycle_succ, Ne, front_coUEV]
    simp [powerOn]

/-- The event, as the process computes it: the counter has decreased. -/
theorem coUEV_decroit (n : ℕ) : (cycle u w (n + 2)).coUEV = .one ↔
    (cycle u w (n + 1)).compt1.toNat < (cycle u w n).compt1.toNat := by
  rw [cycle_succ, front_coUEV, retard_succ]

/-- The event, as the header announces it: the counter is back at 0. -/
theorem coUEV_retour (n : ℕ) : (cycle u w (n + 2)).coUEV = .one ↔
    (cycle u w n).compt1 ≠ 0 ∧ (cycle u w (n + 1)).compt1 = 0 := by
  rw [coUEV_decroit]
  constructor
  · intro h
    refine ⟨?_, ?_⟩
    · intro h0
      rw [h0] at h
      exact absurd h (Nat.not_lt_zero _)
    · rw [cycle_succ] at h ⊢
      exact front_compt1_lt h
  · rintro ⟨hne, h0⟩
    rw [h0]
    exact Nat.pos_of_ne_zero fun hz => hne (BitVec.eq_of_toNat_eq hz)

/-- The cycle of an event is at least 2, and the counter has just come back. -/
theorem retour_de_coUEV {n : ℕ} (h : (cycle u w n).coUEV = .one) :
    ∃ m, n = m + 2 ∧ (cycle u w m).compt1 ≠ 0 ∧ (cycle u w (m + 1)).compt1 = 0 := by
  obtain ⟨m, rfl⟩ : ∃ m, n = m + 2 := by
    refine ⟨n - 2, ?_⟩
    have : ¬ n ≤ 1 := fun hn => coUEV_debut hn h
    omega
  exact ⟨m, rfl, (coUEV_retour m).mp h⟩

/-- **The event of a timer**, for every stream of ports: from cycle 2 on it is
'1' exactly two cycles after a counter that was not 0 and is 0 in between; it
lasts one cycle; and after an event the counter returns to 0 once more before
the next one. -/
theorem coUEV_iff (u : PowerUp) (w : ℕ → TimerPorts P) :
    (∀ n, 2 ≤ n → ((cycle u w n).coUEV = .one ↔
        (cycle u w (n - 2)).compt1 ≠ 0 ∧ (cycle u w (n - 1)).compt1 = 0)) ∧
      (∀ n, (cycle u w n).coUEV = .one → (cycle u w (n + 1)).coUEV ≠ .one) ∧
      ∀ n m, n < m → (cycle u w n).coUEV = .one → (cycle u w m).coUEV = .one →
        ∃ k, n ≤ k ∧ k + 1 < m ∧
          (cycle u w k).compt1 ≠ 0 ∧ (cycle u w (k + 1)).compt1 = 0 := by
  have hune : ∀ n, (cycle u w n).coUEV = .one → (cycle u w (n + 1)).coUEV ≠ .one := by
    intro n hn hn1
    obtain ⟨m, rfl, -, h0⟩ := retour_de_coUEV hn
    exact ((coUEV_retour (m + 1)).mp hn1).1 h0
  refine ⟨?_, hune, ?_⟩
  · intro n hn
    obtain ⟨m, rfl⟩ : ∃ m, n = m + 2 := ⟨n - 2, by omega⟩
    exact coUEV_retour m
  · intro n m hnm hn hm
    obtain ⟨k, rfl, hk⟩ := retour_de_coUEV hm
    have hne : n ≠ k + 1 := fun he => hune n hn (he ▸ hm)
    exact ⟨k, by omega, by omega, hk⟩

/-- Eight cycles a turn: the counter has wrapped at cycle 9, the event is at cycle 10. -/
example : (cycle .fpga (fun _ => (⟨.one, .zero, 3, 1⟩ : TimerPorts 4)) 8).compt1 = 2 ∧
    (cycle .fpga (fun _ => (⟨.one, .zero, 3, 1⟩ : TimerPorts 4)) 9).compt1 = 0 ∧
    (cycle .fpga (fun _ => (⟨.one, .zero, 3, 1⟩ : TimerPorts 4)) 10).coUEV = .one := by
  decide

end BarreFranche.Timer
