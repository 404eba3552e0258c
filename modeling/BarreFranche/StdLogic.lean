/-
# `StdLogic` — the levels of a `std_logic` signal

The pins of the board carry '0' and '1', and the design applies only `not`,
`and`, `or` and comparisons to them.  The one other level that occurs is 'U',
the level of a signal the source gives no initial value, and these operators
keep the set {'U', '0', '1'}.  So three levels are enough, with the tables of
`ieee.std_logic_1164` restricted to them.

A register without an initial value is 'U' at the start of a simulation and
'0' once the FPGA is configured (the power-up level of a flip-flop).  Both
starts are runs of the design: `PowerUp` chooses one, and every result below
holds for either unless it says otherwise.
-/
import Mathlib.Tactic.Common

namespace BarreFranche

/-- The levels 'U', '0' and '1' of `std_logic`. -/
inductive StdLogic where
  | U
  | zero
  | one
deriving DecidableEq, Repr

namespace StdLogic

/-- The level of a pin. -/
def ofBool : Bool → StdLogic
  | true => one
  | false => zero

/-- `not` of `std_logic_1164`. -/
def not : StdLogic → StdLogic
  | U => U
  | zero => one
  | one => zero

/-- `or` of `std_logic_1164`: '1' absorbs 'U'. -/
def or : StdLogic → StdLogic → StdLogic
  | one, _ => one
  | _, one => one
  | zero, zero => zero
  | _, _ => U

/-- `and` of `std_logic_1164`: '0' absorbs 'U'. -/
def and : StdLogic → StdLogic → StdLogic
  | zero, _ => zero
  | _, zero => zero
  | one, one => one
  | _, _ => U

@[simp] theorem ofBool_eq_one {b : Bool} : ofBool b = one ↔ b = true := by
  cases b <;> simp [ofBool]

@[simp] theorem ofBool_eq_zero {b : Bool} : ofBool b = zero ↔ b = false := by
  cases b <;> simp [ofBool]

@[simp] theorem ofBool_ne_U (b : Bool) : ofBool b ≠ U := by
  cases b <;> simp [ofBool]

@[simp] theorem ofBool_inj {a b : Bool} : ofBool a = ofBool b ↔ a = b := by
  cases a <;> cases b <;> simp [ofBool]

@[simp] theorem not_eq_one {a : StdLogic} : a.not = one ↔ a = zero := by
  cases a <;> simp [not]

@[simp] theorem not_eq_zero {a : StdLogic} : a.not = zero ↔ a = one := by
  cases a <;> simp [not]

@[simp] theorem or_eq_one {a b : StdLogic} : a.or b = one ↔ a = one ∨ b = one := by
  cases a <;> cases b <;> simp [or]

@[simp] theorem and_eq_one {a b : StdLogic} : a.and b = one ↔ a = one ∧ b = one := by
  cases a <;> cases b <;> simp [and]

@[simp] theorem or_eq_zero {a b : StdLogic} : a.or b = zero ↔ a = zero ∧ b = zero := by
  cases a <;> cases b <;> simp [or]

@[simp] theorem and_eq_zero {a b : StdLogic} : a.and b = zero ↔ a = zero ∨ b = zero := by
  cases a <;> cases b <;> simp [and]

theorem ne_one_of_zero {a : StdLogic} (h : a = zero) : a ≠ one := by
  rw [h]
  decide

theorem ne_zero_of_one {a : StdLogic} (h : a = one) : a ≠ zero := by
  rw [h]
  decide

theorem ne_U_of_zero {a : StdLogic} (h : a = zero) : a ≠ U := by
  rw [h]
  decide

theorem eq_U_of_ne {a : StdLogic} (h0 : a ≠ zero) (h1 : a ≠ one) : a = U := by
  cases a
  · rfl
  · exact absurd rfl h0
  · exact absurd rfl h1

end StdLogic

/-- Where a run starts: in the simulator, or in the configured FPGA. -/
inductive PowerUp where
  | simulation
  | fpga
deriving DecidableEq, Repr

/-- The level of a register to which the source gives no initial value. -/
def PowerUp.level : PowerUp → StdLogic
  | simulation => .U
  | fpga => .zero

@[simp] theorem PowerUp.level_ne_one (u : PowerUp) : u.level ≠ .one := by
  cases u <;> simp [PowerUp.level]

end BarreFranche
