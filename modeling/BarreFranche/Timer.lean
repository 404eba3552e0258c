/-
# `Timer` — the timer entity

`Functions_dev/components/timer.vhd`: a divider, a counter it enables, a
comparison with `Autoreload` whose result clears the counter one register
later, and the event `coUEV`, raised when the counter is seen to have
decreased.  Every time window of the design (the measurement second, the
debounce tick, the beep, the 1 s clock) is an instance.

`general_reset` is not a register: its process is sensitive to `Reset`, so at
a clock edge it already has the level of `Reset`.
-/
import BarreFranche.Composants

namespace BarreFranche

variable {P : ℕ}

/-- What the ports read at a clock edge carry.  `Enable_PWM` and
`Capture_Compare` enter the combinational output `PWM_output` only. -/
structure TimerPorts (P : ℕ) where
  enable : StdLogic
  reset : StdLogic
  prescaler : BitVec P
  autoreload : BitVec P
deriving DecidableEq, Repr

/-- The registers of a timer.  `div` is the count inside the divider, `compt1`
the counter read on `tim_counter`. -/
structure Timer (P : ℕ) where
  div : BitVec P
  compt1 : BitVec P
  counterOverflowD : BitVec P
  coUEV : StdLogic
  srstCompt1 : StdLogic
  resetDiv : StdLogic
deriving DecidableEq, Repr

namespace Timer

/-- Only `coUEV` has no initial value. -/
def powerOn (P : ℕ) (u : PowerUp) : Timer P :=
  { div := 0
    compt1 := 0
    counterOverflowD := 0
    coUEV := u.level
    srstCompt1 := .zero
    resetDiv := .zero }

/-- One rising edge of `Clock`: the divider `div`, the counter `compt1` and
the process `pReset`. -/
def front (p : TimerPorts P) (s : Timer P) : Timer P :=
  { div := diviseur p.enable s.resetDiv p.prescaler s.div
    compt1 := compteur .one s.srstCompt1 (divOutput p.prescaler s.div) s.compt1
    counterOverflowD := s.compt1
    coUEV := if s.compt1 < s.counterOverflowD then .one else .zero
    srstCompt1 := (bit (comparateur s.compt1 p.autoreload) 2).or p.reset
    resetDiv := p.reset }

/-- `PWM_output`: the counter has not passed `Capture_Compare`. -/
def pwmOutput (enablePWM : StdLogic) (captureCompare : BitVec P) (s : Timer P) : StdLogic :=
  let pwmOutputs := comparateur s.compt1 captureCompare
  ((bit pwmOutputs 0).or (bit pwmOutputs 1)).and enablePWM

section
variable (p : TimerPorts P) (s : Timer P)

@[simp] theorem front_counterOverflowD : (front p s).counterOverflowD = s.compt1 := rfl

@[simp] theorem front_resetDiv : (front p s).resetDiv = p.reset := rfl

theorem front_div : (front p s).div = diviseur p.enable s.resetDiv p.prescaler s.div := rfl

theorem front_compt1 : (front p s).compt1 =
    compteur .one s.srstCompt1 (divOutput p.prescaler s.div) s.compt1 := rfl

/-- `coUEV` is raised when the delayed copy exceeds the counter. -/
@[simp] theorem front_coUEV : (front p s).coUEV = .one ↔
    s.compt1.toNat < s.counterOverflowD.toNat := by
  simp only [front]
  rw [← BitVec.lt_def]
  split <;> simp_all

/-- The counter is cleared after an overshoot or a reset. -/
@[simp] theorem front_srstCompt1 : (front p s).srstCompt1 = .one ↔
    p.autoreload.toNat < s.compt1.toNat ∨ p.reset = .one := by
  simp [front]

theorem pwmOutput_eq_one (enablePWM : StdLogic) (captureCompare : BitVec P) :
    pwmOutput enablePWM captureCompare s = .one ↔
      s.compt1.toNat ≤ captureCompare.toNat ∧ enablePWM = .one := by
  simp only [pwmOutput, StdLogic.and_eq_one, StdLogic.or_eq_one, comparateur_lt,
    comparateur_eq]
  refine and_congr_left fun _ => ?_
  omega

/-- An enabled `PWM_output` is '0' past `Capture_Compare`. -/
theorem pwmOutput_eq_zero (captureCompare : BitVec P) :
    pwmOutput .one captureCompare s = .zero ↔ captureCompare.toNat < s.compt1.toNat := by
  simp only [pwmOutput, StdLogic.and_eq_zero, StdLogic.or_eq_zero, bit_eq_zero, comparateur_lt,
    comparateur_eq]
  constructor
  · rintro (⟨h1, h2⟩ | h)
    · omega
    · exact absurd h (by decide)
  · intro h
    exact Or.inl ⟨by omega, by omega⟩

end

section
variable {p : TimerPorts P} {s : Timer P}

theorem front_compt1_clear (h : s.srstCompt1 = .one) : (front p s).compt1 = 0 := by
  rw [front_compt1, compteur_clear h]

theorem front_compt1_hold (hK : 1 ≤ p.prescaler.toNat)
    (hd : s.div.toNat + 1 ≠ p.prescaler.toNat) (h : s.srstCompt1 ≠ .one) :
    (front p s).compt1 = s.compt1 := by
  rw [front_compt1, compteur_hold h]
  rwa [Ne, divOutput_eq_one hK]

theorem front_compt1_incr (hK : 1 ≤ p.prescaler.toNat)
    (hd : s.div.toNat + 1 = p.prescaler.toNat) (h : s.srstCompt1 ≠ .one) :
    (front p s).compt1 = s.compt1 + 1 := by
  rw [front_compt1, compteur_incr h]
  rwa [divOutput_eq_one hK]

/-- The counter can only decrease by going to zero, by clear or by wrap, whatever
the ports carry. -/
theorem front_compt1_lt (h : (front p s).compt1.toNat < s.compt1.toNat) :
    (front p s).compt1 = 0 := by
  rw [front_compt1, compteur_one] at h ⊢
  by_cases hsrst : s.srstCompt1 = .one
  · rw [if_pos hsrst]
  · rw [if_neg hsrst] at h ⊢
    by_cases hen : divOutput p.prescaler s.div = .one
    · rw [if_pos hen] at h ⊢
      apply incr_eq_zero
      intro hlt
      rw [toNat_incr hlt] at h
      omega
    · rw [if_neg hen] at h
      omega

end

end Timer

end BarreFranche
