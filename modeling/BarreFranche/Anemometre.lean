/-
# `Anemometre` — the wind speed block

`functions/FPGA/anemometre.vhd`, architecture `anemometre_oc`: an edge counter
on the sensor input, the 1 s timer, and two clocked processes.  When `second`
(the event of the timer) is '1', the counter is published on
`data_anemometre` and `data_valid` is set; one cycle later `internal_reset`
clears the counter and the timer.

`sortie_data_valid` is combinational and equal to '1' exactly when `second`
is.  A cycle at which `second` is '1' is called a publication below: the clock
edge that ends it loads the outputs.
-/
import BarreFranche.Minuterie

namespace BarreFranche

open Synchrone

/-- The pins of the block at one clock edge. -/
structure AnemometreEntrees where
  inFreqAnemometre : Bool
  resetN : Bool
  continu : Bool
  startStop : Bool
deriving DecidableEq, Repr

/-- The registers of the block; `counter` is the count of `compt_front`. -/
structure Anemometre where
  timerEnable : StdLogic
  internalReset : StdLogic
  counter : BitVec 8
  timer1hz : Timer 16
  edgeDetector1 : EdgeDetector
  dataAnemometre : BitVec 8
  dataValid : StdLogic
deriving DecidableEq, Repr

namespace Anemometre

/-- The initial values of the source: `timer_enable` is '1', `data_anemometre`
and the counters are 0, and nothing else has one. -/
def powerOn (u : PowerUp) : Anemometre :=
  { timerEnable := .one
    internalReset := u.level
    counter := 0
    timer1hz := Timer.powerOn 16 u
    edgeDetector1 := EdgeDetector.powerOn u
    dataAnemometre := 0
    dataValid := u.level }

/-- The event of `timer_1hz`. -/
def second (s : Anemometre) : StdLogic := s.timer1hz.coUEV

def risingEdgeDetected (s : Anemometre) : StdLogic := s.edgeDetector1.detectedEdge

def sortieDataValid (s : Anemometre) : StdLogic :=
  if s.second = .one then .one else .zero

/-- The port map of `timer_1hz`; its `PWM_output` and `tim_counter` are open. -/
def ports (s : Anemometre) : TimerPorts 16 :=
  { enable := s.timerEnable
    reset := s.internalReset
    prescaler := 0x270F
    autoreload := 0x1387 }

/-- One rising edge of `clk_50M`. -/
def front (e : AnemometreEntrees) (s : Anemometre) : Anemometre :=
  { timerEnable :=
      if e.continu = true ∨ (e.continu = false ∧ e.startStop = true) then .one
      else if s.second = .one ∧ e.continu = false then .zero
      else s.timerEnable
    internalReset :=
      if s.sortieDataValid = .one then .one else (StdLogic.ofBool e.resetN).not
    counter := compteur .one s.internalReset s.risingEdgeDetected s.counter
    timer1hz := Timer.front s.ports s.timer1hz
    edgeDetector1 := s.edgeDetector1.front .zero (.ofBool e.inFreqAnemometre)
    dataAnemometre := if s.sortieDataValid = .one then s.counter else s.dataAnemometre
    dataValid := if s.sortieDataValid = .one then s.sortieDataValid else s.dataValid }

/-- The contents at cycle `n` of a run from power-on. -/
def cycle (u : PowerUp) (w : ℕ → AnemometreEntrees) (n : ℕ) : Anemometre :=
  run front (powerOn u) w n

/-! ## One edge -/

section
variable (e : AnemometreEntrees) (s : Anemometre)

@[simp] theorem sortieDataValid_eq_one : s.sortieDataValid = .one ↔ s.second = .one := by
  by_cases h : s.second = .one <;> simp [sortieDataValid, h]

theorem front_timer1hz : (front e s).timer1hz = Timer.front s.ports s.timer1hz := rfl

/-- `internal_reset` follows a publication, and `reset_n` otherwise. -/
@[simp] theorem front_internalReset : (front e s).internalReset = .one ↔
    s.second = .one ∨ e.resetN = false := by
  by_cases h : s.second = .one <;> simp [front, h]

/-- The timer is enabled on demand and stopped by a publication only. -/
theorem front_timerEnable : (front e s).timerEnable = .one ↔
    (e.continu = true ∨ e.startStop = true) ∨
      (s.second ≠ .one ∧ s.timerEnable = .one) := by
  cases hc : e.continu <;> cases hs : e.startStop <;> by_cases h : s.second = .one <;>
    simp [front, hc, hs, h]

/-- It is stopped only by a publication that nobody asks to repeat. -/
theorem front_timerEnable_zero : (front e s).timerEnable = .zero ↔
    (e.continu = false ∧ e.startStop = false) ∧
      (s.second = .one ∨ s.timerEnable = .zero) := by
  cases hc : e.continu <;> cases hs : e.startStop <;> by_cases h : s.second = .one <;>
    simp [front, hc, hs, h]

theorem front_counter : (front e s).counter =
    compteur .one s.internalReset s.risingEdgeDetected s.counter := rfl

theorem front_dataAnemometre : (front e s).dataAnemometre =
    if s.second = .one then s.counter else s.dataAnemometre := by
  simp [front]

/-- `data_valid` is set by a publication and never written otherwise. -/
theorem front_dataValid : (front e s).dataValid =
    if s.second = .one then .one else s.dataValid := by
  by_cases h : s.second = .one <;> simp [front, sortieDataValid, h]

theorem front_risingEdgeDetected : (front e s).risingEdgeDetected = .one ↔
    s.edgeDetector1.fInD = .zero ∧ e.inFreqAnemometre = true := by
  simp only [risingEdgeDetected, front, EdgeDetector.front_detected]
  simp

/-- The constants of the port map: 10,000 cycles a tick, 5,000 ticks. -/
theorem reglage : Reglage 9999 4999 s.ports where
  prescaler := rfl
  autoreload := rfl
  three_le := by omega
  lt_top := by omega

end

/-! ## The input waveform -/

/-- `in_freq_anemometre` is sampled '1' at an edge and '0' at the edge before
(the detector takes it as '0' before power-on). -/
def frontMontant (w : ℕ → AnemometreEntrees) : ℕ → Bool
  | 0 => (w 0).inFreqAnemometre
  | k + 1 => (w (k + 1)).inFreqAnemometre && !(w k).inFreqAnemometre

variable {u : PowerUp} {w : ℕ → AnemometreEntrees}

@[simp] theorem cycle_zero : cycle u w 0 = powerOn u := run_zero

theorem cycle_succ (n : ℕ) : cycle u w (n + 1) = front (w n) (cycle u w n) := run_succ n

/-- A rising edge of the waveform is detected one cycle after its sample. -/
theorem risingEdgeDetected_iff (n : ℕ) :
    (cycle u w (n + 1)).risingEdgeDetected = .one ↔ frontMontant w n = true := by
  rw [cycle_succ, front_risingEdgeDetected]
  cases n with
  | zero => simp [frontMontant, powerOn, EdgeDetector.powerOn]
  | succ m => simp [frontMontant, cycle_succ, front, EdgeDetector.front, and_comm]

end Anemometre

end BarreFranche
