/-
# `GestionBoutton` — the push-button block

`functions/FPGA/gestion_boutton.vhd`: four timers (the 1 s clock, the dimmer,
the beep, the debounce tick), the debouncer of the three buttons, the counter
`Delay` of a long press, and the state machine `gestion_bp`.

All processes are clocked by `clk_50M` except that `gestion_bp` is also woken
by `reset_n`: its '0' clears the variable `present_State` at once, and nothing
else.  A cycle of the model is therefore the list of levels `reset_n` takes
between two edges, and then the edge:

    avantFront   the levels of `reset_n` before the edge, in order
    front        the rising edge: every process reads the old registers
    etape        both

so that every interleaving of reset changes and edges is a run, pulses of
`reset_n` that no edge samples included.
-/
import BarreFranche.Minuterie

namespace BarreFranche

open Synchrone

/-- `present_State`, an integer in `0 to 13`. -/
inductive Etat where
  | e0 | e1 | e2 | e3 | e4 | e5 | e6 | e7 | e8 | e9 | e10 | e11 | e12 | e13
deriving DecidableEq, Repr

/-- One value for each button. -/
structure Boutons (α : Type) where
  babord : α
  tribord : α
  stby : α
deriving DecidableEq, Repr

/-- The buttons, as an index. -/
inductive Bouton where
  | babord
  | tribord
  | stby
deriving DecidableEq, Repr

def Boutons.get {α : Type} (b : Boutons α) : Bouton → α
  | .babord => b.babord
  | .tribord => b.tribord
  | .stby => b.stby

/-- The levels of three pins. -/
def Boutons.niveaux (b : Boutons Bool) : Boutons StdLogic :=
  { babord := .ofBool b.babord
    tribord := .ofBool b.tribord
    stby := .ofBool b.stby }

@[simp] theorem Boutons.get_niveaux (b : Boutons Bool) (i : Bouton) :
    b.niveaux.get i = .ofBool (b.get i) := by
  cases i <;> rfl

/-- The pins during one cycle: the levels `reset_n` takes before the edge, its
level at the edge, and the raw buttons sampled by the edge ('0' is pressed). -/
structure GestionEntrees where
  niveaux : List Bool
  resetN : Bool
  pb : Boutons Bool
deriving DecidableEq, Repr

/-- The registered outputs of `gestion_bp`.  `codeFonction` is `none` until it
is first assigned in simulation ("UUUU"). -/
structure Sorties where
  codeFonction : Option (BitVec 4)
  ledSTBY : StdLogic
  ledTribord : StdLogic
  ledBabord : StdLogic
  outBip : StdLogic
  resetDelay : StdLogic
  bipReset : StdLogic
deriving DecidableEq, Repr

/-- The registers of the block; `bp` are `BP_*` and `pbD` are `PB_*_d`. -/
structure GestionBoutton where
  presentState : Etat
  timer2hz : Timer 16
  timerPwm : Timer 16
  timerBip : Timer 16
  timerDebounce : Timer 16
  edgeDetector1 : EdgeDetector
  delay : BitVec 16
  pbD : Boutons StdLogic
  bp : Boutons StdLogic
  sorties : Sorties
deriving DecidableEq, Repr

namespace GestionBoutton

/-- `present_State` and the counters start at 0; no other register of the
architecture has an initial value. -/
def powerOn (u : PowerUp) : GestionBoutton :=
  { presentState := .e0
    timer2hz := Timer.powerOn 16 u
    timerPwm := Timer.powerOn 16 u
    timerBip := Timer.powerOn 16 u
    timerDebounce := Timer.powerOn 16 u
    edgeDetector1 := EdgeDetector.powerOn u
    delay := 0
    pbD := ⟨u.level, u.level, u.level⟩
    bp := ⟨u.level, u.level, u.level⟩
    sorties :=
      { codeFonction := match u with
          | .simulation => none
          | .fpga => some 0
        ledSTBY := u.level
        ledTribord := u.level
        ledBabord := u.level
        outBip := u.level
        resetDelay := u.level
        bipReset := u.level } }

/-! ## The signals -/

/-- `PWM_output` of `timer_2hz`. -/
def clk500ms (s : GestionBoutton) : StdLogic := s.timer2hz.pwmOutput .one 0x09C4

/-- `PWM_output` of `timer_pwm`. -/
def halfOn (s : GestionBoutton) : StdLogic := s.timerPwm.pwmOutput .one 0x0064

/-- `PWM_output` of `timer_bip`. -/
def bipSimple (s : GestionBoutton) : StdLogic := s.timerBip.pwmOutput .one 0x1387

def bipCounter (s : GestionBoutton) : BitVec 16 := s.timerBip.compt1

def bipDouble (s : GestionBoutton) : StdLogic :=
  if s.bipCounter < 1250 then .zero
  else if 1250 ≤ s.bipCounter ∧ s.bipCounter < 2500 then .one
  else if 2500 ≤ s.bipCounter ∧ s.bipCounter < 3740 then .zero
  else if 3740 ≤ s.bipCounter ∧ s.bipCounter < 5000 then .one
  else .zero

/-- The event of `timer_bip`. -/
def bipEnd (s : GestionBoutton) : StdLogic := s.timerBip.coUEV

/-- The event of `timer_debounce`: a debounce tick. -/
def miliS (s : GestionBoutton) : StdLogic := s.timerDebounce.coUEV

def clkDetectedEdge (s : GestionBoutton) : StdLogic := s.edgeDetector1.detectedEdge

/-- `internal_reset <= not reset_n`; `pwm_reset` and `timer_100ms_reset` follow
it. -/
def internalReset (resetN : Bool) : StdLogic := (StdLogic.ofBool resetN).not

def notBipResetN (s : GestionBoutton) : StdLogic := s.sorties.bipReset.not

def ports2hz (resetN : Bool) : TimerPorts 16 :=
  { enable := .one
    reset := internalReset resetN
    prescaler := 0x270F
    autoreload := 0x1387 }

def portsPwm (resetN : Bool) : TimerPorts 16 :=
  { enable := .one
    reset := internalReset resetN
    prescaler := 0x01F4
    autoreload := 0x03E8 }

def portsBip (s : GestionBoutton) : TimerPorts 16 :=
  { enable := .one
    reset := s.notBipResetN
    prescaler := 0x270F
    autoreload := 0x1387 }

def portsDebounce : TimerPorts 16 :=
  { enable := .one
    reset := .zero
    prescaler := 0x03E7
    autoreload := 0x01F4 }

/-! ## gestion_bp -/

/-- The first `case` of `gestion_bp`: `next_State`. -/
def etatSuivant (s : GestionBoutton) : Etat → Etat
  | .e0 =>
      if s.bp.tribord = .zero then .e2
      else if s.bp.babord = .zero then .e1
      else if s.bp.stby = .zero then .e3
      else .e0
  | .e1 => if s.bp.babord = .one then .e0 else .e1
  | .e2 => if s.bp.tribord = .one then .e0 else .e2
  | .e3 => if s.bp.stby = .one then .e4 else .e3
  | .e4 =>
      if s.bp.stby = .zero then .e5
      else if s.bp.babord = .zero then .e6
      else if s.bp.tribord = .zero then .e7
      else .e4
  | .e5 => if s.bp.stby = .one then .e0 else .e5
  | .e6 =>
      if s.bp.babord = .zero ∧ 2 ≤ s.delay then .e13
      else if s.bp.babord = .one ∧ s.delay < 2 then .e9
      else .e6
  | .e7 =>
      if s.bp.tribord = .zero ∧ 2 ≤ s.delay then .e12
      else if s.bp.tribord = .one ∧ s.delay < 2 then .e11
      else .e7
  | .e8 => if s.bipEnd = .one then .e4 else .e8
  | .e9 => if s.bipEnd = .one then .e4 else .e9
  | .e10 => if s.bipEnd = .one then .e4 else .e10
  | .e11 => if s.bipEnd = .one then .e4 else .e11
  | .e12 => if s.bp.tribord = .one then .e10 else .e12
  | .e13 => if s.bp.babord = .one then .e8 else .e13

/-- The second `case` of `gestion_bp`: what the new `present_State` assigns.
`reset_Delay` and `bip_reset` are assigned in some states only. -/
def affecte (s : GestionBoutton) : Etat → Sorties
  | .e0 =>
      { s.sorties with
        codeFonction := some 0b0000, ledSTBY := s.clk500ms, ledTribord := s.halfOn,
        ledBabord := s.halfOn, outBip := .zero }
  | .e1 =>
      { s.sorties with
        codeFonction := some 0b0001, ledSTBY := s.clk500ms, ledTribord := s.halfOn,
        ledBabord := .one, outBip := .zero }
  | .e2 =>
      { s.sorties with
        codeFonction := some 0b0010, ledSTBY := s.clk500ms, ledTribord := .one,
        ledBabord := s.halfOn, outBip := .zero }
  | .e3 =>
      { s.sorties with
        codeFonction := some 0b0000, ledSTBY := s.clk500ms, ledTribord := s.halfOn,
        ledBabord := s.halfOn, outBip := .zero }
  | .e4 =>
      { s.sorties with
        codeFonction := some 0b0011, ledSTBY := .one, ledTribord := s.halfOn,
        ledBabord := s.halfOn, outBip := .zero, resetDelay := .one, bipReset := .zero }
  | .e5 =>
      { s.sorties with
        codeFonction := some 0b0000, ledSTBY := s.clk500ms, ledTribord := s.halfOn,
        ledBabord := s.halfOn, outBip := .zero }
  | .e6 =>
      { s.sorties with
        codeFonction := some 0b0011, ledSTBY := .one, ledTribord := s.halfOn,
        ledBabord := s.halfOn, outBip := .zero, resetDelay := .zero }
  | .e7 =>
      { s.sorties with
        codeFonction := some 0b0011, ledSTBY := .one, ledTribord := s.halfOn,
        ledBabord := s.halfOn, outBip := .zero, resetDelay := .zero }
  | .e8 =>
      { s.sorties with
        codeFonction := some 0b0101, ledSTBY := .one, ledBabord := s.bipDouble,
        ledTribord := s.halfOn, outBip := s.bipDouble, bipReset := .one }
  | .e9 =>
      { s.sorties with
        codeFonction := some 0b0100, ledSTBY := .one, ledBabord := s.bipSimple,
        ledTribord := s.halfOn, outBip := s.bipSimple, bipReset := .one }
  | .e10 =>
      { s.sorties with
        codeFonction := some 0b0110, ledSTBY := .one, ledBabord := s.halfOn,
        ledTribord := s.bipDouble, outBip := s.bipDouble, bipReset := .one }
  | .e11 =>
      { s.sorties with
        codeFonction := some 0b0111, ledSTBY := .one, ledTribord := s.bipSimple,
        ledBabord := s.halfOn, outBip := s.bipSimple, bipReset := .one }
  | .e12 =>
      { s.sorties with
        codeFonction := some 0b0011, ledSTBY := .one, ledTribord := s.halfOn,
        ledBabord := s.halfOn, outBip := .zero }
  | .e13 =>
      { s.sorties with
        codeFonction := some 0b0011, ledSTBY := .one, ledTribord := s.halfOn,
        ledBabord := s.halfOn, outBip := .zero }

/-- `gestion_bp` woken by a change of `reset_n`. -/
def asynchrone (s : GestionBoutton) (resetN : Bool) : GestionBoutton :=
  if resetN = false then { s with presentState := .e0 } else s

/-- The condition of `pDebounce`: some button shows the level of the last tick. -/
def Stable (pb : Boutons Bool) (s : GestionBoutton) : Prop :=
  s.pbD.stby = .ofBool pb.stby ∨ s.pbD.tribord = .ofBool pb.tribord ∨
    s.pbD.babord = .ofBool pb.babord

instance (pb : Boutons Bool) (s : GestionBoutton) : Decidable (Stable pb s) :=
  inferInstanceAs (Decidable (_ ∨ _))

/-- One rising edge of `clk_50M`. -/
def front (e : GestionEntrees) (s : GestionBoutton) : GestionBoutton :=
  { presentState := if e.resetN = false then .e0 else s.etatSuivant s.presentState
    timer2hz := Timer.front (ports2hz e.resetN) s.timer2hz
    timerPwm := Timer.front (portsPwm e.resetN) s.timerPwm
    timerBip := Timer.front s.portsBip s.timerBip
    timerDebounce := Timer.front portsDebounce s.timerDebounce
    edgeDetector1 := s.edgeDetector1.front (internalReset e.resetN) s.clk500ms
    delay := compteur .one s.sorties.resetDelay s.clkDetectedEdge s.delay
    pbD := if s.miliS = .one then e.pb.niveaux else s.pbD
    bp := if s.miliS = .one ∧ Stable e.pb s then e.pb.niveaux else s.bp
    sorties :=
      if e.resetN = false then s.sorties else s.affecte (s.etatSuivant s.presentState) }

/-- The levels of `reset_n` up to the edge, in order. -/
def avantFront (e : GestionEntrees) (s : GestionBoutton) : GestionBoutton :=
  (e.niveaux ++ [e.resetN]).foldl asynchrone s

/-- One cycle. -/
def etape (e : GestionEntrees) (s : GestionBoutton) : GestionBoutton :=
  front e (avantFront e s)

/-- The contents at cycle `n` of a run from power-on. -/
def cycle (u : PowerUp) (w : ℕ → GestionEntrees) (n : ℕ) : GestionBoutton :=
  run etape (powerOn u) w n

end GestionBoutton

end BarreFranche
