/-
# `Reseau` — both masters and the six slaves

The whole of `nios_mcu_mm_interconnect_0.v`.  `Bus` follows one access to one slave
and leaves the rest to assumptions; here the instruction master fetches at the same
time, the slave that it shares with the data master stands behind `cmd_mux_002`, and
an answer finds its way back by the ID that the response queue has kept with the
command:

    data master          jtag, composant, debug, pio, onchip_ram s2
    instruction master   debug, onchip_ram s1

The translators of the six slaves have the same few registers, whatever the slave.
The memory answers with a latency of one cycle, so its data is passed through where
the data of the others is taken from `av_readdata_pre`.

The address decoders are a parameter, as they are all in which the two systems of
the repository differ; and so are the slaves, which are one device with six ports,
for the memory has two of them.
-/
import BarreFranche.BusEchange
import BarreFranche.CmdMux

namespace BarreFranche

open Synchrone

/-- The masters. -/
inductive Source where
  | donnees
  | instructions
deriving DecidableEq, Repr

/-- The parameter `ID` of their agents. -/
def Source.id : Source → BitVec 3
  | .donnees => 0
  | .instructions => 1

/-- The agents of the slaves. -/
inductive Port where
  | jtag
  | composant
  | debug
  | pio
  | ramS2
  | ramS1
deriving DecidableEq, Repr

namespace Port

def tous : List Port := [.jtag, .composant, .debug, .pio, .ramS2, .ramS1]

/-- The output of the demultiplexer of the master, and the input of its response
multiplexer. -/
def indice : Source → Port → Option ℕ
  | .donnees, .jtag => some 0
  | .donnees, .composant => some 1
  | .donnees, .debug => some 2
  | .donnees, .pio => some 3
  | .donnees, .ramS2 => some 4
  | .donnees, .ramS1 => none
  | .instructions, .debug => some 0
  | .instructions, .ramS1 => some 1
  | .instructions, _ => none

/-- `AV_READLATENCY`. -/
def latence : Port → Bool
  | .ramS2 | .ramS1 => true
  | _ => false

end Port

/-- One value for each master. -/
structure Sources (α : Type*) where
  donnees : α
  instructions : α
deriving DecidableEq, Repr

namespace Sources

variable {α : Type*}

def get (x : Sources α) : Source → α
  | .donnees => x.donnees
  | .instructions => x.instructions

def de (f : Source → α) : Sources α := ⟨f .donnees, f .instructions⟩

@[simp] theorem get_de (f : Source → α) (m : Source) : (de f).get m = f m := by
  cases m <;> rfl

end Sources

/-- One value for each slave. -/
structure Ports (α : Type*) where
  jtag : α
  composant : α
  debug : α
  pio : α
  ramS2 : α
  ramS1 : α
deriving DecidableEq, Repr

namespace Ports

variable {α : Type*}

def get (x : Ports α) : Port → α
  | .jtag => x.jtag
  | .composant => x.composant
  | .debug => x.debug
  | .pio => x.pio
  | .ramS2 => x.ramS2
  | .ramS1 => x.ramS1

def de (f : Port → α) : Ports α :=
  ⟨f .jtag, f .composant, f .debug, f .pio, f .ramS2, f .ramS1⟩

@[simp] theorem get_de (f : Port → α) (p : Port) : (de f).get p = f p := by
  cases p <;> rfl

end Ports

/-- The address decoders: each picks one output of its demultiplexer. -/
structure Carte where
  srcChannel : Source → BitVec 16 → BitVec 6
  unique : ∀ m a, ∃ p i, Port.indice m p = some i ∧ srcChannel m a = BitVec.twoPow 6 i

/-- The signals `m0_*` of an agent, but for `waitrequest` and the data read. -/
structure AccesM0 where
  read : Bool
  write : Bool
  address : BitVec 16
  writedata : BitVec 32
  byteenable : BitVec 4
deriving DecidableEq, Repr

/-- The slaves, and what their translators count to make them wait. -/
structure Appareils (ι σ : Type*) where
  waitrequest : Port → AccesM0 → σ → Bool
  readdata : Port → AccesM0 → σ → BitVec 32
  front : ι → (Port → AccesM0) → σ → σ

/-- A command packet, with the ID of who sent it. -/
structure Commande where
  srcId : BitVec 3
  paquet : Paquet
deriving DecidableEq, Repr, Inhabited

namespace Commande

/-- The packet on the wires of `cmd_mux_002`: between the channel and the two bits
that delimit it, the 92 of the data. -/
def payload (c : Commande) : BitVec 100 :=
  0#22 ++ c.srcId ++ 0#17 ++ BitVec.ofBool c.paquet.read ++ BitVec.ofBool c.paquet.write ++
    BitVec.ofBool c.paquet.posted ++ 0#1 ++ c.paquet.address ++ c.paquet.byteenable ++
      c.paquet.data ++ 3#2

/-- The fields the agent of the slave takes. -/
def lit (v : BitVec 100) : Commande :=
  { srcId := v.extractLsb' 75 3
    paquet :=
      { read := v.getLsbD 57
        write := v.getLsbD 56
        posted := v.getLsbD 55
        address := v.extractLsb' 38 16
        byteenable := v.extractLsb' 34 4
        data := v.extractLsb' 2 32 } }

theorem lit_payload (c : Commande) : lit c.payload = c := by
  obtain ⟨srcId, read, write, posted, address, byteenable, data⟩ := c
  simp only [lit, payload, Commande.mk.injEq, Paquet.mk.injEq]
  refine ⟨?_, ?_, ?_, ?_, ?_, ?_, ?_⟩
  case refine_2 | refine_3 | refine_4 =>
    simp only [BitVec.getLsbD_append]
    simp
  all_goals
    simp (disch := omega) only [BitVec.extractLsb'_append_eq_of_le,
      BitVec.extractLsb'_append_eq_of_add_le]
    simp

end Commande

/-- An element of a response queue. -/
structure Retour where
  needsResponseSynthesis : Bool
  commande : Commande
deriving DecidableEq, Repr, Inhabited

/-- The registers of the translator and the agent of a master.  The instruction
master does not write, and has no `write_accepted`. -/
structure MaitreRegs where
  readAccepted : Bool
  writeAccepted : Bool
  endBegintransfer : Bool
  holdWaitrequest : Bool
deriving DecidableEq, Repr

/-- The registers of the translator of a slave, and its response queue. -/
structure PortRegs where
  waitrequestResetOverride : Bool
  readLatencyShiftReg : Bool
  avReaddataPre : BitVec 32
  rspFifo : ScFifo Retour 1

/-- All of them, and the slaves. -/
structure Reseau (σ : Type*) where
  maitres : Sources MaitreRegs
  ports : Ports PortRegs
  mux : CmdMux
  appareils : σ

/-- The pins sampled by an edge: the two masters, and the other pins of the slaves. -/
structure ReseauEntrees (ι : Type*) where
  donnees : Av
  instructionRead : Bool
  instructionAddress : BitVec 16
  externe : ι

/-- The instruction master has its other controls tied. -/
def ReseauEntrees.av {ι : Type*} (e : ReseauEntrees ι) : Source → Av
  | .donnees => e.donnees
  | .instructions =>
      { read := e.instructionRead
        write := false
        address := e.instructionAddress
        byteenable := 15
        writedata := 0 }

namespace Reseau

variable {ι σ : Type*}

def maitre (s : Reseau σ) (m : Source) : MaitreRegs := s.maitres.get m

def port (s : Reseau σ) (p : Port) : PortRegs := s.ports.get p

/-- While `reset` is '1', but for the slaves. -/
def powerOn (appareils : σ) : Reseau σ :=
  { maitres := .de fun _ =>
      { readAccepted := false
        writeAccepted := false
        endBegintransfer := false
        holdWaitrequest := true }
    ports := .de fun _ =>
      { waitrequestResetOverride := true
        readLatencyShiftReg := false
        avReaddataPre := 0
        rspFifo := ScFifo.vide }
    mux := CmdMux.powerOn
    appareils := appareils }

@[simp] theorem powerOn_maitre (x : σ) (m : Source) :
    (powerOn x).maitre m = ⟨false, false, false, true⟩ := Sources.get_de _ m

@[simp] theorem powerOn_port (x : σ) (p : Port) :
    (powerOn x).port p = ⟨true, false, 0, ScFifo.vide⟩ := Ports.get_de _ p

/-! ## Commands -/

/-- The master has slave `p` at its demultiplexer, and its address there. -/
def route (C : Carte) (m : Source) (p : Port) (a : Av) : Bool :=
  match p.indice m with
  | some i => (C.srcChannel m (Bus.aligne a.address)).getLsbD i
  | none => false

section
variable (D : Appareils ι σ) (C : Carte) (e : ReseauEntrees ι) (s : Reseau σ)

def uavRead (m : Source) : Bool := (e.av m).read && !(s.maitre m).readAccepted

def uavWrite (m : Source) : Bool := (e.av m).write && !(s.maitre m).writeAccepted

def cpValid (m : Source) : Bool :=
  (uavWrite e s m || uavRead e s m) && !(s.maitre m).holdWaitrequest

def commande (m : Source) : Commande :=
  { srcId := m.id
    paquet :=
      { read := uavRead e s m
        write := uavWrite e s m
        posted := uavWrite e s m
        address := Bus.aligne (e.av m).address
        byteenable := (e.av m).byteenable
        data := (e.av m).writedata } }

/-- `valid` of the demultiplexer of the master, towards the slave. -/
def demuxValid (m : Source) (p : Port) : Bool := route C m p (e.av m) && cpValid e s m

def muxEntrees (srcReady : Bool) : MuxEntrees :=
  { sink0 := ⟨demuxValid C e s .donnees .debug, (commande e s .donnees).payload⟩
    sink1 := ⟨demuxValid C e s .instructions .debug, (commande e s .instructions).payload⟩
    srcReady := srcReady }

/-- At the agent of the slave.  All but one are reached by one master only. -/
def agentValid : Port → Bool
  | .debug => CmdMux.srcValid (muxEntrees C e s false) s.mux
  | .ramS1 => demuxValid C e s .instructions .ramS1
  | p => demuxValid C e s .donnees p

def agentData : Port → Commande
  | .debug => .lit (CmdMux.srcPayload (muxEntrees C e s false) s.mux)
  | .ramS1 => commande e s .instructions
  | _ => commande e s .donnees

def localRead (p : Port) : Bool := agentValid C e s p && (agentData C e s p).paquet.read

def localWrite (p : Port) : Bool := agentValid C e s p && (agentData C e s p).paquet.write

def nonpostedWrite (p : Port) : Bool :=
  !(agentData C e s p).paquet.posted && localWrite C e s p

/-! ## Answers -/

/-- Of the translator of the slave. -/
def uavReaddatavalid (p : Port) : Bool := (s.port p).readLatencyShiftReg

def uncompressorValid (p : Port) : Bool :=
  (s.port p).rspFifo.outValid &&
    (uavReaddatavalid s p || (s.port p).rspFifo.outPayload.needsResponseSynthesis)

def rpValid (p : Port) : Bool := uavReaddatavalid s p || uncompressorValid s p

/-- The response routers: only the one behind `debug` has a choice. -/
def rspChannel (p : Port) : BitVec 6 :=
  let c := (s.port p).rspFifo.outPayload.commande
  match p with
  | .debug => if c.srcId = 1 ∧ c.paquet.read = true then 0b10 else 0b01
  | _ => 0b01

/-- `valid` of the response demultiplexer of the slave, towards the master. -/
def rspValid (m : Source) : Port → Bool
  | .debug =>
      (rspChannel s .debug).getLsbD (match m with | .donnees => 0 | .instructions => 1) &&
        rpValid s .debug
  | p => (p.indice m).isSome && (rspChannel s p).getLsbD 0 && rpValid s p

/-- The response multiplexer of a master is ready for who has something. -/
def rpReady (p : Port) : Bool := rspValid s .donnees p || rspValid s .instructions p

def rfSinkReady (p : Port) : Bool := uncompressorValid s p && rpReady s p

/-- The pins of the response queue. -/
def fifoEntrees (p : Port) (inPayload : Retour) (inValid : Bool) : FifoEntrees Retour :=
  { niveaux := []
    reset := false
    inPayload := inPayload
    inValid := inValid
    outReady := rfSinkReady s p }

/-! ## The slaves -/

def readyForCommand (p : Port) : Bool :=
  ScFifo.inReady (fifoEntrees s p default false) (s.port p).rspFifo

def acces (p : Port) : AccesM0 :=
  { read := readyForCommand s p && localRead C e s p
    write := readyForCommand s p && localWrite C e s p
    address := Bus.aligne (agentData C e s p).paquet.address
    writedata := (agentData C e s p).paquet.data
    byteenable := (agentData C e s p).paquet.byteenable }

def m0Waitrequest (p : Port) : Bool := D.waitrequest p (acces C e s p) s.appareils

def m0Readdata (p : Port) : BitVec 32 := D.readdata p (acces C e s p) s.appareils

def cpReady (p : Port) : Bool := !m0Waitrequest D C e s p && readyForCommand s p

def rfSourceValid (p : Port) : Bool :=
  (localRead C e s p || nonpostedWrite C e s p) && readyForCommand s p && cpReady D C e s p

def rfSourceData (p : Port) : Retour :=
  { needsResponseSynthesis := nonpostedWrite C e s p
    commande :=
      { agentData C e s p with paquet := { (agentData C e s p).paquet with data := 0 } } }

def rpData (p : Port) : BitVec 32 :=
  if p.latence then m0Readdata D C e s p else (s.port p).avReaddataPre

/-! ## The masters -/

/-- `ready` of the demultiplexer of the master, from the slave. -/
def demuxReady (m : Source) : Port → Bool
  | .debug =>
      CmdMux.sinkReady (muxEntrees C e s (cpReady D C e s .debug)) s.mux
        (match m with | .donnees => 0 | .instructions => 1)
  | p => cpReady D C e s p

def cmdReady (m : Source) : Bool :=
  Port.tous.any fun p => route C m p (e.av m) && demuxReady D C e s m p

def uavWaitrequest (m : Source) : Bool := (s.maitre m).holdWaitrequest || !cmdReady D C e s m

def readdatavalid (m : Source) : Bool := Port.tous.any (rspValid s m)

def rspPayload (m : Source) (p : Port) : BitVec 32 :=
  if rspValid s m p then rpData D C e s p else 0

def avReaddata : Source → BitVec 32
  | .donnees =>
      rspPayload D C e s .donnees .jtag ||| rspPayload D C e s .donnees .composant |||
        rspPayload D C e s .donnees .debug ||| rspPayload D C e s .donnees .pio |||
          rspPayload D C e s .donnees .ramS2
  | .instructions =>
      rspPayload D C e s .instructions .debug ||| rspPayload D C e s .instructions .ramS1

def begintransfer (m : Source) : Bool :=
  (uavWrite e s m || uavRead e s m) && !(s.maitre m).endBegintransfer

/-- `AV_REGISTERINCOMINGSIGNALS` is set for the data master. -/
def avWaitrequest (m : Source) : Bool :=
  if (e.av m).read then !readdatavalid s m
  else match m with
    | .donnees =>
        if (e.av .donnees).write then
          (begintransfer e s .donnees || uavWaitrequest D C e s .donnees) &&
            !(s.maitre .donnees).writeAccepted
        else true
    | .instructions => uavWaitrequest D C e s .instructions

/-- One rising edge of `clk`. -/
def front : Reseau σ :=
  { maitres := .de fun m =>
      { readAccepted :=
          if (s.maitre m).readAccepted then !readdatavalid s m
          else if avWaitrequest D C e s m then (e.av m).read && !uavWaitrequest D C e s m
          else false
        writeAccepted :=
          if !avWaitrequest D C e s m then false
          else if uavWrite e s m && !uavWaitrequest D C e s m then true
          else (s.maitre m).writeAccepted
        endBegintransfer :=
          if begintransfer e s m && uavWaitrequest D C e s m then true
          else if uavWaitrequest D C e s m then (s.maitre m).endBegintransfer
          else false
        holdWaitrequest := false }
    ports := .de fun p =>
      { waitrequestResetOverride := false
        readLatencyShiftReg :=
          (acces C e s p).read && !m0Waitrequest D C e s p &&
            !(s.port p).waitrequestResetOverride
        avReaddataPre := m0Readdata D C e s p
        rspFifo := ScFifo.front
          (fifoEntrees s p (rfSourceData C e s p) (rfSourceValid D C e s p)) (s.port p).rspFifo }
    mux := CmdMux.front (muxEntrees C e s (cpReady D C e s .debug)) s.mux
    appareils := D.front e.externe (acces C e s) s.appareils }

end

section
variable (D : Appareils ι σ) (C : Carte) (e : ReseauEntrees ι) (s : Reseau σ)

theorem front_maitre (m : Source) : (front D C e s).maitre m =
    { readAccepted :=
        if (s.maitre m).readAccepted then !readdatavalid s m
        else if avWaitrequest D C e s m then (e.av m).read && !uavWaitrequest D C e s m
        else false
      writeAccepted :=
        if !avWaitrequest D C e s m then false
        else if uavWrite e s m && !uavWaitrequest D C e s m then true
        else (s.maitre m).writeAccepted
      endBegintransfer :=
        if begintransfer e s m && uavWaitrequest D C e s m then true
        else if uavWaitrequest D C e s m then (s.maitre m).endBegintransfer
        else false
      holdWaitrequest := false } :=
  Sources.get_de _ m

theorem front_port (p : Port) : (front D C e s).port p =
    { waitrequestResetOverride := false
      readLatencyShiftReg :=
        (acces C e s p).read && !m0Waitrequest D C e s p &&
          !(s.port p).waitrequestResetOverride
      avReaddataPre := m0Readdata D C e s p
      rspFifo := ScFifo.front
        (fifoEntrees s p (rfSourceData C e s p) (rfSourceValid D C e s p)) (s.port p).rspFifo } :=
  Ports.get_de _ p

end

/-- The registers at cycle `k` of a run that begins with the end of a reset. -/
def cycle (D : Appareils ι σ) (C : Carte) (appareils : σ) (w : ℕ → ReseauEntrees ι) (k : ℕ) :
    Reseau σ :=
  run (front D C) (powerOn appareils) w k

end Reseau

end BarreFranche
