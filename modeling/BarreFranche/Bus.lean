/-
# `Bus` — from the data master of the processor to a slave

The path of one access through `nios_mcu_mm_interconnect_0.v`: the translator and
the agent of the master, the router and the demultiplexer, the agent of the slave
with its response queue, the translator of the slave, and back through the
response multiplexer.  `cmd_mux` has one input here and the response router one
output, so they are wires.

Everything is combinational but a few bits.  The master learns that its access is
over from `av_waitrequest`; what tells the slave is `m0_waitrequest`, one or two
cycles before.  In between `read_accepted` or `write_accepted` keeps the access
from being made again, and the answer to a read waits in `av_readdata_pre`.

The slave is a parameter, with its place in the address map of the router and the
pins it has besides the bus.  The other four show what they like on their side of
the multiplexers (`Voisin`).
-/
import BarreFranche.ScFifo

namespace BarreFranche

open Synchrone

/-- The pins of a slave during one cycle. -/
structure Acces where
  read : Bool
  write : Bool
  address : BitVec 2
  writedata : BitVec 32
  byteenable : BitVec 4
deriving DecidableEq, Repr

/-- A slave with a `waitrequest` and no latency, its other pins of type `ι`; and
the router, which gives it the channel `indice`, alone. -/
structure Esclave (ι σ : Type*) where
  srcChannel : BitVec 16 → BitVec 6
  indice : ℕ
  place : indice < 5
  unique : ∀ a, (srcChannel a).getLsbD indice = true → srcChannel a = BitVec.twoPow 6 indice
  waitrequest : Acces → σ → Bool
  readdata : Acces → σ → BitVec 32
  front : ι → Acces → σ → σ

/-- Another slave, at the multiplexers. -/
structure Voisin where
  cpReady : Bool
  rpValid : Bool
  rpData : BitVec 32
deriving DecidableEq, Repr

/-- The controls of the master, `av_*`. -/
structure Av where
  read : Bool
  write : Bool
  address : BitVec 16
  byteenable : BitVec 4
  writedata : BitVec 32
deriving DecidableEq, Repr

/-- The pins sampled by an edge: the master, the other slaves by their channel, and
the other pins of the slave. -/
structure BusEntrees (ι : Type*) where
  av : Av
  voisin : ℕ → Voisin
  externe : ι

/-- A command packet. -/
structure Paquet where
  read : Bool
  write : Bool
  posted : Bool
  address : BitVec 16
  byteenable : BitVec 4
  data : BitVec 32
deriving DecidableEq, Repr, Inhabited

/-- An element of the response queue: the packet, and whether its answer is to be
made up. -/
structure Reponse where
  needsResponseSynthesis : Bool
  paquet : Paquet
deriving DecidableEq, Repr, Inhabited

/-- The registers of the path, and those of the slave. -/
structure Bus (σ : Type*) where
  readAccepted : Bool
  writeAccepted : Bool
  endBegintransfer : Bool
  holdWaitrequest : Bool
  waitrequestResetOverride : Bool
  readLatencyShiftReg : Bool
  avReaddataPre : BitVec 32
  rspFifo : ScFifo Reponse 1
  esclave : σ

namespace Bus

variable {ι σ : Type*}

/-- While `reset` is '1', but for the slave. -/
def powerOn (esclave : σ) : Bus σ :=
  { readAccepted := false
    writeAccepted := false
    endBegintransfer := false
    holdWaitrequest := true
    waitrequestResetOverride := true
    readLatencyShiftReg := false
    avReaddataPre := 0
    rspFifo := ScFifo.vide
    esclave := esclave }

/-! ## The router -/

/-- `av_address_aligned`. -/
def aligne (a : BitVec 16) : BitVec 16 := a.extractLsb' 2 14 ++ 0#2

/-- The channel of the access the master makes. -/
def channel (E : Esclave ι σ) (a : Av) : BitVec 6 := E.srcChannel (aligne a.address)

/-! ## The signals -/

section
variable (E : Esclave ι σ) (e : BusEntrees ι) (s : Bus σ)

def uavRead : Bool := e.av.read && !s.readAccepted

def uavWrite : Bool := e.av.write && !s.writeAccepted

def cpValid : Bool := (uavWrite e s || uavRead e s) && !s.holdWaitrequest

def paquet : Paquet :=
  { read := uavRead e s
    write := uavWrite e s
    posted := uavWrite e s
    address := aligne e.av.address
    byteenable := e.av.byteenable
    data := e.av.writedata }

def localRead : Bool := (channel E e.av).getLsbD E.indice && cpValid e s && (paquet e s).read

def localWrite : Bool := (channel E e.av).getLsbD E.indice && cpValid e s && (paquet e s).write

def nonpostedWrite : Bool := !(paquet e s).posted && localWrite E e s

/-- Of the translator of the slave. -/
def uavReaddatavalid : Bool := s.readLatencyShiftReg

/-- `source_valid` of the uncompressor, which passes single reads through. -/
def uncompressorValid : Bool :=
  s.rspFifo.outValid &&
    (uavReaddatavalid s || s.rspFifo.outPayload.needsResponseSynthesis)

def rpValid : Bool := uavReaddatavalid s || uncompressorValid s

/-- The response multiplexer is ready for who has something. -/
def rfSinkReady : Bool := uncompressorValid s && rpValid s

/-- The pins of the response queue. -/
def fifoEntrees (inPayload : Reponse) (inValid : Bool) : FifoEntrees Reponse :=
  { niveaux := []
    reset := false
    inPayload := inPayload
    inValid := inValid
    outReady := rfSinkReady s }

def readyForCommand : Bool := ScFifo.inReady (fifoEntrees s default false) s.rspFifo

/-- The pins of the slave. -/
def acces : Acces :=
  { read := readyForCommand s && localRead E e s
    write := readyForCommand s && localWrite E e s
    address := (paquet e s).address.extractLsb' 2 2
    writedata := (paquet e s).data
    byteenable := (paquet e s).byteenable }

def m0Waitrequest : Bool := E.waitrequest (acces E e s) s.esclave

def cpReady : Bool := !m0Waitrequest E e s && readyForCommand s

def rfSourceValid : Bool :=
  (localRead E e s || nonpostedWrite E e s) && readyForCommand s && cpReady E e s

def rfSourceData : Reponse :=
  { needsResponseSynthesis := nonpostedWrite E e s
    paquet := { paquet e s with data := 0 } }

/-- A signal of the five slaves, by channel. -/
def cinq {α : Type*} (ici : α) (voisin : ℕ → α) (i : ℕ) : α :=
  if i = E.indice then ici else voisin i

/-- `sink_ready` of the demultiplexer. -/
def cmdReady : Bool :=
  (List.range 5).any fun i =>
    (channel E e.av).getLsbD i && cinq E (cpReady E e s) (fun i => (e.voisin i).cpReady) i

def uavWaitrequest : Bool := s.holdWaitrequest || !cmdReady E e s

/-- `valid` of the response multiplexer: who has something has the grant. -/
def rspValid (i : ℕ) : Bool := cinq E (rpValid s) (fun i => (e.voisin i).rpValid) i

def readdatavalid : Bool := (List.range 5).any (rspValid E e s)

def rspPayload (i : ℕ) : BitVec 32 :=
  if rspValid E e s i then cinq E s.avReaddataPre (fun i => (e.voisin i).rpData) i else 0

def avReaddata : BitVec 32 :=
  rspPayload E e s 0 ||| rspPayload E e s 1 ||| rspPayload E e s 2 ||| rspPayload E e s 3 |||
    rspPayload E e s 4

def begintransfer : Bool := (uavWrite e s || uavRead e s) && !s.endBegintransfer

def avWaitrequest : Bool :=
  if e.av.read then !readdatavalid E e s
  else if e.av.write then (begintransfer e s || uavWaitrequest E e s) && !s.writeAccepted
  else true

/-- One rising edge of `clk`. -/
def front : Bus σ :=
  { readAccepted :=
      if s.readAccepted then !readdatavalid E e s
      else if avWaitrequest E e s then e.av.read && !uavWaitrequest E e s
      else false
    writeAccepted :=
      if !avWaitrequest E e s then false
      else if uavWrite e s && !uavWaitrequest E e s then true
      else s.writeAccepted
    endBegintransfer :=
      if begintransfer e s && uavWaitrequest E e s then true
      else if uavWaitrequest E e s then s.endBegintransfer
      else false
    holdWaitrequest := false
    waitrequestResetOverride := false
    readLatencyShiftReg :=
      (acces E e s).read && !m0Waitrequest E e s && !s.waitrequestResetOverride
    avReaddataPre := E.readdata (acces E e s) s.esclave
    rspFifo := ScFifo.front (fifoEntrees s (rfSourceData E e s) (rfSourceValid E e s)) s.rspFifo
    esclave := E.front e.externe (acces E e s) s.esclave }

end

/-- The registers at cycle `k` of a run that begins with the end of a reset. -/
def cycle (E : Esclave ι σ) (esclave : σ) (w : ℕ → BusEntrees ι) (k : ℕ) : Bus σ :=
  run (front E) (powerOn esclave) w k

/-! ## Accesses -/

/-- An access, and the data if it is a read. -/
abbrev Echange := Acces × Option (BitVec 32)

/-- The master asks for something. -/
def Demande (a : Av) : Prop := a.read = true ∨ a.write = true

/-- And of the slave. -/
def Vise (E : Esclave ι σ) (a : Av) : Prop := (channel E a).getLsbD E.indice = true

instance (a : Av) : Decidable (Demande a) := inferInstanceAs (Decidable (_ ∨ _))

instance (E : Esclave ι σ) (a : Av) : Decidable (Vise E a) := inferInstanceAs (Decidable (_ = _))

/-- The access as the master means it. -/
def demande (a : Av) : Acces :=
  { read := a.read
    write := a.write
    address := a.address.extractLsb' 2 2
    writedata := a.writedata
    byteenable := a.byteenable }

section
variable (E : Esclave ι σ) (e : BusEntrees ι) (s : Bus σ)

/-- What the edge does at the slave. -/
def transfert : Option Echange :=
  if ((acces E e s).read || (acces E e s).write) && !m0Waitrequest E e s then
    some ⟨acces E e s,
      if (acces E e s).read then some (E.readdata (acces E e s) s.esclave) else none⟩
  else none

/-- What the edge completes for the master, at this slave. -/
def acheve : Option Echange :=
  if Demande e.av ∧ Vise E e.av ∧ avWaitrequest E e s = false then
    some ⟨demande e.av, if e.av.read then some (avReaddata E e s) else none⟩
  else none

end

end Bus

end BarreFranche
