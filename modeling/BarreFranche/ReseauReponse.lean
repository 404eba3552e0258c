/-
# `ReseauReponse` — every answer to who asked

Two masters read at the same time, at different slaves or at the same one, and each
read of a slave is answered in the next cycle: to the master it was made for, with
the data of that slave, and no master is told that a read is over at any other time
(`reponses_justes`).

A read that is accepted is in two places at once, `read_accepted` of its master and
the response queue of the slave, where the ID of the master waits for the data.
`Juste` is the correspondence: masters that wait on the one side, queues that are
not empty on the other.
-/
import BarreFranche.Reseau

namespace BarreFranche

namespace Source

theorem id_inj {m m' : Source} (h : m.id = m'.id) : m = m' := by
  revert h
  cases m <;> cases m' <;> decide

/-- The sink of the master at `cmd_mux_002`. -/
def sink : Source → ℕ
  | .donnees => 0
  | .instructions => 1

theorem sink_lt (m : Source) : m.sink < 2 := by
  cases m <;> decide

theorem sink_inj {m m' : Source} (h : m.sink = m'.sink) : m = m' := by
  revert h
  cases m <;> cases m' <;> decide

end Source

namespace Port

theorem indice_inj {m : Source} {p p' : Port} {i : ℕ} (h : p.indice m = some i)
    (h' : p'.indice m = some i) : p = p' := by
  have hsome : (p.indice m).isSome = true := by rw [h]; rfl
  have heq : p.indice m = p'.indice m := h.trans h'.symm
  revert hsome heq
  cases m <;> cases p <;> cases p' <;> decide

/-- All slaves but one have one master. -/
theorem indice_seul {m m' : Source} {p : Port} (hp : p ≠ .debug)
    (h : (p.indice m).isSome = true) (h' : (p.indice m').isSome = true) : m = m' := by
  cases m <;> cases m' <;> cases p <;> simp_all [indice]

theorem mem_tous (p : Port) : p ∈ tous := by
  cases p <;> decide

end Port

namespace Reseau

open Synchrone

variable {ι σ : Type*}

/-! ## The address decoders -/

section
variable {C : Carte} {m : Source} {p p' : Port} {a : Av}

theorem route_iff : route C m p a = true ↔
    ∃ i, p.indice m = some i ∧ (C.srcChannel m (Bus.aligne a.address)).getLsbD i = true := by
  rw [route]
  cases p.indice m <;> simp

theorem route_indice (h : route C m p a = true) : (p.indice m).isSome = true := by
  obtain ⟨i, hi, -⟩ := route_iff.mp h
  rw [hi]
  rfl

theorem route_unique (h : route C m p a = true) (h' : route C m p' a = true) : p = p' := by
  obtain ⟨i, hi, hbit⟩ := route_iff.mp h
  obtain ⟨i', hi', hbit'⟩ := route_iff.mp h'
  obtain ⟨q, j, hj, hchannel⟩ := C.unique m (Bus.aligne a.address)
  rw [hchannel, BitVec.getLsbD_twoPow, Bool.and_eq_true, decide_eq_true_eq, decide_eq_true_eq]
    at hbit hbit'
  rw [← hbit.2] at hi
  rw [← hbit'.2] at hi'
  exact Port.indice_inj hi hi'

end

theorem aligne_aligne (a : BitVec 16) : Bus.aligne (Bus.aligne a) = Bus.aligne a := by
  rw [Bus.aligne, Bus.aligne_extract a le_rfl (by decide)]
  rfl

/-! ## The correspondence -/

/-- Slave `p` has the answer to a read of master `m`. -/
def Repond (s : Reseau σ) (p : Port) (m : Source) : Prop :=
  (s.port p).readLatencyShiftReg = true ∧
    (s.port p).rspFifo.outPayload.commande.srcId = m.id ∧
      (s.port p).rspFifo.outPayload.commande.paquet.read = true

/-- Between two edges, under the controls `a`. -/
structure Juste (C : Carte) (a : Source → Av) (s : Reseau σ) : Prop where
  lecture : ∀ m, (s.maitre m).readAccepted = true → (a m).read = true
  attendu : ∀ m, (s.maitre m).readAccepted = true ↔ ∃ p, Repond s p m
  origine : ∀ p, (s.port p).readLatencyShiftReg = true →
    ∃ m, Repond s p m ∧ route C m p (a m) = true
  fifo : ∀ p, ∃ r,
    ScFifo.Contient (if (s.port p).readLatencyShiftReg then [r] else []) (s.port p).rspFifo
  override : ∀ p m, (s.port p).waitrequestResetOverride = true →
    (s.maitre m).holdWaitrequest = true
  mux : s.mux.Sain

theorem juste_powerOn (C : Carte) (a : Source → Av) (x : σ) : Juste C a (powerOn x) where
  lecture := by simp
  attendu := by simp [Repond]
  origine := by simp
  fifo := fun p => ⟨default, by simpa using ScFifo.contient_vide⟩
  override := by simp
  mux := CmdMux.sain_powerOn

namespace Juste

variable {C : Carte} {a : Source → Av} {s : Reseau σ} {p p' : Port} {m m' : Source}

theorem repond_source (h : Repond s p m) (h' : Repond s p m') : m = m' :=
  Source.id_inj (h.2.1.symm.trans h'.2.1)

/-- It is the slave that the master has addressed. -/
theorem repond_route (h : Juste C a s) (hr : Repond s p m) : route C m p (a m) = true := by
  obtain ⟨m', hr', hroute⟩ := h.origine p hr.1
  rwa [repond_source hr hr']

theorem repond_port (h : Juste C a s) (hr : Repond s p m) (hr' : Repond s p' m) : p = p' :=
  route_unique (h.repond_route hr) (h.repond_route hr')

theorem outValid_eq (h : Juste C a s) (p : Port) :
    (s.port p).rspFifo.outValid = (s.port p).readLatencyShiftReg := by
  obtain ⟨r, hr⟩ := h.fifo p
  rw [Bool.eq_iff_iff, hr.outValid_iff]
  cases (s.port p).readLatencyShiftReg <;> simp

theorem uncompressorValid_eq (h : Juste C a s) (p : Port) :
    uncompressorValid s p = (s.port p).readLatencyShiftReg := by
  rw [uncompressorValid, uavReaddatavalid, h.outValid_eq]
  cases (s.port p).readLatencyShiftReg <;> simp

theorem rpValid_eq (h : Juste C a s) (p : Port) :
    rpValid s p = (s.port p).readLatencyShiftReg := by
  rw [rpValid, uavReaddatavalid, h.uncompressorValid_eq, Bool.or_self]

/-- The queue has room for one more. -/
theorem ready (h : Juste C a s) (p : Port) : readyForCommand s p = true := by
  obtain ⟨r, hr⟩ := h.fifo p
  rw [readyForCommand, hr.inReady_iff]
  refine Or.inl ?_
  cases (s.port p).readLatencyShiftReg <;> simp

theorem rspValid_debug (h : Repond s .debug m') : rspValid s m .debug = true ↔ m = m' := by
  obtain ⟨hs, hid, hread⟩ := h
  simp only [rspValid, rspChannel, rpValid, uavReaddatavalid, hs, hid, hread, Bool.true_or]
  cases m <;> cases m' <;> decide

/-- The response demultiplexers send an answer to who it is for. -/
theorem rspValid_iff (h : Juste C a s) : rspValid s m p = true ↔ Repond s p m := by
  by_cases hp : p = .debug
  · subst hp
    constructor
    · intro hv
      have hrp : rpValid s .debug = true := (Bool.and_eq_true_iff.mp hv).2
      obtain ⟨m', hr, -⟩ := h.origine .debug (h.rpValid_eq .debug ▸ hrp)
      exact (rspValid_debug hr).mp hv ▸ hr
    · exact fun hr => (rspValid_debug hr).mpr rfl
  · have hval : rspValid s m p = ((p.indice m).isSome && rpValid s p) := by
      cases p <;> first | exact absurd rfl hp | simp [rspValid, rspChannel]
    rw [hval, h.rpValid_eq, Bool.and_eq_true]
    constructor
    · rintro ⟨hm, hs⟩
      obtain ⟨m', hr, hroute⟩ := h.origine p hs
      rwa [Port.indice_seul hp hm (route_indice hroute)]
    · intro hr
      exact ⟨route_indice (h.repond_route hr), hr.1⟩

theorem rpReady_eq (h : Juste C a s) (p : Port) :
    rpReady s p = (s.port p).readLatencyShiftReg := by
  rw [Bool.eq_iff_iff, rpReady, Bool.or_eq_true, h.rspValid_iff, h.rspValid_iff]
  constructor
  · rintro (hr | hr) <;> exact hr.1
  · intro hs
    obtain ⟨m, hr, -⟩ := h.origine p hs
    cases m with
    | donnees => exact Or.inl hr
    | instructions => exact Or.inr hr

theorem rfSinkReady_eq (h : Juste C a s) (p : Port) :
    rfSinkReady s p = (s.port p).readLatencyShiftReg := by
  rw [rfSinkReady, h.uncompressorValid_eq, h.rpReady_eq, Bool.and_self]

/-- An accepted read is answered at once. -/
theorem readdatavalid_eq (h : Juste C a s) (m : Source) :
    readdatavalid s m = (s.maitre m).readAccepted := by
  rw [Bool.eq_iff_iff, readdatavalid, List.any_eq_true, h.attendu]
  constructor
  · rintro ⟨p, -, hv⟩
    exact ⟨p, h.rspValid_iff.mp hv⟩
  · rintro ⟨p, hr⟩
    exact ⟨p, p.mem_tous, h.rspValid_iff.mpr hr⟩

end Juste

/-! ## Commands -/

section
variable (D : Appareils ι σ) (C : Carte) (e : ReseauEntrees ι) (s : Reseau σ)

/-- The edge takes a packet of master `m` to slave `p`. -/
def Passe (m : Source) (p : Port) : Prop :=
  demuxValid C e s m p = true ∧ demuxReady D C e s m p = true

/-- The edge does a read at slave `p`. -/
def Lit (p : Port) : Prop := (acces C e s p).read = true ∧ m0Waitrequest D C e s p = false

/-- The edge does a read of master `m` at slave `p`. -/
def Sert (m : Source) (p : Port) : Prop := Lit D C e s p ∧ Passe D C e s m p

/-- Master `m` is told that its read of slave `p` is over. -/
def Recoit (m : Source) (p : Port) : Prop :=
  (e.av m).read = true ∧ route C m p (e.av m) = true ∧ avWaitrequest D C e s m = false

end

section
variable {D : Appareils ι σ} {C : Carte} {e : ReseauEntrees ι} {s : Reseau σ} {m m' : Source}
  {p : Port}

theorem demuxValid_iff : demuxValid C e s m p = true ↔
    route C m p (e.av m) = true ∧ (uavWrite e s m = true ∨ uavRead e s m = true) ∧
      (s.maitre m).holdWaitrequest = false := by
  simp only [demuxValid, cpValid, Bool.and_eq_true, Bool.or_eq_true, Bool.not_eq_true']

/-- What stands at an agent: nothing, or the packet of master `g`. -/
structure Commandee (D : Appareils ι σ) (C : Carte) (e : ReseauEntrees ι) (s : Reseau σ)
    (g : Source) (p : Port) : Prop where
  valid : agentValid C e s p = demuxValid C e s g p
  data : agentData C e s p = commande e s g
  passe : ∀ m, Passe D C e s m p ↔
    m = g ∧ demuxValid C e s g p = true ∧ cpReady D C e s p = true

theorem demuxValid_indice (h : demuxValid C e s m p = true) : (p.indice m).isSome = true :=
  route_indice (demuxValid_iff.mp h).1

/-- Before a slave that one master reaches there is only wire. -/
theorem commandee_seule (hp : p ≠ .debug) (hm : (p.indice m).isSome = true) :
    Commandee D C e s m p := by
  have hpasse : ∀ m', Passe D C e s m' p ↔
      m' = m ∧ demuxValid C e s m p = true ∧ cpReady D C e s p = true := by
    intro m'
    have hready : demuxReady D C e s m' p = cpReady D C e s p := by
      cases p <;> first | exact absurd rfl hp | rfl
    rw [Passe, hready]
    constructor
    · rintro ⟨hv, hr⟩
      obtain rfl := Port.indice_seul hp (demuxValid_indice hv) hm
      exact ⟨rfl, hv, hr⟩
    · rintro ⟨rfl, hvr⟩
      exact hvr
  refine ⟨?_, ?_, hpasse⟩
  all_goals
    cases m <;> cases p <;> first | rfl | exact absurd rfl hp | exact absurd hm (by decide)

theorem sink_valid {r : Bool} (m : Source) :
    ((muxEntrees C e s r).sink m.sink).valid = demuxValid C e s m .debug := by
  cases m <;> rfl

theorem passe_debug : Passe D C e s m .debug ↔
    CmdMux.Remet (muxEntrees C e s (cpReady D C e s .debug)) s.mux m.sink := by
  cases m <;> rfl

/-- Before `debug`, the multiplexer. -/
theorem commandee_debug (hmux : s.mux.Sain) :
    (agentValid C e s .debug = false ∧ ∀ m, ¬ Passe D C e s m .debug) ∨
      ∃ g, Commandee D C e s g .debug := by
  rcases hmux.grant with h0 | ⟨g, hg, hgrant, -⟩
  · obtain ⟨hv, hno⟩ := CmdMux.sans_grant (e := muxEntrees C e s (cpReady D C e s .debug)) h0
    exact Or.inl ⟨hv, fun m hp => hno m.sink m.sink_lt (passe_debug.mp hp)⟩
  · obtain ⟨m, rfl⟩ : ∃ m : Source, g = m.sink := by
      match g, hg with
      | 0, _ => exact ⟨.donnees, rfl⟩
      | 1, _ => exact ⟨.instructions, rfl⟩
    refine Or.inr ⟨m, ?_, ?_, fun m' => ?_⟩
    · rw [agentValid, CmdMux.srcValid_eq hgrant hg]
      cases m <;> rfl
    · rw [agentData, CmdMux.srcPayload_eq hgrant hg, ← Commande.lit_payload (commande e s m)]
      cases m <;> rfl
    · rw [passe_debug, CmdMux.remet_iff hgrant m'.sink_lt]
      constructor
      · rintro ⟨hsink, hvalid, hready⟩
        obtain rfl := Source.sink_inj hsink
        exact ⟨rfl, sink_valid m' ▸ hvalid, hready⟩
      · rintro ⟨rfl, hvalid, hready⟩
        exact ⟨rfl, (sink_valid m').symm ▸ hvalid, hready⟩

theorem commandee_cas (hmux : s.mux.Sain) (p : Port) :
    (agentValid C e s p = false ∧ ∀ m, ¬ Passe D C e s m p) ∨ ∃ g, Commandee D C e s g p := by
  by_cases hp : p = .debug
  · subst hp
    exact commandee_debug hmux
  · refine Or.inr ?_
    cases p with
    | debug => exact absurd rfl hp
    | ramS1 => exact ⟨.instructions, commandee_seule hp rfl⟩
    | jtag | composant | pio | ramS2 => exact ⟨.donnees, commandee_seule hp rfl⟩

/-! ## One edge -/

namespace Juste

variable (h : Juste C e.av s)

include h

theorem lit_iff : Lit D C e s p ↔ agentValid C e s p = true ∧
    (agentData C e s p).paquet.read = true ∧ cpReady D C e s p = true := by
  simp only [Lit, acces, cpReady, localRead, h.ready, Bool.true_and, Bool.and_true,
    Bool.and_eq_true, Bool.not_eq_true', and_assoc]

/-- A read of a master is one whose packet is taken. -/
theorem sert_iff : Sert D C e s m p ↔ Passe D C e s m p ∧ uavRead e s m = true := by
  rw [Sert, h.lit_iff]
  rcases commandee_cas (D := D) (e := e) (C := C) h.mux p with ⟨hv, hno⟩ | ⟨g, hg⟩
  · exact iff_of_false (fun hs => hno m hs.2) fun hs => hno m hs.1
  · rw [hg.valid, hg.data, hg.passe]
    constructor
    · rintro ⟨⟨-, hr, -⟩, rfl, hvr⟩
      exact ⟨⟨rfl, hvr⟩, hr⟩
    · rintro ⟨⟨rfl, hv, hc⟩, hr⟩
      exact ⟨⟨hv, hr, hc⟩, rfl, hv, hc⟩

/-- A read of a slave is one master's. -/
theorem lit_sert (hl : Lit D C e s p) : ∃ m, Sert D C e s m p := by
  obtain ⟨hv, -, hc⟩ := h.lit_iff.mp hl
  rcases commandee_cas (D := D) (e := e) (C := C) h.mux p with ⟨hno, -⟩ | ⟨g, hg⟩
  · exact absurd (hno.symm.trans hv) Bool.false_ne_true
  · exact ⟨g, hl, (hg.passe g).mpr ⟨rfl, hg.valid ▸ hv, hc⟩⟩

theorem sert_data (hs : Sert D C e s m p) : agentData C e s p = commande e s m := by
  rcases commandee_cas (D := D) (e := e) (C := C) h.mux p with ⟨-, hno⟩ | ⟨g, hg⟩
  · exact absurd hs.2 (hno m)
  · rw [hg.data, ((hg.passe m).mp hs.2).1]

theorem sert_unique (hs : Sert D C e s m p) (hs' : Sert D C e s m' p) : m' = m := by
  rcases commandee_cas (D := D) (e := e) (C := C) h.mux p with ⟨-, hno⟩ | ⟨g, hg⟩
  · exact absurd hs.2 (hno m)
  · rw [((hg.passe m).mp hs.2).1, ((hg.passe m').mp hs'.2).1]

theorem shift_iff : ((front D C e s).port p).readLatencyShiftReg = true ↔ Lit D C e s p := by
  simp only [front_port, Lit, Bool.and_eq_true, Bool.not_eq_true']
  constructor
  · exact fun hs => hs.1
  · intro hl
    refine ⟨hl, eq_false_of_ne_true fun ho => ?_⟩
    obtain ⟨m, hs⟩ := h.lit_sert hl
    have hhold := (demuxValid_iff.mp hs.2.1).2.2
    exact Bool.false_ne_true (hhold.symm.trans (h.override p m ho))

/-- Writes are posted, so only reads are queued. -/
theorem rfSourceValid_iff : rfSourceValid D C e s p = true ↔ Lit D C e s p := by
  rw [h.lit_iff, rfSourceValid, nonpostedWrite, localWrite, localRead, h.ready]
  rcases commandee_cas (D := D) (e := e) (C := C) h.mux p with ⟨hv, -⟩ | ⟨g, hg⟩
  · simp [hv]
  · rw [hg.data, commande]
    cases uavWrite e s g <;> simp [and_assoc]

/-- The queue holds the command while its answer is there. -/
theorem fifo_front (p : Port) : ScFifo.Contient
    (if ((front D C e s).port p).readLatencyShiftReg then [rfSourceData C e s p] else [])
    ((front D C e s).port p).rspFifo := by
  have hsource : rfSourceValid D C e s p = ((front D C e s).port p).readLatencyShiftReg := by
    rw [Bool.eq_iff_iff, h.rfSourceValid_iff, h.shift_iff]
  obtain ⟨r, hr⟩ := h.fifo p
  have hf := hr.front
    (e := fifoEntrees s p (rfSourceData C e s p) (rfSourceValid D C e s p))
  have hread : ScFifo.read (fifoEntrees s p (rfSourceData C e s p) (rfSourceValid D C e s p))
      (s.port p).rspFifo = (s.port p).readLatencyShiftReg := by
    rw [ScFifo.read, h.outValid_eq]
    show ((rfSinkReady s p || _) && _) = _
    rw [h.rfSinkReady_eq]
    cases (s.port p).readLatencyShiftReg <;> rfl
  have hwrite : ScFifo.write
      (fifoEntrees s p (rfSourceData C e s p) (rfSourceValid D C e s p)) (s.port p).rspFifo =
        ((front D C e s).port p).readLatencyShiftReg := by
    rw [← hsource]
    show (readyForCommand s p && rfSourceValid D C e s p) = _
    rw [h.ready, Bool.true_and]
  have hfifo : ((front D C e s).port p).rspFifo = ScFifo.front
      (fifoEntrees s p (rfSourceData C e s p) (rfSourceValid D C e s p)) (s.port p).rspFifo := by
    rw [front_port]
  rw [hread, hwrite] at hf
  rw [hfifo]
  cases hs : (s.port p).readLatencyShiftReg <;>
    cases hs' : ((front D C e s).port p).readLatencyShiftReg <;>
      rw [hs, hs'] at hf <;> exact hf

theorem repond_front : Repond (front D C e s) p m ↔ Sert D C e s m p := by
  have hout : Lit D C e s p →
      ((front D C e s).port p).rspFifo.outPayload = rfSourceData C e s p := by
    intro hl
    have hf := h.fifo_front (D := D) p
    rw [h.shift_iff.mpr hl, if_pos rfl] at hf
    exact (Option.some_inj.mp (hf.outPayload (List.cons_ne_nil _ _))).symm
  rw [Repond, h.shift_iff]
  constructor
  · rintro ⟨hl, hid, -⟩
    obtain ⟨g, hg⟩ := h.lit_sert hl
    rw [hout hl, rfSourceData, h.sert_data hg] at hid
    exact Source.id_inj hid ▸ hg
  · intro hs
    rw [hout hs.1, rfSourceData, h.sert_data hs]
    exact ⟨hs.1, rfl, (h.sert_iff.mp hs).2⟩

/-- A read that nobody has accepted waits. -/
theorem avWaitrequest_lecture (hread : (e.av m).read = true) :
    avWaitrequest D C e s m = !(s.maitre m).readAccepted := by
  unfold avWaitrequest
  rw [if_pos hread, h.readdatavalid_eq]

/-- What a master has accepted is what a slave does for it. -/
theorem accepte_front : ((front D C e s).maitre m).readAccepted = true ↔
    ∃ p, Sert D C e s m p := by
  have hsert : ∀ p, Sert D C e s m p ↔ (uavRead e s m = true ∧
      (s.maitre m).holdWaitrequest = false) ∧
        route C m p (e.av m) = true ∧ demuxReady D C e s m p = true := by
    intro p
    rw [h.sert_iff, Passe, demuxValid_iff]
    constructor
    · rintro ⟨⟨⟨hroute, -, hhold⟩, hready⟩, hr⟩
      exact ⟨⟨hr, hhold⟩, hroute, hready⟩
    · rintro ⟨⟨hr, hhold⟩, hroute, hready⟩
      exact ⟨⟨⟨hroute, Or.inr hr, hhold⟩, hready⟩, hr⟩
  simp only [hsert, exists_and_left]
  have hcmd : cmdReady D C e s m = true ↔
      ∃ p, route C m p (e.av m) = true ∧ demuxReady D C e s m p = true := by
    rw [cmdReady, List.any_eq_true]
    constructor
    · rintro ⟨p, -, hp⟩
      exact ⟨p, Bool.and_eq_true_iff.mp hp⟩
    · rintro ⟨p, hp⟩
      exact ⟨p, p.mem_tous, Bool.and_eq_true_iff.mpr hp⟩
  rw [← hcmd, front_maitre]
  simp only [h.readdatavalid_eq, uavRead, uavWaitrequest]
  cases hra : (s.maitre m).readAccepted with
  | true => simp
  | false =>
      cases hread : (e.av m).read with
      | false => simp
      | true =>
          rw [h.avWaitrequest_lecture hread, hra]
          simp

theorem suite {a' : Source → Av} (ht : ∀ m, (e.av m).read = true →
    avWaitrequest D C e s m = true → a' m = e.av m) : Juste C a' (front D C e s) := by
  have htient : ∀ m p, Sert D C e s m p → a' m = e.av m := by
    intro m p hs
    have hr := (h.sert_iff.mp hs).2
    rw [uavRead, Bool.and_eq_true] at hr
    exact ht m hr.1 ((h.avWaitrequest_lecture hr.1).trans hr.2)
  refine ⟨?_, ?_, ?_, ?_, ?_, h.mux.front⟩
  · intro m ha
    obtain ⟨p, hs⟩ := h.accepte_front.mp ha
    have hr := (h.sert_iff.mp hs).2
    rw [uavRead, Bool.and_eq_true] at hr
    rw [htient m p hs, hr.1]
  · intro m
    rw [h.accepte_front]
    exact exists_congr fun p => h.repond_front.symm
  · intro p hs
    obtain ⟨m, hm⟩ := h.lit_sert (h.shift_iff.mp hs)
    refine ⟨m, h.repond_front.mpr hm, ?_⟩
    rw [htient m p hm]
    exact (demuxValid_iff.mp hm.2.1).1
  · exact fun p => ⟨_, h.fifo_front p⟩
  · intro p m ho
    rw [front_port] at ho
    exact absurd ho Bool.false_ne_true

end Juste

end

/-! ## Runs -/

section
variable (D : Appareils ι σ) (C : Carte) (x : σ) (w : ℕ → ReseauEntrees ι)

/-- Masters that make one access at a time and keep to the protocol. -/
structure Maitres : Prop where
  un : ∀ k m, ¬ (((w k).av m).read = true ∧ ((w k).av m).write = true)
  tient : ∀ k m, Bus.Demande ((w k).av m) →
    avWaitrequest D C (w k) (cycle D C x w k) m = true → (w (k + 1)).av m = (w k).av m

end

/-- A read as its master means it. -/
def lecture (a : Av) : AccesM0 :=
  { read := true
    write := false
    address := Bus.aligne a.address
    writedata := a.writedata
    byteenable := a.byteenable }

section
variable {D : Appareils ι σ} {C : Carte} {x : σ} {w : ℕ → ReseauEntrees ι} {k : ℕ} {m : Source}
  {p : Port}

theorem cycle_succ (k : ℕ) : cycle D C x w (k + 1) = front D C (w k) (cycle D C x w k) :=
  run_succ k

variable (hm : Maitres D C x w)

include hm

theorem juste_cycle (k : ℕ) : Juste C (w k).av (cycle D C x w k) := by
  induction k with
  | zero => exact juste_powerOn _ _ _
  | succ k ih =>
      rw [cycle_succ]
      exact ih.suite fun m hr => hm.tient k m (Or.inl hr)

/-- A master is told of the end of a read when, and only when, the slave has the
answer. -/
theorem recoit_iff (k : ℕ) :
    Recoit D C (w k) (cycle D C x w k) m p ↔ Repond (cycle D C x w k) p m := by
  have h := juste_cycle hm k
  constructor
  · rintro ⟨hread, hroute, hwait⟩
    rw [h.avWaitrequest_lecture hread, Bool.not_eq_false'] at hwait
    obtain ⟨p', hr⟩ := (h.attendu m).mp hwait
    exact route_unique (h.repond_route hr) hroute ▸ hr
  · intro hr
    have ha := (h.attendu m).mpr ⟨p, hr⟩
    have hread := h.lecture m ha
    refine ⟨hread, h.repond_route hr, ?_⟩
    rw [h.avWaitrequest_lecture hread, ha]
    rfl

/-- It comes alone. -/
theorem avReaddata_eq (h : Repond (cycle D C x w k) p m) :
    avReaddata D C (w k) (cycle D C x w k) m = rpData D C (w k) (cycle D C x w k) p := by
  have hj := juste_cycle hm k
  have hici : rspPayload D C (w k) (cycle D C x w k) m p =
      rpData D C (w k) (cycle D C x w k) p := if_pos (hj.rspValid_iff.mpr h)
  have hnul : ∀ p', p' ≠ p → rspPayload D C (w k) (cycle D C x w k) m p' = 0 := fun p' hp =>
    if_neg fun hv => hp (hj.repond_port (hj.rspValid_iff.mp hv) h)
  have hind := route_indice (hj.repond_route h)
  cases m <;> cases p <;> first | exact absurd hind (by decide) | simp [avReaddata, hici, hnul]

/-- What the slave is shown. -/
theorem acces_sert (h : Sert D C (w k) (cycle D C x w k) m p) :
    acces C (w k) (cycle D C x w k) p = lecture ((w k).av m) := by
  have hj := juste_cycle hm k
  have hr := (hj.sert_iff.mp h).2
  have hread : ((w k).av m).read = true := (Bool.and_eq_true_iff.mp hr).1
  have hwrite : uavWrite (w k) (cycle D C x w k) m = false := by
    rw [uavWrite, eq_false_of_ne_true fun hw => hm.un k m ⟨hread, hw⟩, Bool.false_and]
  have hacces : (acces C (w k) (cycle D C x w k) p).read = true := h.1.1
  rw [lecture, ← hacces, acces, localWrite, hj.sert_data h, commande, hwrite, aligne_aligne]
  simp

/-- **Every answer to who asked.**  In every run since a reset in which both masters
keep to the protocol: each read that a slave does is the read of one master; a master
is told that a read of a slave is over one cycle after the slave has done it, and at no
other time; and what it is given is what that slave shows at the address it has asked
for, the memory in the same cycle and the others in the one before. -/
theorem reponses_justes (m : Source) (p : Port) :
    (∀ k, Lit D C (w k) (cycle D C x w k) p →
      ∃ m', ∀ m'', Sert D C (w k) (cycle D C x w k) m'' p ↔ m'' = m') ∧
    (∀ j, Recoit D C (w j) (cycle D C x w j) m p ↔
      ∃ k, j = k + 1 ∧ Sert D C (w k) (cycle D C x w k) m p) ∧
    (∀ k, Sert D C (w k) (cycle D C x w k) m p →
      acces C (w k) (cycle D C x w k) p = lecture ((w k).av m) ∧
        (w (k + 1)).av m = (w k).av m ∧
        avReaddata D C (w (k + 1)) (cycle D C x w (k + 1)) m =
          m0Readdata D C (w (if p.latence then k + 1 else k))
            (cycle D C x w (if p.latence then k + 1 else k)) p) := by
  have hrep : ∀ k, Repond (cycle D C x w (k + 1)) p m ↔
      Sert D C (w k) (cycle D C x w k) m p := by
    intro k
    rw [cycle_succ]
    exact (juste_cycle hm k).repond_front
  refine ⟨?_, ?_, ?_⟩
  · intro k hl
    obtain ⟨g, hg⟩ := (juste_cycle hm k).lit_sert hl
    refine ⟨g, fun m'' => ⟨(juste_cycle hm k).sert_unique hg, ?_⟩⟩
    rintro rfl
    exact hg
  · intro j
    rw [recoit_iff hm]
    cases j with
    | zero => exact iff_of_false (fun h => by simpa [cycle, run] using h.1) (by simp)
    | succ k =>
        rw [hrep]
        constructor
        · exact fun h => ⟨k, rfl, h⟩
        · rintro ⟨k', hk, h⟩
          exact Nat.succ.inj hk ▸ h
  · intro k hs
    have hr := ((juste_cycle hm k).sert_iff.mp hs).2
    rw [uavRead, Bool.and_eq_true] at hr
    have hav := ((juste_cycle hm k).avWaitrequest_lecture (D := D) hr.1).trans hr.2
    refine ⟨acces_sert hm hs, hm.tient k m (Or.inl hr.1) hav, ?_⟩
    rw [avReaddata_eq hm ((hrep k).mpr hs), rpData]
    cases p.latence with
    | true => rfl
    | false =>
        rw [cycle_succ, front_port]
        rfl

end

/-- Slaves that never wait, and answer with the address. -/
def echo : Appareils Unit Unit :=
  { waitrequest := fun _ _ _ => false
    readdata := fun _ a _ => a.address.zeroExtend 32
    front := fun _ _ _ => () }

/-- Everything at `debug`. -/
def carteDebug : Carte :=
  { srcChannel := fun m _ =>
      match m with
      | .donnees => 0b00100
      | .instructions => 0b00001
    unique := fun m _ =>
      match m with
      | .donnees => ⟨.debug, 2, rfl, rfl⟩
      | .instructions => ⟨.debug, 0, rfl, rfl⟩ }

/-- Masters that show the same controls all the time. -/
def toujours {ι : Type*} (a : Av) (b : BitVec 16) (i : ι) : ℕ → ReseauEntrees ι :=
  fun _ => ⟨a, true, b, i⟩

theorem maitres_toujours {D : Appareils ι σ} {C : Carte} {x : σ} {a : Av} {b : BitVec 16} {i : ι}
    (ha : ¬ (a.read = true ∧ a.write = true)) : Maitres D C x (toujours a b i) where
  un := fun _ m => by
    cases m with
    | donnees => exact ha
    | instructions => exact fun h => Bool.false_ne_true h.2
  tient := fun _ _ _ _ => rfl

/-- The instruction master has its answer in cycle 4, after the data master. -/
theorem reponses_justes_temoin : ∃ k, 4 = k + 1 ∧
    Sert echo carteDebug (toujours ⟨true, false, 0x8804, 15, 0⟩ 0x8808 () k)
      (cycle echo carteDebug () (toujours ⟨true, false, 0x8804, 15, 0⟩ 0x8808 ()) k)
        .instructions .debug :=
  ((reponses_justes (maitres_toujours (by decide)) .instructions .debug).2.1 4).mp
    ⟨rfl, rfl, by decide +kernel⟩

end Reseau

end BarreFranche
