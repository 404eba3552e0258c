/-
# `ReseauBus` — the path of one access, in the whole

`Bus` follows the accesses of the data master to one slave, and takes two things
from outside: that the master keeps to the protocol (`Maitre`), and that no other
slave answers when it should not (`Voisins`).  Seen from a slave that the data master
has to itself, the interconnect of `Reseau` is such a path, register by register and
at every cycle (`Est.vue_front`), and the second is no assumption any more: the other
slaves, the one it shares with the instruction master included, answer its own reads
only (`projection_conforme`).

So what the modules on `Bus` prove of a slave holds of it among the others, and with
the instruction master at work.
-/
import BarreFranche.ReseauReponse
import BarreFranche.BusAnemometre
import BarreFranche.BusAvalon

namespace BarreFranche

open Synchrone

/-- The word of an access, as far as two bits of address go. -/
def AccesM0.court (a : AccesM0) : Acces :=
  { read := a.read
    write := a.write
    address := a.address.extractLsb' 2 2
    writedata := a.writedata
    byteenable := a.byteenable }

def Retour.court (r : Retour) : Reponse :=
  { needsResponseSynthesis := r.needsResponseSynthesis
    paquet := r.commande.paquet }

/-- The slave at an output of the demultiplexer of the data master. -/
def Port.branche : ℕ → Option Port
  | 0 => some .jtag
  | 1 => some .composant
  | 2 => some .debug
  | 3 => some .pio
  | 4 => some .ramS2
  | _ => none

theorem Port.branche_iff {i : ℕ} {p : Port} : branche i = some p ↔ p.indice .donnees = some i := by
  match i with
  | 0 | 1 | 2 | 3 | 4 => cases p <;> decide
  | i + 5 => cases p <;> simp [branche, indice]

namespace Reseau

variable {ι σ ι' σ' : Type*}

/-- The slave `E` of `Bus` stands at `p`: the data master has it to itself, it has no
latency, and the device answers there as `E` does in the part `get` of its registers,
with `ext` of the other pins. -/
structure Est (D : Appareils ι σ) (C : Carte) (p : Port) (E : Esclave ι' σ') (ext : ι → ι')
    (get : σ → σ') : Prop where
  seul : p ≠ .debug
  latence : p.latence = false
  indice : p.indice .donnees = some E.indice
  srcChannel : ∀ a, C.srcChannel .donnees a = E.srcChannel a
  waitrequest : ∀ a x, D.waitrequest p a x = E.waitrequest a.court (get x)
  readdata : ∀ a x, D.readdata p a x = E.readdata a.court (get x)
  apres : ∀ i acces x, get (D.front i acces x) = E.front (ext i) (acces p).court (get x)

section
variable (D : Appareils ι σ) (C : Carte) (p : Port) (ext : ι → ι') (get : σ → σ')
  (e : ReseauEntrees ι) (s : Reseau σ)

/-- The path of the data master to `p`. -/
def vue : Bus σ' :=
  { readAccepted := (s.maitre .donnees).readAccepted
    writeAccepted := (s.maitre .donnees).writeAccepted
    endBegintransfer := (s.maitre .donnees).endBegintransfer
    holdWaitrequest := (s.maitre .donnees).holdWaitrequest
    waitrequestResetOverride := (s.port p).waitrequestResetOverride
    readLatencyShiftReg := (s.port p).readLatencyShiftReg
    avReaddataPre := (s.port p).avReaddataPre
    rspFifo := (s.port p).rspFifo.map Retour.court
    esclave := get s.appareils }

/-- The other slaves, at the multiplexers of the data master. -/
def voisin (i : ℕ) : Voisin :=
  match Port.branche i with
  | some q => ⟨demuxReady D C e s .donnees q, rspValid s .donnees q, rpData D C e s q⟩
  | none => ⟨false, false, 0⟩

def vueEntrees : BusEntrees ι' :=
  { av := e.donnees
    voisin := voisin D C e s
    externe := ext e.externe }

end

section
variable {D : Appareils ι σ} {C : Carte} {p : Port} {E : Esclave ι' σ'} {ext : ι → ι'}
  {get : σ → σ'} {e : ReseauEntrees ι} {s : Reseau σ}
  (h : Est D C p E ext get)

include h

theorem Est.port : p = .jtag ∨ p = .composant ∨ p = .pio := by
  have h1 := h.seul
  have h2 := h.latence
  cases p <;> simp_all [Port.latence]

theorem Est.route_eq (a : Av) :
    route C .donnees p a = (Bus.channel E a).getLsbD E.indice := by
  rw [route, h.indice, Bus.channel, ← h.srcChannel]

theorem Est.commandee : Commandee D C e s .donnees p :=
  commandee_seule h.seul (by rw [h.indice]; rfl)

theorem Est.localRead_eq :
    localRead C e s p = Bus.localRead E (vueEntrees D C ext e s) (vue p get s) := by
  rw [localRead, (h.commandee (e := e) (s := s)).valid, (h.commandee (e := e) (s := s)).data,
    demuxValid, h.route_eq]
  rfl

theorem Est.localWrite_eq :
    localWrite C e s p = Bus.localWrite E (vueEntrees D C ext e s) (vue p get s) := by
  rw [localWrite, (h.commandee (e := e) (s := s)).valid, (h.commandee (e := e) (s := s)).data,
    demuxValid, h.route_eq]
  rfl

/-- The slave is shown the same. -/
theorem Est.acces_eq : (acces C e s p).court =
    Bus.acces E (vueEntrees D C ext e s) (vue p get s) := by
  rw [acces, AccesM0.court, h.localRead_eq, h.localWrite_eq,
    (h.commandee (e := e) (s := s)).data, Bus.aligne_extract _ le_rfl (by decide)]
  rfl

theorem Est.m0Waitrequest_eq : m0Waitrequest D C e s p =
    Bus.m0Waitrequest E (vueEntrees D C ext e s) (vue p get s) := by
  rw [m0Waitrequest, h.waitrequest, h.acces_eq]
  rfl

theorem Est.cpReady_eq : cpReady D C e s p =
    Bus.cpReady E (vueEntrees D C ext e s) (vue p get s) := by
  rw [cpReady, h.m0Waitrequest_eq]
  rfl

/-! ## The multiplexers -/

theorem Est.demuxReady_eq : demuxReady D C e s .donnees p = cpReady D C e s p := by
  rcases h.port with rfl | rfl | rfl <;> rfl

theorem Est.rspValid_eq : rspValid s .donnees p = rpValid s p := by
  rcases h.port with rfl | rfl | rfl <;> simp [rspValid, rspChannel, Port.indice]

/-- Nobody else is told. -/
theorem Est.rpReady_eq : rpReady s p = rpValid s p := by
  rw [rpReady, h.rspValid_eq]
  rcases h.port with rfl | rfl | rfl <;> simp [rspValid, Port.indice]

/-- A signal of the five slaves, if the one of `p` agrees. -/
theorem Est.cinq_eq {α : Type*} {ici : α} {f : Voisin → α} {g : Port → α} (hici : ici = g p)
    (hvoisin : ∀ i q, Port.branche i = some q → f (voisin D C e s i) = g q) {i : ℕ} {q : Port}
    (hi : Port.branche i = some q) :
    Bus.cinq E ici (fun i => f ((vueEntrees D C ext e s).voisin i)) i = g q := by
  rw [Bus.cinq]
  split_ifs with hind
  · have hp : Port.branche i = some p := Port.branche_iff.mpr (hind ▸ h.indice)
    rw [hici, Option.some_inj.mp (hp.symm.trans hi)]
  · exact hvoisin i q hi

omit h in
/-- The outputs of the demultiplexer, one by one. -/
theorem any_branches {f : ℕ → Bool} {g : Port → Bool}
    (hfg : ∀ i q, Port.branche i = some q → f i = g q) (hg : g .ramS1 = false) :
    Port.tous.any g = (List.range 5).any f := by
  show (g .jtag || (g .composant || (g .debug || (g .pio || (g .ramS2 || (g .ramS1 || false)))))) =
    (f 0 || (f 1 || (f 2 || (f 3 || (f 4 || false)))))
  rw [hfg 0 _ rfl, hfg 1 _ rfl, hfg 2 _ rfl, hfg 3 _ rfl, hfg 4 _ rfl, hg, Bool.false_or]

theorem Est.cmdReady_eq : cmdReady D C e s .donnees =
    Bus.cmdReady E (vueEntrees D C ext e s) (vue p get s) := by
  refine any_branches (fun i q hi => ?_) rfl
  rw [route, Port.branche_iff.mp hi, Bus.channel, h.srcChannel]
  refine congrArg _ (h.cinq_eq (f := Voisin.cpReady) ?_ (fun i q hi => by rw [voisin, hi]) hi)
  rw [h.demuxReady_eq, h.cpReady_eq]

theorem Est.rspValid_vue {i : ℕ} {q : Port} (hi : Port.branche i = some q) :
    Bus.rspValid E (vueEntrees D C ext e s) (vue p get s) i = rspValid s .donnees q :=
  h.cinq_eq (g := rspValid s .donnees) (f := Voisin.rpValid) h.rspValid_eq.symm
    (fun i q hi => by rw [voisin, hi]) hi

theorem Est.rspPayload_vue {i : ℕ} {q : Port} (hi : Port.branche i = some q) :
    Bus.rspPayload E (vueEntrees D C ext e s) (vue p get s) i =
      rspPayload D C e s .donnees q := by
  have hdata : Bus.cinq E (s.port p).avReaddataPre
      (fun i => ((vueEntrees D C ext e s).voisin i).rpData) i = rpData D C e s q :=
    h.cinq_eq (g := rpData D C e s) (f := Voisin.rpData) (by rw [rpData, h.latence]; rfl)
      (fun i q hi => by rw [voisin, hi]) hi
  rw [Bus.rspPayload, rspPayload, h.rspValid_vue hi]
  exact if_congr Iff.rfl hdata rfl

theorem Est.readdatavalid_eq : readdatavalid s .donnees =
    Bus.readdatavalid E (vueEntrees D C ext e s) (vue p get s) :=
  any_branches (fun _ _ hi => h.rspValid_vue hi) rfl

theorem Est.avReaddata_eq : avReaddata D C e s .donnees =
    Bus.avReaddata E (vueEntrees D C ext e s) (vue p get s) := by
  rw [avReaddata, Bus.avReaddata, h.rspPayload_vue (i := 0) rfl, h.rspPayload_vue (i := 1) rfl,
    h.rspPayload_vue (i := 2) rfl, h.rspPayload_vue (i := 3) rfl, h.rspPayload_vue (i := 4) rfl]

theorem Est.avWaitrequest_eq : avWaitrequest D C e s .donnees =
    Bus.avWaitrequest E (vueEntrees D C ext e s) (vue p get s) := by
  rw [Bus.avWaitrequest, ← h.readdatavalid_eq, Bus.uavWaitrequest, ← h.cmdReady_eq]
  rfl

/-! ## One edge -/

theorem Est.rfSourceValid_eq : rfSourceValid D C e s p =
    Bus.rfSourceValid E (vueEntrees D C ext e s) (vue p get s) := by
  rw [rfSourceValid, h.localRead_eq, nonpostedWrite, h.localWrite_eq, h.cpReady_eq,
    (h.commandee (e := e) (s := s)).data]
  rfl

theorem Est.rfSourceData_eq : (rfSourceData C e s p).court =
    Bus.rfSourceData E (vueEntrees D C ext e s) (vue p get s) := by
  rw [rfSourceData, nonpostedWrite, h.localWrite_eq, (h.commandee (e := e) (s := s)).data]
  rfl

theorem Est.fifo_front : ((front D C e s).port p).rspFifo.map Retour.court = ScFifo.front
    (Bus.fifoEntrees (vue p get s) (Bus.rfSourceData E (vueEntrees D C ext e s) (vue p get s))
      (Bus.rfSourceValid E (vueEntrees D C ext e s) (vue p get s))) (vue p get s).rspFifo := by
  have hready : rfSinkReady s p = Bus.rfSinkReady (vue p get s) := by
    rw [rfSinkReady, h.rpReady_eq]
    rfl
  rw [front_port, ← ScFifo.front_map, ← h.rfSourceData_eq, ← h.rfSourceValid_eq, fifoEntrees,
    hready]
  rfl

/-- **The same edge**, seen from the path. -/
theorem Est.vue_front : vue p get (front D C e s) =
    Bus.front E (vueEntrees D C ext e s) (vue p get s) := by
  have huav : uavWaitrequest D C e s .donnees =
      Bus.uavWaitrequest E (vueEntrees D C ext e s) (vue p get s) := by
    rw [uavWaitrequest, h.cmdReady_eq]
    rfl
  have hread : m0Readdata D C e s p = E.readdata
      (Bus.acces E (vueEntrees D C ext e s) (vue p get s)) (vue p get s).esclave := by
    rw [m0Readdata, h.readdata, h.acces_eq]
    rfl
  have happareils : get (front D C e s).appareils = E.front (ext e.externe)
      (Bus.acces E (vueEntrees D C ext e s) (vue p get s)) (vue p get s).esclave := by
    rw [← h.acces_eq]
    exact h.apres _ _ _
  rw [vue, Bus.front, Bus.mk.injEq, front_maitre, h.fifo_front, front_port, happareils, hread,
    h.m0Waitrequest_eq, h.avWaitrequest_eq, h.readdatavalid_eq, huav]
  refine ⟨rfl, rfl, rfl, rfl, rfl, ?_, rfl, rfl, rfl⟩
  rw [← h.acces_eq]
  rfl

end

/-! ## Runs -/

/-- The pins of the path, cycle by cycle. -/
def vues (D : Appareils ι σ) (C : Carte) (x : σ) (ext : ι → ι') (w : ℕ → ReseauEntrees ι) (k : ℕ) :
    BusEntrees ι' :=
  vueEntrees D C ext (w k) (cycle D C x w k)

section
variable {D : Appareils ι σ} {C : Carte} {p : Port} {E : Esclave ι' σ'} {ext : ι → ι'}
  {get : σ → σ'} {x : σ} {w : ℕ → ReseauEntrees ι}

theorem vue_powerOn : vue p get (powerOn x) = Bus.powerOn (get x) := by
  rw [vue, powerOn_maitre, powerOn_port]
  rfl

variable (h : Est D C p E ext get)

include h

theorem vue_cycle (k : ℕ) :
    vue p get (cycle D C x w k) = Bus.cycle E (get x) (vues D C x ext w) k := by
  have hrun : vue p get (cycle D C x w k) =
      run (Bus.front E) (vue p get (powerOn x)) (vues D C x ext w) k :=
    run_projection (fun _ => h.vue_front) k
  rwa [vue_powerOn] at hrun

variable (hm : Maitres D C x w)

include hm

theorem maitre_vues : Bus.Maitre E (get x) (vues D C x ext w) where
  un := fun k => hm.un k .donnees
  tient := by
    intro k hd hwait
    rw [← vue_cycle h, vues, ← h.avWaitrequest_eq] at hwait
    exact hm.tient k .donnees hd hwait

/-- The answers of the other slaves are to other reads. -/
theorem voisins_vues : Bus.Voisins E (get x) (vues D C x ext w) := by
  rintro k ⟨i, -, hi, hv⟩
  have hj := juste_cycle hm k
  cases hq : Port.branche i with
  | none => simp [vues, vueEntrees, voisin, hq] at hv
  | some q =>
      have hrsp : rspValid (cycle D C x w k) .donnees q = true := by
        simpa [vues, vueEntrees, voisin, hq] using hv
      have hr := hj.rspValid_iff.mp hrsp
      refine ⟨?_, fun hvise => hi ?_⟩
      · rw [← vue_cycle h]
        exact (hj.attendu .donnees).mpr ⟨q, hr⟩
      · have hroute : route C .donnees p ((w k).av .donnees) = true :=
          (h.route_eq _).trans hvise
        obtain rfl := route_unique (hj.repond_route hr) hroute
        exact Option.some_inj.mp ((Port.branche_iff.mp hq).symm.trans h.indice)

/-- **The path in the whole.**  In every run of the interconnect in which both masters
keep to the protocol, what happens at a slave that the data master has to itself is a
run of `Bus`, whose master keeps to the protocol and whose neighbours answer their own
reads only; so each access of the processor is done there once, in order. -/
theorem projection_conforme :
    (∀ k, vue p get (cycle D C x w k) = Bus.cycle E (get x) (vues D C x ext w) k) ∧
      Bus.Maitre E (get x) (vues D C x ext w) ∧ Bus.Voisins E (get x) (vues D C x ext w) ∧
      ∀ n, ∃ l, l.length ≤ 1 ∧ passe (Bus.fait E (get x) (vues D C x ext w)) 0 n =
        passe (Bus.rendu E (get x) (vues D C x ext w)) 0 n ++ l := by
  refine ⟨vue_cycle h, maitre_vues h hm, voisins_vues h hm, fun n => ?_⟩
  refine ⟨_, ?_, Bus.passe_conserve (maitre_vues h hm) (voisins_vues h hm) n⟩
  rw [Bus.enCours]
  split_ifs <;> simp

end

end Reseau

/-! ## The two systems -/

/-- The decoder of the instruction master; what neither span holds goes to the
memory. -/
def Carte.srcChannelInstructions (a : BitVec 16) : BitVec 6 :=
  if a.extractLsb' 11 5 = 0x11 then 0b00001 else 0b00010

theorem Carte.srcChannelInstructions_un (a : BitVec 16) : ∃ p i,
    Port.indice .instructions p = some i ∧ srcChannelInstructions a = BitVec.twoPow 6 i := by
  unfold srcChannelInstructions
  split_ifs
  · exact ⟨.debug, 0, rfl, rfl⟩
  · exact ⟨.ramS1, 1, rfl, rfl⟩

/-- The decoders of a system, from the one of its data master. -/
def Carte.de (srcChannel : BitVec 16 → BitVec 6)
    (unique : ∀ a, ∃ p i, Port.indice .donnees p = some i ∧ srcChannel a = BitVec.twoPow 6 i) :
    Carte :=
  { srcChannel := fun m =>
      match m with
      | .donnees => srcChannel
      | .instructions => srcChannelInstructions
    unique := fun m =>
      match m with
      | .donnees => unique
      | .instructions => srcChannelInstructions_un }

theorem AvalonSlave.srcChannel_un (a : BitVec 16) :
    ∃ p i, Port.indice .donnees p = some i ∧ srcChannel a = BitVec.twoPow 6 i := by
  unfold srcChannel
  split_ifs
  · exact ⟨.jtag, 0, rfl, rfl⟩
  · exact ⟨.pio, 3, rfl, rfl⟩
  · exact ⟨.composant, 1, rfl, rfl⟩
  · exact ⟨.debug, 2, rfl, rfl⟩
  · exact ⟨.ramS2, 4, rfl, rfl⟩

theorem AnemometreCopie.srcChannel_un (a : BitVec 16) :
    ∃ p i, Port.indice .donnees p = some i ∧ srcChannel a = BitVec.twoPow 6 i := by
  unfold srcChannel
  split_ifs
  · exact ⟨.jtag, 0, rfl, rfl⟩
  · exact ⟨.composant, 1, rfl, rfl⟩
  · exact ⟨.pio, 3, rfl, rfl⟩
  · exact ⟨.debug, 2, rfl, rfl⟩
  · exact ⟨.ramS2, 4, rfl, rfl⟩

/-- `TP/NIOS/IP`, with the component written in class. -/
def Carte.ip : Carte := .de AvalonSlave.srcChannel AvalonSlave.srcChannel_un

/-- `BE/SOPC_dev`, with the anemometer. -/
def Carte.sopc : Carte := .de AnemometreCopie.srcChannel AnemometreCopie.srcChannel_un

namespace Reseau

/-- A slave of `Bus` at `composant`, and nothing behind the other ports. -/
def seul {ι σ : Type*} (E : Esclave ι σ) : Appareils ι σ :=
  { waitrequest := fun p a x => decide (p = .composant) && E.waitrequest a.court x
    readdata := fun p a x => if p = .composant then E.readdata a.court x else 0
    front := fun i acces x => E.front i (acces .composant).court x }

theorem est_ip : Est (seul AvalonSlave.surBus) .ip .composant AvalonSlave.surBus id id where
  seul := by decide
  latence := rfl
  indice := rfl
  srcChannel := fun _ => rfl
  waitrequest := fun _ _ => rfl
  readdata := fun _ _ => rfl
  apres := fun _ _ _ => rfl

theorem est_sopc : Est (seul AnemometreCopie.fixe.surBus) .sopc .composant
    AnemometreCopie.fixe.surBus id id where
  seul := by decide
  latence := rfl
  indice := rfl
  srcChannel := fun _ => rfl
  waitrequest := fun _ _ => rfl
  readdata := fun _ _ => rfl
  apres := fun _ _ _ => rfl

/-- The component of the one system and the anemometer of the other, read by the data
master while the instruction master fetches. -/
theorem projection_conforme_temoin :
    Bus.Voisins AvalonSlave.surBus AvalonSlave.auDepart
      (vues (seul AvalonSlave.surBus) .ip AvalonSlave.auDepart id
        (toujours ⟨true, false, 0x900C, 15, 0⟩ 0x0100 ())) ∧
    Bus.Voisins AnemometreCopie.fixe.surBus (.powerOn AnemometreAvalon.powerOn)
      (vues (seul AnemometreCopie.fixe.surBus) .sopc (.powerOn AnemometreAvalon.powerOn) id
        (toujours ⟨true, false, 0x9024, 15, 0⟩ 0x0100 true)) :=
  ⟨(projection_conforme est_ip (maitres_toujours (by decide))).2.2.1,
    (projection_conforme est_sopc (maitres_toujours (by decide))).2.2.1⟩

end Reseau

end BarreFranche
