/-
# `BusReset` — the reset button of the system

In `nios_mcu.vhd` the pin `reset_reset_n` goes to `altera_reset_controller`, whose
`reset_out` resets the processor and the interconnect, and goes straight to `Reset`
of the demonstration slave.  The slave is thus reset at once and let go at once,
and the processor six cycles later: for six cycles after a press it goes on with
what it was doing.

    reprise_conforme   held for six cycles, the button clears the slave for good: what
                       the processor is given after the restart is what four
                       registers would give it that start from 0, but for the one
                       with byte enables, which keeps what it held
    effacement_iff     six is what it takes; let go earlier, a write on its way may
                       arrive in between and is still there after the restart

While `reset_out` is up the registers of the interconnect hold their reset values,
and a `hold_waitrequest` at '1' lets no access through: nothing has to be supposed
of the processor during its reset.
-/
import BarreFranche.ResetController
import BarreFranche.BusAvalon
import BarreFranche.AvalonReset

namespace BarreFranche

open Synchrone

namespace AvalonSlave

/-- The entity as a slave of the bus, with `Reset` at the edge for its other pin. -/
def surBusReset : Esclave Bool AvalonSlave :=
  { srcChannel := srcChannel
    indice := 1
    place := surBus.place
    unique := srcChannel_unique
    waitrequest := surBus.waitrequest
    readdata := surBus.readdata
    front := fun reset a s => etape { entrees a with reset := reset } s }

end AvalonSlave

/-- One cycle of the system: the levels of the button before the edge, up where it is
pressed, and the inputs of the bus, the button at the edge among them. -/
structure McuEntrees where
  niveaux : List Bool
  bus : BusEntrees Bool

/-- The registers. -/
structure Mcu where
  rstController : ResetController Generiques.nios
  bus : Bus AvalonSlave

namespace Mcu

open AvalonSlave ResetController

def powerOn (esclave : AvalonSlave) : Mcu :=
  ⟨ResetController.powerOn _, Bus.powerOn esclave⟩

/-- The inputs of the reset controller. -/
def bouton (e : McuEntrees) : ResetEntrees := ⟨e.niveaux, e.bus.externe, false⟩

section
variable (e : McuEntrees) (s : Mcu)

/-- `reset_out`. -/
def enReset : Prop := resetOut s.rstController = true

instance : Decidable (enReset s) := inferInstanceAs (Decidable (_ = _))

/-- The slave when the edge comes. -/
def esclaveAvant : AvalonSlave :=
  (e.niveaux ++ [e.bus.externe]).foldl asynchrone s.bus.esclave

/-- The interconnect when the edge comes. -/
def busAvant : Bus AvalonSlave :=
  if enReset s then Bus.powerOn (esclaveAvant e s)
  else { s.bus with esclave := esclaveAvant e s }

/-- One rising edge of `clk_clk`. -/
def front : Mcu :=
  let suite := Bus.front surBusReset e.bus (busAvant e s)
  { rstController := ResetController.front (bouton e) s.rstController
    bus := if enReset s then Bus.powerOn suite.esclave else suite }

end

/-- The registers at cycle `n` of a run from power-on. -/
def cycle (esclave : AvalonSlave) (w : ℕ → McuEntrees) (n : ℕ) : Mcu :=
  run front (powerOn esclave) w n

/-- What edge `k` completes for the processor at the slave. -/
def rendu (esclave : AvalonSlave) (w : ℕ → McuEntrees) (k : ℕ) : Option Bus.Echange :=
  Bus.acheve surBusReset (w k).bus (busAvant (w k) (cycle esclave w k))

/-- The inputs of the bus from cycle `f` on, the button apart. -/
def depuis (w : ℕ → McuEntrees) (f k : ℕ) : BusEntrees Unit :=
  ⟨(w (f + k)).bus.av, (w (f + k)).bus.voisin, ()⟩

/-- The slave with nothing left but the register with byte enables. -/
def efface (octets : BitVec 32) : AvalonSlave :=
  { sReg := 0
    sRegByteEnable := octets
    sReadCount := 0
    sReadCountPipelined := 0
    dRead := .zero }

/-- The same in the middle of a reset, whatever `dRead` shows. -/
structure Vide (octets : BitVec 32) (s : AvalonSlave) : Prop where
  sReg : s.sReg = 0
  sRegByteEnable : s.sRegByteEnable = octets
  sReadCount : s.sReadCount = 0
  sReadCountPipelined : s.sReadCountPipelined = 0

instance (octets : BitVec 32) (s : AvalonSlave) : Decidable (Vide octets s) :=
  decidable_of_iff (s.sReg = 0 ∧ s.sRegByteEnable = octets ∧ s.sReadCount = 0 ∧
      s.sReadCountPipelined = 0)
    ⟨fun h => ⟨h.1, h.2.1, h.2.2.1, h.2.2.2⟩, fun h => ⟨h.1, h.2, h.3, h.4⟩⟩

/-- The button is pressed at the `d` edges from `c` on, whatever it does between them,
and is not touched any more. -/
structure Appui (w : ℕ → McuEntrees) (c d : ℕ) : Prop where
  tenu : ∀ k, c ≤ k → k < c + d → (w k).bus.externe = true
  lache : ∀ k, c + d ≤ k → ¬ Actif (bouton (w k))

/-! ## One edge -/

section
variable {e : McuEntrees} {s : Mcu}

theorem front_esclave : (front e s).bus.esclave =
    etape { entrees (Bus.acces surBusReset e.bus (busAvant e s)) with reset := e.bus.externe }
      (esclaveAvant e s) := by
  have h : (busAvant e s).esclave = esclaveAvant e s := by
    rw [busAvant]
    split <;> rfl
  show (if enReset s then Bus.powerOn _ else _).esclave = _
  rw [apply_ite Bus.esclave, ← h]
  exact ite_self _

/-- No access gets through while the interconnect is in reset. -/
theorem acces_enReset (h : enReset s) :
    (Bus.acces surBusReset e.bus (busAvant e s)).read = false ∧
      (Bus.acces surBusReset e.bus (busAvant e s)).write = false := by
  rw [busAvant, if_pos h]
  constructor
  · simp [Bus.acces, Bus.localRead, Bus.cpValid, Bus.powerOn]
  · simp [Bus.acces, Bus.localWrite, Bus.cpValid, Bus.powerOn]

theorem esclaveAvant_lache (h : ¬ Actif (bouton e)) : esclaveAvant e s = s.bus.esclave := by
  refine foldl_asynchrone fun b hb => ?_
  cases b with
  | false => rfl
  | true => exact absurd hb h

theorem externe_lache (h : ¬ Actif (bouton e)) : e.bus.externe = false :=
  eq_false_of_ne_true fun hb => h (actif_front hb)

/-- An edge with the button pressed. -/
theorem front_tenu (h : e.bus.externe = true) :
    Vide s.bus.esclave.sRegByteEnable (front e s).bus.esclave := by
  rw [front_esclave, etape_reset h, esclaveAvant, foldl_sRegByteEnable]
  exact ⟨rfl, rfl, rfl, rfl⟩

/-- An edge in reset, the button released. -/
theorem front_enReset {o : BitVec 32} (hr : enReset s) (hb : ¬ Actif (bouton e))
    (hs : Vide o s.bus.esclave) : (front e s).bus = Bus.powerOn (efface o) := by
  obtain ⟨hread, hwrite⟩ := acces_enReset (e := e) hr
  have h : (front e s).bus.esclave = efface o := by
    rw [front_esclave, esclaveAvant_lache hb, externe_lache hb,
      etape_sansReset ⟨fun _ hb => absurd hb List.not_mem_nil, rfl⟩]
    simp [AvalonSlave.front, entrees, hread, hwrite, efface, hs.sReg, hs.sRegByteEnable,
      hs.sReadCount, hs.sReadCountPipelined]
  have hbus : (front e s).bus = Bus.powerOn (front e s).bus.esclave := by
    show (if enReset s then Bus.powerOn _ else _) =
      Bus.powerOn (Bus.esclave (if enReset s then Bus.powerOn _ else _))
    rw [if_pos hr]
    rfl
  rw [hbus, h]

/-- Out of reset, with the button released, the system is a bus. -/
theorem busAvant_lache (hr : ¬ enReset s) (hb : ¬ Actif (bouton e)) : busAvant e s = s.bus := by
  rw [busAvant, if_neg hr, esclaveAvant_lache hb]

theorem front_lache (hr : ¬ enReset s) (hb : ¬ Actif (bouton e)) :
    (front e s).bus = Bus.front surBus ⟨e.bus.av, e.bus.voisin, ()⟩ s.bus := by
  show (if enReset s then Bus.powerOn _ else _) = _
  rw [if_neg hr, busAvant_lache hr hb]
  have h := externe_lache hb
  obtain ⟨niveaux, av, voisin, externe⟩ := e
  obtain rfl : externe = false := h
  rfl

end

/-! ## A press -/

section
variable {s : AvalonSlave} {w : ℕ → McuEntrees} {c d : ℕ}

theorem cycle_succ (n : ℕ) : cycle s w (n + 1) = front (w n) (cycle s w n) := run_succ n

theorem rstController_cycle (n : ℕ) : (cycle s w n).rstController =
    ResetController.cycle Generiques.nios (fun k => bouton (w k)) n :=
  run_projection (f := Mcu.rstController) (fun _ => rfl) n

/-- The processor is in reset from six cycles after the beginning of a press until ten
after its end. -/
theorem enReset_iff (h : Appui w c d) (hd : 0 < d) {n : ℕ} (hn : c + 6 ≤ n) :
    enReset (cycle s w n) ↔ n < c + d + 10 := by
  have htraine : traine Generiques.nios = 7 := rfl
  rw [enReset, rstController_cycle]
  constructor
  · intro hr
    rcases resetOut_cause hr with hlt | ⟨k, hk, -, hnk⟩
    · omega
    · have hkd : k < c + d := Nat.lt_of_not_le fun hle => h.lache k hle hk
      have hdepth : Generiques.nios.syncDepth = 2 := rfl
      omega
  · intro hlt
    refine resetOut_tenu (x := c + 4) (y := c + d + 2 + 4) (fun u hu hud => ?_) (by omega)
      (by omega) ?_
    · obtain ⟨v, rfl⟩ : ∃ v, u = v + 4 := ⟨u - 4, by omega⟩
      refine haut_add.mpr ((resetOutPre_iff v).mpr ?_)
      rcases Nat.lt_or_ge v (c + d) with hv | hv
      · have ha : Actif (bouton (w v)) := actif_front (h.tenu v (by omega) hv)
        exact ⟨v, pose_actif ha, le_rfl, Nat.le_add_right _ _⟩
      · obtain ⟨m, hm⟩ : ∃ m, c + d = m + 1 := ⟨c + d - 1, by omega⟩
        refine ⟨m + 1, Or.inl (h.tenu m (by omega) (by omega)), by omega, ?_⟩
        show v ≤ m + 1 + 2
        omega
    · show n + 4 ≤ c + d + 2 + 4 + 4 + 3
      omega

/-- What the slave keeps. -/
theorem vide_cycle (h : Appui w c d) (hd : 6 ≤ d) {k : ℕ} (hk : k ≤ d + 8) :
    Vide (cycle s w c).bus.esclave.sRegByteEnable (cycle s w (c + 1 + k)).bus.esclave := by
  refine run_window (I := fun _ (t : Mcu) => Vide (cycle s w c).bus.esclave.sRegByteEnable
    t.bus.esclave) ?_ ?_ k hk
  · show Vide _ (cycle s w (c + 1)).bus.esclave
    rw [cycle_succ]
    exact front_tenu (h.tenu c le_rfl (by omega))
  · intro k hk (hv : Vide _ (cycle s w (c + 1 + k)).bus.esclave)
    show Vide _ (cycle s w (c + 1 + k + 1)).bus.esclave
    rw [cycle_succ]
    rcases Nat.lt_or_ge (c + 1 + k) (c + d) with hlt | hge
    · have ht := front_tenu (s := cycle s w (c + 1 + k)) (h.tenu _ (by omega) hlt)
      rwa [hv.sRegByteEnable] at ht
    · have hr := (enReset_iff (s := s) h (by omega) (by omega)).mpr (by omega : c + 1 + k < _)
      rw [front_enReset hr (h.lache _ hge) hv]
      exact ⟨rfl, rfl, rfl, rfl⟩

/-- Where the processor restarts. -/
theorem bus_reprise (h : Appui w c d) (hd : 6 ≤ d) : (cycle s w (c + d + 10)).bus =
    Bus.powerOn (efface (cycle s w c).bus.esclave.sRegByteEnable) := by
  have hv := vide_cycle (s := s) h hd (k := d + 8) le_rfl
  rw [show c + 1 + (d + 8) = c + d + 9 by omega] at hv
  rw [show c + d + 10 = c + d + 9 + 1 from rfl, cycle_succ]
  have hr := (enReset_iff (s := s) h (by omega) (by omega)).mpr (by omega : c + d + 9 < _)
  exact front_enReset hr (h.lache _ (by omega)) hv

/-- From there on the system is a bus since its reset. -/
theorem bus_suite (h : Appui w c d) (hd : 6 ≤ d) (k : ℕ) :
    (cycle s w (c + d + 10 + k)).bus =
      Bus.cycle surBus (efface (cycle s w c).bus.esclave.sRegByteEnable)
        (depuis w (c + d + 10)) k := by
  induction k with
  | zero => exact bus_reprise h hd
  | succ k ih =>
      have hr : ¬ enReset (cycle s w (c + d + 10 + k)) := fun hr => by
        have := (enReset_iff (s := s) h (by omega) (by omega)).mp hr
        omega
      rw [← Nat.add_assoc, cycle_succ, front_lache hr (h.lache _ (by omega)), ih,
        Bus.cycle_succ]
      rfl

theorem rendu_suite (h : Appui w c d) (hd : 6 ≤ d) (k : ℕ) : rendu s w (c + d + 10 + k) =
    Bus.rendu surBus (efface (cycle s w c).bus.esclave.sRegByteEnable)
      (depuis w (c + d + 10)) k := by
  have hr : ¬ enReset (cycle s w (c + d + 10 + k)) := fun hr => by
    have := (enReset_iff (s := s) h (by omega) (by omega)).mp hr
    omega
  rw [rendu, busAvant_lache hr (h.lache _ (by omega)), bus_suite h hd]
  rfl

/-- **A long press is a fresh start.**  Let the button be held for six cycles or more,
at any moment of any run, whatever was going on.  The processor is in reset until ten
cycles after, and what it is given from then on is what four registers would give it
that hold 0, but for the one with byte enables: that one holds what it did when the
button was pressed. -/
theorem reprise_conforme (h : Appui w c d) (hd : 6 ≤ d)
    (hm : Bus.Maitre surBus (efface (cycle s w c).bus.esclave.sRegByteEnable)
      (depuis w (c + d + 10)))
    (hn : Bus.Voisins surBus (efface (cycle s w c).bus.esclave.sRegByteEnable)
      (depuis w (c + d + 10))) (n : ℕ) :
    (∀ k, c + 6 ≤ k → (enReset (cycle s w k) ↔ k < c + d + 10)) ∧
      Conforme Fichier.execute ⟨0, (cycle s w c).bus.esclave.sRegByteEnable, 0, 0⟩
        (passe (rendu s w) (c + d + 10) n) := by
  refine ⟨fun k hk => enReset_iff h (by omega) hk, ?_⟩
  have hc := Bus.fait_conforme hm hn n
  rw [Bus.passe_conserve hm hn n] at hc
  rw [passe_depuis]
  have hr : (fun k => rendu s w (c + d + 10 + k)) = Bus.rendu surBus
      (efface (cycle s w c).bus.esclave.sRegByteEnable) (depuis w (c + d + 10)) :=
    funext (rendu_suite h hd)
  rw [hr]
  exact (conforme_append.mp hc).1

/-- A press of `d` cycles at cycle 8. -/
def presse (av : ℕ → Av) (d k : ℕ) : McuEntrees :=
  { niveaux := []
    bus := ⟨av k, fun _ => ⟨true, false, 0⟩, decide (8 ≤ k ∧ k < 8 + d)⟩ }

theorem appui_presse (av : ℕ → Av) (d : ℕ) : Appui (presse av d) 8 d where
  tenu := fun _ hk hkd => decide_eq_true ⟨hk, hkd⟩
  lache := by
    intro k hk hb
    have hb : true = decide (8 ≤ k ∧ k < 8 + d) := List.mem_singleton.mp hb
    have := of_decide_eq_true hb.symm
    omega

/-- Six cycles, under a processor that reads 0x9000 for ever. -/
def lecteur : ℕ → McuEntrees := presse (fun _ => ⟨true, false, 0x9000, 15, 0⟩) 6

theorem reprise_conforme_temoin : Appui lecteur 8 6 ∧ Conforme Fichier.execute
    ⟨0, (cycle auDepart lecteur 8).bus.esclave.sRegByteEnable, 0, 0⟩
    (passe (rendu auDepart lecteur) 24 5) :=
  ⟨appui_presse _ 6, (reprise_conforme (appui_presse _ 6) le_rfl (Bus.maitre_toujours (by decide))
    (Bus.voisins_toujours _ _) 5).2⟩

/-- A write to 0x9000 at cycle 13, the last one before the processor is reset. -/
def enVol (k : ℕ) : Av := ⟨false, decide (k = 13), 0x9000, 15, 1⟩

theorem sReg_enVol : ∀ d, d < 6 → 0 < d →
    (cycle auDepart (presse enVol d) (8 + d + 10)).bus.esclave.sReg = 1 := by
  decide +kernel

/-- **Six cycles are what it takes.**  A press of `d` cycles leaves the slave cleared
when the processor restarts, in every run, iff `d` is six or more: under a shorter one
a write may reach the slave after it has been let go. -/
theorem effacement_iff (d : ℕ) (hd : 0 < d) :
    (∀ (s : AvalonSlave) (w : ℕ → McuEntrees) (c : ℕ), Appui w c d →
      Vide (cycle s w c).bus.esclave.sRegByteEnable (cycle s w (c + d + 10)).bus.esclave) ↔
      6 ≤ d := by
  constructor
  · intro h
    refine Nat.le_of_not_lt fun hlt => ?_
    have hv := (h auDepart _ 8 (appui_presse enVol d)).sReg
    rw [sReg_enVol d hlt hd] at hv
    exact absurd hv (by decide)
  · intro h s w c happui
    rw [bus_reprise happui h]
    exact ⟨rfl, rfl, rfl, rfl⟩

theorem effacement_iff_un : ¬ ∀ (s : AvalonSlave) (w : ℕ → McuEntrees) (c : ℕ), Appui w c 1 →
    Vide (cycle s w c).bus.esclave.sRegByteEnable (cycle s w (c + 1 + 10)).bus.esclave := by
  rw [effacement_iff 1 Nat.one_pos]
  decide

end

end Mcu

end BarreFranche
