/-
# `BusFixe` — slaves that wait by count

A slave without `waitrequest` is given one by its translator, from the numbers it
was generated with.  `pio_0` and `AvalonAnemo_0` have the same: one wait cycle for a
read, none for a write, no set-up and no hold.  A counter of two bits tells the
cycles of an access (`wait_latency_counter`).

The counter is 1 in the second cycle of a read and 0 in any other (`Regle`), so a
slave of this kind sees each write in one cycle only and each read in two, and the
processor is kept for two cycles and three (`duree_fixe`).

The parallel port that drives the LEDs is the simplest: a byte that does one access
at a time, and that the LEDs show (`pio_conforme`).
-/
import BarreFranche.BusDuree
import BarreFranche.Synchrone.Historique

namespace BarreFranche

open Synchrone

/-- The pins of a slave without `waitrequest` during one cycle. -/
structure Broches where
  chipselect : Bool
  write : Bool
  address : BitVec 2
  writedata : BitVec 32
deriving DecidableEq, Repr

/-- A slave without `waitrequest` or latency, its other pins of type `ι`, and the
router. -/
structure EsclaveFixe (ι σ : Type*) where
  srcChannel : BitVec 16 → BitVec 6
  indice : ℕ
  place : indice < 5
  unique : ∀ a, (srcChannel a).getLsbD indice = true → srcChannel a = BitVec.twoPow 6 indice
  readdata : BitVec 2 → σ → BitVec 32
  front : ι → Broches → σ → σ

/-- The registers of the translator that make the wait, and those of the slave. -/
structure Traducteur (σ : Type*) where
  waitLatencyCounter : BitVec 2
  waitrequestResetOverride : Bool
  esclave : σ

namespace Traducteur

variable {ι σ : Type*}

/-- While `reset` is '1', but for the slave. -/
def powerOn (esclave : σ) : Traducteur σ := ⟨0, true, esclave⟩

section
variable (a : Acces) (t : Traducteur σ)

def avWaitrequestGenerated : Bool :=
  if a.write then decide (t.waitLatencyCounter ≠ 0) else decide (t.waitLatencyCounter ≠ 1)

def uavWaitrequest : Bool := t.avWaitrequestGenerated a || t.waitrequestResetOverride

/-- What the translator shows the slave. -/
def broches : Broches :=
  { chipselect := a.read || a.write
    write := a.write && decide (t.waitLatencyCounter ≤ 0)
    address := a.address
    writedata := a.writedata }

/-- One rising edge of `clk`. -/
def front (F : EsclaveFixe ι σ) (x : ι) : Traducteur σ :=
  { waitLatencyCounter :=
      if !t.uavWaitrequest a || t.waitrequestResetOverride then 0
      else if a.read || a.write then t.waitLatencyCounter + 1
      else 0
    waitrequestResetOverride := false
    esclave := F.front x (t.broches a) t.esclave }

end

end Traducteur

/-- The slave and its translator. -/
def EsclaveFixe.surBus {ι σ : Type*} (F : EsclaveFixe ι σ) : Esclave ι (Traducteur σ) :=
  { srcChannel := F.srcChannel
    indice := F.indice
    place := F.place
    unique := F.unique
    waitrequest := fun a t => t.uavWaitrequest a
    readdata := fun a t => F.readdata a.address t.esclave
    front := fun x a t => t.front a F x }

namespace Traducteur

/-- The counter, with the access `a` at the pins. -/
structure Regle {σ : Type*} (a : Acces) (t : Traducteur σ) : Prop where
  compte : t.waitLatencyCounter = 0 ∨ t.waitLatencyCounter = 1 ∧ a.read = true
  reset : t.waitrequestResetOverride = true → a.read = false ∧ a.write = false

/-- What a slave that holds `i`, with `b` at its pins, sees of what the edge does. -/
inductive Vu {ι σ : Type*} (F : EsclaveFixe ι σ) (b : Broches) (i : σ) :
    Option Bus.Echange → Prop
  | rien (hb : b.write = false) : Vu F b i none
  | lu (a : Acces) (hread : a.read = true) (hb : b.write = false) :
      Vu F b i (some ⟨a, some (F.readdata a.address i)⟩)
  | ecrit (a : Acces) (hread : a.read = false) (hwrite : a.write = true)
      (hb : b = ⟨true, true, a.address, a.writedata⟩) : Vu F b i (some ⟨a, none⟩)

section
variable {ι σ : Type*} {F : EsclaveFixe ι σ} {a a' : Acces} {t : Traducteur σ} {x : ι}

theorem regle_front (h : Regle a t) (hun : ¬ (a.read = true ∧ a.write = true))
    (htient : t.uavWaitrequest a = true → a.read = true → a' = a) : Regle a' (t.front a F x) := by
  refine ⟨?_, fun h => absurd h Bool.false_ne_true⟩
  cases hr : t.waitrequestResetOverride with
  | true => exact Or.inl (by simp [front, hr])
  | false =>
      cases hread : a.read with
      | false =>
          have h0 : t.waitLatencyCounter = 0 := h.compte.resolve_right fun h1 =>
            Bool.false_ne_true (hread.symm.trans h1.2)
          cases hwrite : a.write <;>
            exact Or.inl (by simp [front, uavWaitrequest, avWaitrequestGenerated, *])
      | true =>
          have hwrite : a.write = false := eq_false_of_ne_true fun hw => hun ⟨hread, hw⟩
          rcases h.compte with h0 | ⟨h1, -⟩
          · have ha : a' = a :=
              htient (by simp [uavWaitrequest, avWaitrequestGenerated, hwrite, h0]) hread
            refine Or.inr ⟨?_, ha ▸ hread⟩
            simp [front, uavWaitrequest, avWaitrequestGenerated, hwrite, h0, hr, hread]
          · exact Or.inl (by simp [front, uavWaitrequest, avWaitrequestGenerated, *])

/-- An edge leaves it at another value than 0 in the middle of an access only. -/
theorem front_waitLatencyCounter (h : (t.front a F x).waitLatencyCounter ≠ 0) :
    t.uavWaitrequest a = true ∧ (a.read = true ∨ a.write = true) := by
  constructor
  · cases hwait : t.uavWaitrequest a with
    | true => rfl
    | false => exact absurd (by simp [front, hwait]) h
  · cases hread : a.read with
    | true => exact Or.inl rfl
    | false =>
        cases hwrite : a.write with
        | true => exact Or.inr rfl
        | false => exact absurd (by simp [front, hread, hwrite]) h

end

end Traducteur

namespace Bus

/-- Such a slave at every address, that answers with the offset. -/
def echoFixe : EsclaveFixe Unit Unit :=
  { srcChannel := echo.srcChannel
    indice := echo.indice
    place := echo.place
    unique := echo.unique
    readdata := fun a _ => a.zeroExtend 32
    front := fun _ _ _ => () }

section
variable {ι σ : Type*} {F : EsclaveFixe ι σ} {s : σ} {w : ℕ → BusEntrees ι}
  (hm : Maitre F.surBus (.powerOn s) w) (hn : Voisins F.surBus (.powerOn s) w)

theorem traducteur_succ (k : ℕ) : (cycle F.surBus (.powerOn s) w (k + 1)).esclave =
    (cycle F.surBus (.powerOn s) w k).esclave.front (broches F.surBus (.powerOn s) w k) F
      (w k).externe := by
  rw [cycle_succ]
  rfl

theorem override_succ (k : ℕ) :
    (cycle F.surBus (.powerOn s) w (k + 1)).esclave.waitrequestResetOverride = false := by
  rw [traducteur_succ]
  rfl

/-- The pins of the slave, behind the translator. -/
def brochesFixe (F : EsclaveFixe ι σ) (s : σ) (w : ℕ → BusEntrees ι) (k : ℕ) : Broches :=
  (cycle F.surBus (.powerOn s) w k).esclave.broches (broches F.surBus (.powerOn s) w k)

/-- The registers of the slave. -/
def interne (F : EsclaveFixe ι σ) (s : σ) (w : ℕ → BusEntrees ι) (k : ℕ) : σ :=
  (cycle F.surBus (.powerOn s) w k).esclave.esclave

theorem interne_succ (k : ℕ) : interne F s w (k + 1) =
    F.front (w k).externe (brochesFixe F s w k) (interne F s w k) := by
  rw [interne, traducteur_succ]
  rfl

include hm hn

theorem regle_cycle (k : ℕ) : Traducteur.Regle (broches F.surBus (.powerOn s) w k)
    (cycle F.surBus (.powerOn s) w k).esclave := by
  induction k with
  | zero =>
      have h := coherent_cycle hm hn 0
      refine ⟨Or.inl rfl, fun _ => ⟨?_, ?_⟩⟩
      · exact eq_false_of_ne_true fun hr => Bool.false_ne_true (h.acces_read_iff.mp hr).2.2.symm
      · exact eq_false_of_ne_true fun hw => Bool.false_ne_true (h.acces_write_iff.mp hw).2.2.symm
  | succ k ih =>
      rw [traducteur_succ]
      refine Traducteur.regle_front ih (broches_un hm hn k) fun hwait hread => ?_
      exact broches_tient hm hn k (Or.inl hread) hwait

/-- A write is shown to the slave at the edge that does it, and at no other. -/
theorem vu_cycle (k : ℕ) : Traducteur.Vu F (brochesFixe F s w k) (interne F s w k)
    (fait F.surBus (.powerOn s) w k) := by
  have h := regle_cycle hm hn k
  have hun := broches_un hm hn k
  have hfait : fait F.surBus (.powerOn s) w k =
      if ((broches F.surBus (.powerOn s) w k).read || (broches F.surBus (.powerOn s) w k).write) &&
        !(cycle F.surBus (.powerOn s) w k).esclave.uavWaitrequest
          (broches F.surBus (.powerOn s) w k)
      then some ⟨broches F.surBus (.powerOn s) w k,
        if (broches F.surBus (.powerOn s) w k).read then
          some (F.readdata (broches F.surBus (.powerOn s) w k).address (interne F s w k)) else none⟩
      else none := rfl
  rw [hfait, brochesFixe]
  generalize broches F.surBus (.powerOn s) w k = a at h hun
  generalize (cycle F.surBus (.powerOn s) w k).esclave = t at h
  cases hwrite : a.write with
  | false =>
      have hb : (t.broches a).write = false := by simp [Traducteur.broches, hwrite]
      cases hread : a.read with
      | false => exact .rien hb
      | true =>
          cases hwait : t.uavWaitrequest a with
          | true => exact .rien hb
          | false => exact .lu a hread hb
  | true =>
      have hread : a.read = false := eq_false_of_ne_true fun hr => hun ⟨hr, hwrite⟩
      have h0 : t.waitLatencyCounter = 0 := h.compte.resolve_right fun h1 =>
        Bool.false_ne_true (hread.symm.trans h1.2)
      have hreset : t.waitrequestResetOverride = false :=
        eq_false_of_ne_true fun hr => Bool.false_ne_true ((h.reset hr).2.symm.trans hwrite)
      have hwait : t.uavWaitrequest a = false := by
        simp [Traducteur.uavWaitrequest, Traducteur.avWaitrequestGenerated, hwrite, h0, hreset]
      rw [hread, hwait]
      refine .ecrit a hread hwrite ?_
      simp [Traducteur.broches, hread, hwrite, h0]

/-- The counter is 0 when an access begins. -/
theorem compteur_debut {k : ℕ} (hdeb : Debut F.surBus (.powerOn s) w k) :
    (cycle F.surBus (.powerOn s) w (k + 1)).esclave.waitLatencyCounter = 0 := by
  by_contra hne
  rw [traducteur_succ] at hne
  obtain ⟨hwait, hdo⟩ := Traducteur.front_waitLatencyCounter hne
  have h := coherent_cycle hm hn k
  obtain ⟨hv, -, hd, hr, hw⟩ := h.presente (hm.un k) hdo
  have huav : uavWaitrequest F.surBus (w k) (cycle F.surBus (.powerOn s) w k) = true := by
    rw [h.uavWaitrequest_vise hv, m0Waitrequest]
    exact Bool.or_eq_true_iff.mpr (Or.inr hwait)
  have hav := h.avWaitrequest_attend (hn k) hr hw huav
  exact Bool.false_ne_true ((hdeb.2 hd).symm.trans hav)

/-- The last cycle of an access, if the first one is 0. -/
def derniereFixe (a : Av) : ℕ := if a.read = true then 2 else 1

/-- **Two cycles and three.**  An access to a slave without `waitrequest` takes two
cycles if it is a write and three if it is a read, at any moment of any run. -/
theorem duree_fixe {k i : ℕ} (hdeb : Debut F.surBus (.powerOn s) w k)
    (hv : Vise F.surBus (w (k + 1)).av) (hi : i ≤ derniereFixe (w (k + 1)).av) :
    (w (k + 1 + i)).av = (w (k + 1)).av ∧
      (avWaitrequest F.surBus (w (k + 1 + i)) (cycle F.surBus (.powerOn s) w (k + 1 + i)) = false ↔
        i = derniereFixe (w (k + 1)).av) := by
  have h0 := compteur_debut hm hn hdeb
  have hp := pret_debut hm hn hdeb
  have hbroches : broches F.surBus (.powerOn s) w (k + 1) = demande (w (k + 1)).av :=
    (coherent_cycle hm hn (k + 1)).acces_eq hv hp.hold hp.read hp.write
  rcases hdeb.1 with haread | hawrite
  · have hawrite : (w (k + 1)).av.write = false :=
      eq_false_of_ne_true fun hw => hm.un (k + 1) ⟨haread, hw⟩
    have hwait : ∀ j, j < 1 → F.surBus.waitrequest (demande (w (k + 1)).av)
        (cycle F.surBus (.powerOn s) w (k + 1 + j)).esclave = true := by
      intro j hj
      obtain rfl : j = 0 := Nat.lt_one_iff.mp hj
      show Traducteur.uavWaitrequest _ _ = true
      simp [Traducteur.uavWaitrequest, Traducteur.avWaitrequestGenerated, demande, hawrite, h0]
    have hgo : F.surBus.waitrequest (demande (w (k + 1)).av)
        (cycle F.surBus (.powerOn s) w (k + 1 + 1)).esclave = false := by
      have h1 : (cycle F.surBus (.powerOn s) w (k + 1 + 1)).esclave.waitLatencyCounter = 1 := by
        rw [traducteur_succ, hbroches]
        simp [Traducteur.front, Traducteur.uavWaitrequest, Traducteur.avWaitrequestGenerated,
          demande, haread, hawrite, h0, override_succ]
      show Traducteur.uavWaitrequest _ _ = false
      simp [Traducteur.uavWaitrequest, Traducteur.avWaitrequestGenerated, demande, hawrite, h1,
        override_succ]
    rw [derniereFixe, if_pos haread] at hi ⊢
    exact lecture_finie hm hn hdeb hv haread hwait hgo hi
  · have hgo : F.surBus.waitrequest (demande (w (k + 1)).av)
        (cycle F.surBus (.powerOn s) w (k + 1 + 0)).esclave = false := by
      show Traducteur.uavWaitrequest _ _ = false
      simp [Traducteur.uavWaitrequest, Traducteur.avWaitrequestGenerated, demande, hawrite, h0,
        override_succ]
    rw [derniereFixe, if_neg fun hr => hm.un (k + 1) ⟨hr, hawrite⟩] at hi ⊢
    exact ecriture_finie hm hn hdeb hv hawrite (fun j hj => absurd hj (Nat.not_lt_zero j)) hgo hi

omit hm hn in
/-- Reads at 0x1008, for ever: the second one begins at cycle 4, and ends at 6. -/
theorem duree_fixe_temoin :
    avWaitrequest echoFixe.surBus (toujours ⟨true, false, 0x1008, 15, 0⟩ () 6)
      (cycle echoFixe.surBus (.powerOn ()) (toujours ⟨true, false, 0x1008, 15, 0⟩ ()) 6) = false :=
  (duree_fixe (k := 3) (i := 2) (maitre_toujours (by decide)) (voisins_toujours _ _)
    ⟨Or.inl rfl, fun _ => by decide⟩ (by decide) (by decide)).2.mpr rfl

end

end Bus

/-! ## The parallel port -/

namespace Pio

/-- `nios_mcu_pio_0`; its one register is `data_out`. -/
def readdata (address : BitVec 2) (dataOut : BitVec 8) : BitVec 32 :=
  if address = 0 then dataOut.setWidth 32 else 0

/-- One rising edge of `clk`. -/
def front (b : Broches) (dataOut : BitVec 8) : BitVec 8 :=
  if (b.chipselect = true ∧ b.write = true) ∧ b.address = 0 then b.writedata.setWidth 8
  else dataOut

/-- The port at a place of the address map. -/
def fixe (srcChannel : BitVec 16 → BitVec 6) (indice : ℕ) (place : indice < 5)
    (unique : ∀ a, (srcChannel a).getLsbD indice = true → srcChannel a = BitVec.twoPow 6 indice) :
    EsclaveFixe Unit (BitVec 8) :=
  { srcChannel := srcChannel
    indice := indice
    place := place
    unique := unique
    readdata := readdata
    front := fun _ b dataOut => front b dataOut }

/-- One access: a byte at offset 0. -/
def execute (octet : BitVec 8) (a : Acces) : Option (BitVec 32) × BitVec 8 :=
  if a.read = true then (some (if a.address = 0 then octet.setWidth 32 else 0), octet)
  else if a.write = true ∧ a.address = 0 then (none, a.writedata.setWidth 8)
  else (none, octet)

section
variable {srcChannel : BitVec 16 → BitVec 6} {indice : ℕ} {place : indice < 5}
  {unique : ∀ a, (srcChannel a).getLsbD indice = true → srcChannel a = BitVec.twoPow 6 indice}

theorem pas {b : Broches} {dataOut : BitVec 8} {e : Option Bus.Echange}
    (h : Traducteur.Vu (fixe srcChannel indice place unique) b dataOut e) :
    Pas execute e dataOut (front b dataOut) := by
  cases h with
  | rien hb => simp [Pas, front, hb]
  | lu a hread hb => simp [Pas, fixe, front, readdata, execute, hread, hb]
  | ecrit a hread hwrite hb =>
      subst hb
      simp only [Pas, execute, front, hread, hwrite]
      split_ifs <;> simp_all

end

end Pio

namespace Bus

section
variable {srcChannel : BitVec 16 → BitVec 6} {indice : ℕ} {place : indice < 5}
  {unique : ∀ a, (srcChannel a).getLsbD indice = true → srcChannel a = BitVec.twoPow 6 indice}
  {s : BitVec 8} {w : ℕ → BusEntrees Unit}
  (hm : Maitre (Pio.fixe srcChannel indice place unique).surBus (.powerOn s) w)
  (hn : Voisins (Pio.fixe srcChannel indice place unique).surBus (.powerOn s) w)

include hm hn

/-- **The port behind the bus**, wherever it stands in the address map: the processor
reads at offset 0 the byte it last wrote there and 0 at the others, and the LEDs
show at every cycle what the accesses done so far have left. -/
theorem pio_conforme (n : ℕ) :
    Conforme Pio.execute s
        (passe (rendu (Pio.fixe srcChannel indice place unique).surBus (.powerOn s) w) 0 n) ∧
      interne (Pio.fixe srcChannel indice place unique) s w n = etatFinal Pio.execute s
        (passe (fait (Pio.fixe srcChannel indice place unique).surBus (.powerOn s) w) 0 n) := by
  have hfait : Conforme Pio.execute s
        (passe (fait (Pio.fixe srcChannel indice place unique).surBus (.powerOn s) w) 0 n) ∧
      interne (Pio.fixe srcChannel indice place unique) s w n = etatFinal Pio.execute s
        (passe (fait (Pio.fixe srcChannel indice place unique).surBus (.powerOn s) w) 0 n) :=
    conforme_passe (R := fun k octet => interne (Pio.fixe srcChannel indice place unique) s w k =
      octet) rfl (fun k _ h => ⟨_, h ▸ Pio.pas (vu_cycle hm hn k), interne_succ k⟩) n
  refine ⟨?_, hfait.2⟩
  have hc := hfait.1
  rw [passe_conserve hm hn n] at hc
  exact (conforme_append.mp hc).1

omit hm hn in
/-- Writes of 0xAA at every address, for ever. -/
theorem pio_conforme_temoin :
    interne (Pio.fixe (fun _ => 0b10000) 4 (by decide) fun _ _ => rfl) 0
        (toujours ⟨false, true, 0x9010, 15, 0xAA⟩ ()) 6 =
      etatFinal Pio.execute 0 (passe (fait (Pio.fixe (fun _ => 0b10000) 4 (by decide)
        fun _ _ => rfl).surBus (.powerOn 0) (toujours ⟨false, true, 0x9010, 15, 0xAA⟩ ())) 0 6) :=
  (pio_conforme (maitre_toujours (by decide)) (voisins_toujours _ _) 6).2

end

end Bus

end BarreFranche
