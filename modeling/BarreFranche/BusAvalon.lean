/-
# `BusAvalon` — the demonstration slave behind the bus

`AvalonSlave` counts its reads in registers, takes two cycles over one of them, and
knows nothing of transactions: what it counts and what it shows depends on what
stands at its pins at every edge.  Behind the bus none of this can be told.  For the
processor it is four registers that do one access at a time (`Fichier`): the reads
of offset 8 are counted after the answer, those of offset 12 before it, once each
(`registres_atomiques`).

In the middle of a read of offset 12 the slave has counted and not yet answered
(`EnPlein`); `Image` carries this over the edges.
-/
import BarreFranche.AvalonSlave
import BarreFranche.BusDuree
import BarreFranche.Synchrone.Historique

namespace BarreFranche

open Synchrone

namespace AvalonSlave

/-- The pins of the entity. -/
def entrees (a : Acces) : AvalonEntrees :=
  { niveaux := []
    reset := false
    address := a.address
    write := a.write
    writeData := a.writedata
    read := a.read
    byteEnable := a.byteenable }

/-- The address decoder of the router; what no span holds goes to channel 4. -/
def srcChannel (a : BitVec 16) : BitVec 6 :=
  if a.extractLsb' 3 13 = 0x1204 then 0b00001
  else if a.extractLsb' 4 12 = 0x901 then 0b01000
  else if a.extractLsb' 4 12 = 0x900 then 0b00010
  else if a.extractLsb' 11 5 = 0x11 then 0b00100
  else 0b10000

theorem srcChannel_unique (a : BitVec 16) (h : (srcChannel a).getLsbD 1 = true) :
    srcChannel a = BitVec.twoPow 6 1 := by
  unfold srcChannel at *
  split_ifs at * with h1 h2 h3 h4
  · exact absurd h (by decide)
  · exact absurd h (by decide)
  · rfl
  · exact absurd h (by decide)
  · exact absurd h (by decide)

/-- The entity as a slave of the bus. -/
def surBus : Esclave Unit AvalonSlave :=
  { srcChannel := srcChannel
    indice := 1
    place := by decide
    unique := srcChannel_unique
    waitrequest := fun a s => decide (waitRequest (entrees a) s = .one)
    readdata := fun a s => readData (entrees a) s
    front := fun _ a s => etape (entrees a) s }

/-- Its place: 16 bytes at 0x9000. -/
theorem vise_iff (a : Av) :
    Bus.Vise surBus a ↔ 0x9000 ≤ a.address.toNat ∧ a.address.toNat < 0x9010 := by
  have hbits : ∀ x : BitVec 16, (srcChannel x).getLsbD 1 = true ↔
      x.extractLsb' 4 12 = 0x900 := by
    intro x
    have h902 : x.extractLsb' 3 13 = 0x1204 → x.extractLsb' 4 12 = 0x902 := by
      intro h
      have := congrArg BitVec.toNat h
      refine BitVec.eq_of_toNat_eq ?_
      simp [Nat.shiftRight_eq_div_pow] at this ⊢
      omega
    unfold srcChannel
    split_ifs with h1 h2 h3 h4
    · simp [h902 h1]
    · simp [h2]
    · simp [h3]
    · exact iff_of_false (by decide) h3
    · exact iff_of_false (by decide) h3
  have hlt := a.address.isLt
  show (srcChannel (Bus.aligne a.address)).getLsbD 1 = true ↔ _
  rw [hbits, Bus.aligne_extract _ (by decide) (by decide)]
  constructor
  · intro h
    have := congrArg BitVec.toNat h
    simp [Nat.shiftRight_eq_div_pow] at this
    omega
  · intro h
    refine BitVec.eq_of_toNat_eq ?_
    simp [Nat.shiftRight_eq_div_pow]
    omega

end AvalonSlave

/-! ## The registers as the processor sees them -/

/-- The four registers. -/
structure Fichier where
  reg : BitVec 32
  octets : BitVec 32
  lectures : BitVec 32
  lecturesPipeline : BitVec 32
deriving DecidableEq, Repr

namespace Fichier

def lit (f : Fichier) (address : BitVec 2) : BitVec 32 × Fichier :=
  if address = 0 then (f.reg, f)
  else if address = 1 then (f.octets, f)
  else if address = 2 then (f.lectures, { f with lectures := f.lectures + 1 })
  else (f.lecturesPipeline + 1, { f with lecturesPipeline := f.lecturesPipeline + 1 })

def ecrit (f : Fichier) (a : Acces) : Fichier :=
  if a.address = 0 then { f with reg := a.writedata }
  else if a.address = 1 then
    { f with octets := AvalonSlave.ecritOctets a.byteenable a.writedata f.octets }
  else f

/-- One access. -/
def execute (f : Fichier) (a : Acces) : Option (BitVec 32) × Fichier :=
  if a.read = true then (some (f.lit a.address).1, (f.lit a.address).2)
  else if a.write = true then (none, f.ecrit a)
  else (none, f)

/-- The contents of the slave. -/
def de (s : AvalonSlave) : Fichier :=
  ⟨s.sReg, s.sRegByteEnable, s.sReadCount, s.sReadCountPipelined⟩

end Fichier

namespace AvalonSlave

/-- In the middle of a read: `Read` was '1' one edge ago too. -/
def EnPlein (a : Acces) (s : AvalonSlave) : Prop := a.read = true ∧ s.dRead ≠ .zero

instance (a : Acces) (s : AvalonSlave) : Decidable (EnPlein a s) :=
  inferInstanceAs (Decidable (_ ∧ _))

/-- The slave holds `f`, with the access `a` at its pins. -/
structure Image (f : Fichier) (a : Acces) (s : AvalonSlave) : Prop where
  reg : s.sReg = f.reg
  octets : s.sRegByteEnable = f.octets
  lectures : s.sReadCount = f.lectures
  lecturesPipeline : s.sReadCountPipelined =
    if EnPlein a s then f.lecturesPipeline + 1 else f.lecturesPipeline
  plein : EnPlein a s → a.address = 3

/-- What the edge does. -/
def fait (a : Acces) (s : AvalonSlave) : Option Bus.Echange :=
  if (a.read || a.write) && !surBus.waitrequest a s then
    some ⟨a, if a.read then some (surBus.readdata a s) else none⟩
  else none

section
variable {f : Fichier} {a a' : Acces} {s : AvalonSlave}

theorem surBus_waitrequest : surBus.waitrequest a s = true ↔
    a.read = true ∧ a.address = 3 ∧ s.dRead = .zero := by
  rw [surBus, decide_eq_true_eq, waitRequest_eq_one]
  rfl

theorem surBus_front : surBus.front () a s = front (entrees a) s :=
  etape_sansReset ⟨fun _ hb => absurd hb List.not_mem_nil, rfl⟩

theorem front_sReg : (surBus.front () a s).sReg =
    if a.write = true ∧ a.address = 0 then a.writedata else s.sReg := by
  rw [surBus_front]
  rfl

theorem front_sRegByteEnable : (surBus.front () a s).sRegByteEnable =
    if a.write = true ∧ a.address = 1 then
      ecritOctets a.byteenable a.writedata s.sRegByteEnable
    else s.sRegByteEnable := by
  rw [surBus_front]
  rfl

theorem front_sReadCount : (surBus.front () a s).sReadCount =
    if a.read = true ∧ a.address = 2 then s.sReadCount + 1 else s.sReadCount := by
  rw [surBus_front]
  rfl

theorem front_sReadCountPipelined : (surBus.front () a s).sReadCountPipelined =
    if a.read = true ∧ a.address = 3 ∧ s.dRead = .zero then s.sReadCountPipelined + 1
    else s.sReadCountPipelined := by
  rw [surBus_front]
  rfl

theorem front_dRead : (surBus.front () a s).dRead = .ofBool a.read := rfl

/-- An edge without a read. -/
theorem Image.ecrit (h : Image f a s) (hread : a.read = false) :
    ∃ f', Pas Fichier.execute (fait a s) f f' ∧ Image f' a' (surBus.front () a s) := by
  have hplein : ¬ EnPlein a' (surBus.front () a s) := by
    rintro ⟨-, hd⟩
    rw [front_dRead, hread] at hd
    exact hd rfl
  have hpipe := h.lecturesPipeline
  rw [if_neg fun hp => Bool.false_ne_true (hread.symm.trans hp.1)] at hpipe
  have hwait : surBus.waitrequest a s = false := by
    refine eq_false_of_ne_true fun hw => ?_
    exact Bool.false_ne_true (hread.symm.trans (surBus_waitrequest.mp hw).1)
  have hfait : fait a s = if a.write then some ⟨a, none⟩ else none := by
    rw [fait, hwait, hread]
    cases a.write <;> rfl
  cases hw : a.write with
  | false =>
      refine ⟨f, by rw [hfait, hw]; rfl, ?_⟩
      constructor
      · simp [front_sReg, hw, h.reg]
      · simp [front_sRegByteEnable, hw, h.octets]
      · simp [front_sReadCount, hread, h.lectures]
      · simp [front_sReadCountPipelined, hread, hpipe, hplein]
      · exact fun hp => absurd hp hplein
  | true =>
      refine ⟨f.ecrit a, ?_, ?_⟩
      · rw [hfait, hw]
        simp [Pas, Fichier.execute, hread, hw]
      · constructor
        · rw [front_sReg, Fichier.ecrit, hw, h.reg]
          split_ifs <;> simp_all
        · rw [front_sRegByteEnable, Fichier.ecrit, hw, h.octets]
          split_ifs <;> simp_all
        · rw [front_sReadCount, Fichier.ecrit, hread, h.lectures]
          split_ifs <;> simp_all
        · rw [front_sReadCountPipelined, Fichier.ecrit, hread, hpipe, if_neg hplein]
          split_ifs <;> simp_all
        · exact fun hp => absurd hp hplein

/-- The first edge of a read of offset 12. -/
theorem Image.attend (h : Image f a s) (hread : a.read = true) (hw : a.write = false)
    (h3 : a.address = 3) (hd : s.dRead = .zero) :
    Pas Fichier.execute (fait a s) f f ∧ Image f a (surBus.front () a s) := by
  have hwait : surBus.waitrequest a s = true := surBus_waitrequest.mpr ⟨hread, h3, hd⟩
  have hplein : EnPlein a (surBus.front () a s) := by
    refine ⟨hread, ?_⟩
    rw [front_dRead, hread]
    decide
  have hpipe := h.lecturesPipeline
  rw [if_neg fun hp => hp.2 hd] at hpipe
  refine ⟨by rw [fait, hwait, Bool.not_true, Bool.and_false]; rfl, ?_⟩
  constructor
  · simp [front_sReg, hw, h.reg]
  · simp [front_sRegByteEnable, hw, h.octets]
  · simp [front_sReadCount, h3, h.lectures]
  · simp [front_sReadCountPipelined, hread, h3, hd, hpipe, hplein]
  · exact fun _ => h3

theorem quatre (x : BitVec 2) : x = 0 ∨ x = 1 ∨ x = 2 ∨ x = 3 := by
  revert x
  decide

/-- A read that does not wait is at its second edge iff it is one of offset 12. -/
theorem Image.dRead_iff (h : Image f a s) (hread : a.read = true)
    (hgo : surBus.waitrequest a s = false) : s.dRead = .zero ↔ a.address ≠ 3 := by
  constructor
  · intro hd h3
    have hwait := surBus_waitrequest.mpr ⟨hread, h3, hd⟩
    exact Bool.false_ne_true (hgo.symm.trans hwait)
  · exact fun h3 => by_contra fun hd => h3 (h.plein ⟨hread, hd⟩)

/-- The last edge of a read. -/
theorem Image.lit (h : Image f a s) (hread : a.read = true) (hw : a.write = false)
    (hgo : surBus.waitrequest a s = false) (ha' : a'.read = false) :
    ∃ f', Pas Fichier.execute (fait a s) f f' ∧ Image f' a' (surBus.front () a s) := by
  have hplein : ¬ EnPlein a' (surBus.front () a s) := fun hp =>
    Bool.false_ne_true (ha'.symm.trans hp.1)
  have hexec : Fichier.execute f a = (some (f.lit a.address).1, (f.lit a.address).2) := by
    rw [Fichier.execute, if_pos hread]
  have hdr := h.dRead_iff hread hgo
  have hpipe := h.lecturesPipeline
  have hp : EnPlein a s ↔ ¬ a.address ≠ 3 := (and_iff_right hread).trans (not_congr hdr)
  rw [if_congr hp rfl rfl] at hpipe
  have hlu : surBus.readdata a s = (f.lit a.address).1 := by
    show readData (entrees a) s = _
    rw [readData, h.reg, h.octets, h.lectures, hpipe, Fichier.lit]
    show (if a.address = 0 then _ else if a.address = 1 then _ else if a.address = 2 then _
      else _) = _
    rcases quatre a.address with ha | ha | ha | ha <;> rw [ha] <;> rfl
  refine ⟨(f.lit a.address).2, ?_, ?_⟩
  · rw [fait, hgo, hread, hlu]
    exact hexec
  · have h3 : ¬ (a.read = true ∧ a.address = 3 ∧ s.dRead = .zero) := fun h1 =>
      hdr.mp h1.2.2 h1.2.1
    have hreg : (surBus.front () a s).sReg = f.reg := by simp [front_sReg, hw, h.reg]
    have hoct : (surBus.front () a s).sRegByteEnable = f.octets := by
      simp [front_sRegByteEnable, hw, h.octets]
    have hcount : (surBus.front () a s).sReadCount =
        if a.address = 2 then f.lectures + 1 else f.lectures := by
      rw [front_sReadCount, if_congr (and_iff_right hread) rfl rfl, h.lectures]
    have hpip : (surBus.front () a s).sReadCountPipelined =
        if ¬ a.address ≠ 3 then f.lecturesPipeline + 1 else f.lecturesPipeline := by
      rw [front_sReadCountPipelined, if_neg h3, hpipe]
    rw [Fichier.lit]
    rcases quatre a.address with ha | ha | ha | ha <;> rw [ha] at hcount hpip ⊢ <;>
      exact ⟨hreg, hoct, hcount, hpip.trans (if_neg hplein).symm, fun hp => absurd hp hplein⟩

/-- **One edge** of the slave, under the protocol of the bus. -/
theorem Image.front (h : Image f a s) (hun : ¬ (a.read = true ∧ a.write = true))
    (htient : surBus.waitrequest a s = true → a' = a)
    (hrepos : a.read = true → surBus.waitrequest a s = false → a'.read = false) :
    ∃ f', Pas Fichier.execute (fait a s) f f' ∧ Image f' a' (surBus.front () a s) := by
  cases hread : a.read with
  | false => exact h.ecrit hread
  | true =>
      have hw : a.write = false := eq_false_of_ne_true fun hw => hun ⟨hread, hw⟩
      cases hwait : surBus.waitrequest a s with
      | true =>
          obtain ⟨-, h3, hd⟩ := surBus_waitrequest.mp hwait
          rw [htient hwait]
          exact ⟨f, h.attend hread hw h3 hd⟩
      | false => exact h.lit hread hw hwait (hrepos hread hwait)

end

end AvalonSlave

namespace Bus

open AvalonSlave

section
variable {s : AvalonSlave} {w : ℕ → BusEntrees Unit}

theorem fait_eq (k : ℕ) : Bus.fait surBus s w k =
    AvalonSlave.fait (broches surBus s w k) (cycle surBus s w k).esclave := rfl

theorem esclave_succ (k : ℕ) : (cycle surBus s w (k + 1)).esclave =
    surBus.front () (broches surBus s w k) (cycle surBus s w k).esclave := by
  rw [cycle_succ]
  rfl

variable (hm : Maitre surBus s w) (hn : Voisins surBus s w)

include hm hn

/-- What is done at the slave. -/
theorem fait_conforme (n : ℕ) :
    Conforme Fichier.execute (Fichier.de s) (passe (Bus.fait surBus s w) 0 n) := by
  have h0 : (broches surBus s w 0).read = false := by
    rw [← Bool.not_eq_true]
    intro hr
    have hh := ((coherent_cycle hm hn 0).acces_read_iff.mp hr).2.2
    exact Bool.false_ne_true hh.symm
  have hno : ¬ EnPlein (broches surBus s w 0) s := fun hp =>
    Bool.false_ne_true (h0.symm.trans hp.1)
  refine (conforme_passe (R := fun k f => Image f (broches surBus s w k)
    (cycle surBus s w k).esclave) ?_ ?_ n).1
  · exact ⟨rfl, rfl, rfl, (if_neg hno).symm, fun hp => absurd hp hno⟩
  · intro k f h
    rw [fait_eq, esclave_succ]
    refine h.front (broches_un hm hn k) (fun hwait => ?_) fun hread hgo => ?_
    · exact broches_tient hm hn k (Or.inl (surBus_waitrequest.mp hwait).1) hwait
    · exact (broches_repos hm hn k hread hgo).1

/-- **The slave behind the bus** is a file of four registers that does one access at
a time.  In every run since a reset, from any contents, whatever the other slaves
show: the processor is given at each read what these registers would give it, had
nothing happened but its own accesses, in order. -/
theorem registres_atomiques (n : ℕ) :
    Conforme Fichier.execute (Fichier.de s) (passe (rendu surBus s w) 0 n) := by
  have hc := fait_conforme hm hn n
  rw [passe_conserve hm hn n] at hc
  exact (conforme_append.mp hc).1

omit hm hn in
/-- Reads at 0x900C, for ever. -/
theorem registres_atomiques_temoin : Conforme Fichier.execute (Fichier.de auDepart)
    (passe (rendu surBus auDepart (toujours ⟨true, false, 0x900C, 15, 0⟩ ())) 0 7) :=
  registres_atomiques (maitre_toujours (by decide)) (voisins_toujours _ _) 7

/-- No read stands at the slave when an access begins. -/
theorem dRead_debut {k : ℕ} (hdeb : Debut surBus s w k) :
    (cycle surBus s w (k + 1)).esclave.dRead = .zero := by
  have h := coherent_cycle hm hn k
  have hread : (broches surBus s w k).read = false := by
    refine eq_false_of_ne_true fun hr => ?_
    obtain ⟨-, -, hd, hra, -⟩ := h.presente (hm.un k) (Or.inl hr)
    obtain ⟨-, haread, -⟩ := h.acces_read_iff.mp hr
    rw [uavRead, hra, Bool.not_false, Bool.and_true] at haread
    have hav := h.avWaitrequest_lecture (E := surBus) (hn k) hra haread
    exact absurd (hav.symm.trans (hdeb.2 hd)) (by decide)
  rw [esclave_succ, front_dRead, hread]
  rfl

/-- The cycles an access to the slave takes, but for the first. -/
def attendu (a : Av) : ℕ := if (demande a).read = true ∧ (demande a).address = 3 then 2 else 1

/-- **Two cycles or three.**  An access of the processor to the slave takes two
cycles, a read of offset 12 three, at any moment of any run and after any accesses. -/
theorem duree_avalon {k i : ℕ} (hdeb : Debut surBus s w k)
    (ha : 0x9000 ≤ (w (k + 1)).av.address.toNat ∧ (w (k + 1)).av.address.toNat < 0x9010)
    (hi : i ≤ attendu (w (k + 1)).av) : (w (k + 1 + i)).av = (w (k + 1)).av ∧
      (avWaitrequest surBus (w (k + 1 + i)) (cycle surBus s w (k + 1 + i)) = false ↔
        i = attendu (w (k + 1)).av) := by
  have hv := (vise_iff _).mpr ha
  have hd0 := dRead_debut hm hn hdeb
  by_cases h3 : (demande (w (k + 1)).av).read = true ∧ (demande (w (k + 1)).av).address = 3
  · have hwait : ∀ j, j < 1 → surBus.waitrequest (demande (w (k + 1)).av)
        (cycle surBus s w (k + 1 + j)).esclave = true := fun j hj => by
      obtain rfl : j = 0 := Nat.lt_one_iff.mp hj
      exact surBus_waitrequest.mpr ⟨h3.1, h3.2, hd0⟩
    have hp := pret_debut hm hn hdeb
    have hbroches : broches surBus s w (k + 1) = demande (w (k + 1)).av :=
      (coherent_cycle hm hn (k + 1)).acces_eq hv hp.hold hp.read hp.write
    have hgo : surBus.waitrequest (demande (w (k + 1)).av)
        (cycle surBus s w (k + 1 + 1)).esclave = false := by
      refine eq_false_of_ne_true fun hw => ?_
      have hd := (surBus_waitrequest.mp hw).2.2
      rw [esclave_succ, front_dRead, hbroches, h3.1] at hd
      exact absurd hd (by decide)
    rw [attendu, if_pos h3] at hi ⊢
    exact lecture_finie hm hn hdeb hv h3.1 hwait hgo hi
  · have hwait : ∀ j, j < 0 → surBus.waitrequest (demande (w (k + 1)).av)
        (cycle surBus s w (k + 1 + j)).esclave = true := fun j hj => absurd hj (Nat.not_lt_zero j)
    have hgo : surBus.waitrequest (demande (w (k + 1)).av)
        (cycle surBus s w (k + 1 + 0)).esclave = false := by
      refine eq_false_of_ne_true fun hw => ?_
      obtain ⟨hr, ha, -⟩ := surBus_waitrequest.mp hw
      exact h3 ⟨hr, ha⟩
    rw [attendu, if_neg h3] at hi ⊢
    rcases hdeb.1 with haread | hawrite
    · exact lecture_finie hm hn hdeb hv haread hwait hgo hi
    · exact ecriture_finie hm hn hdeb hv hawrite hwait hgo hi

omit hm hn in
/-- The second of the reads at 0x900C begins at cycle 4 and ends at 6. -/
theorem duree_avalon_temoin :
    avWaitrequest surBus (toujours ⟨true, false, 0x900C, 15, 0⟩ () 6)
      (cycle surBus auDepart (toujours ⟨true, false, 0x900C, 15, 0⟩ ()) 6) = false :=
  (duree_avalon (k := 3) (i := 2) (maitre_toujours (by decide)) (voisins_toujours _ _)
    ⟨Or.inl rfl, fun _ => by decide⟩ (by decide) (by decide)).2.mpr (by decide)

end

end Bus

end BarreFranche
