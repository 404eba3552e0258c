/-
# `AvalonOctets` — the register with byte enables

Address 1 of the demonstration slave.  Four lanes of one byte share a register
and a write touches those its `ByteEnable` selects, so what is read back is
assembled from up to four writes.  Each lane is a register of its own: it loads
at the edges `EcritOctet` describes and holds at all the others, whatever they
write, read or reset (`etape_octet`).  `registre_eq` makes the run of it.
-/
import BarreFranche.AvalonSlave

namespace BarreFranche.AvalonSlave

open Synchrone

/-- Byte `i` of a word. -/
def octet (i : ℕ) (v : BitVec 32) : BitVec 8 := v.extractLsb' (8 * i) 8

/-- Edge `e` writes lane `i` of the register at address 1. -/
def EcritOctet (i : ℕ) (e : AvalonEntrees) : Prop :=
  e.reset = false ∧ e.write = true ∧ e.address = 1 ∧ e.byteEnable.getLsbD i = true

section
variable {e : AvalonEntrees} {s : AvalonSlave} {i : ℕ}

/-- The lanes of a write are put back in place. -/
theorem octet_ecritOctets (byteEnable : BitVec 4) (data reg : BitVec 32) (hi : i < 4) :
    octet i (ecritOctets byteEnable data reg) =
      if byteEnable.getLsbD i then octet i data else octet i reg := by
  simp only [octet, ecritOctets]
  obtain rfl | rfl | rfl | rfl : i = 0 ∨ i = 1 ∨ i = 2 ∨ i = 3 := by omega
  · exact (BitVec.extractLsb'_append_eq_of_add_le (by omega)).trans BitVec.extractLsb'_eq_self
  · rw [BitVec.extractLsb'_append_eq_of_le (by omega), BitVec.extractLsb'_append_eq_right]
  · rw [BitVec.extractLsb'_append_eq_of_le (by omega),
      BitVec.extractLsb'_append_eq_of_le (by omega), BitVec.extractLsb'_append_eq_right]
  · rw [BitVec.extractLsb'_append_eq_of_le (by omega),
      BitVec.extractLsb'_append_eq_of_le (by omega), BitVec.extractLsb'_append_eq_left]

/-- No level of `Reset` reaches the register. -/
theorem foldl_sRegByteEnable (l : List Bool) :
    (l.foldl asynchrone s).sRegByteEnable = s.sRegByteEnable := by
  refine List.foldlRecOn (motive := fun t : AvalonSlave => t.sRegByteEnable = s.sRegByteEnable)
    l asynchrone rfl ?_
  intro t ht b _
  rw [← ht]
  cases b <;> rfl

theorem etape_sRegByteEnable : (etape e s).sRegByteEnable =
    if e.reset = true then s.sRegByteEnable
    else if e.write = true ∧ e.address = 1 then
      ecritOctets e.byteEnable e.writeData s.sRegByteEnable
    else s.sRegByteEnable := by
  simp only [etape, front, foldl_sRegByteEnable]

/-- What one cycle makes of a lane. -/
theorem etape_octet (hi : i < 4) :
    (EcritOctet i e → octet i (etape e s).sRegByteEnable = octet i e.writeData) ∧
      (¬ EcritOctet i e → octet i (etape e s).sRegByteEnable = octet i s.sRegByteEnable) := by
  rw [etape_sRegByteEnable]
  constructor
  · rintro ⟨hreset, hwrite, haddr, hbyte⟩
    rw [if_neg (by simp [hreset]), if_pos ⟨hwrite, haddr⟩, octet_ecritOctets _ _ _ hi,
      if_pos hbyte]
  · intro hno
    split_ifs with hreset haddr
    · rfl
    · rw [octet_ecritOctets _ _ _ hi, if_neg]
      exact fun hbyte => hno ⟨Bool.not_eq_true _ ▸ hreset, haddr.1, haddr.2, hbyte⟩
    · rfl

theorem readData_un (h : e.address = 1) : readData e s = s.sRegByteEnable := by
  simp [readData, h]

end

/-- **The register with byte enables**, for every stream of cycles, from any
contents.  At whatever moment address 1 is read, each byte of `ReadData` is the
one the last write of its lane carried, or the starting one if there was none;
and an edge that does not write the lane leaves it as it was. -/
theorem octet_lu (s : AvalonSlave) (w : ℕ → AvalonEntrees) (i : ℕ) (hi : i < 4) (n : ℕ) :
    (∀ (l : List Bool) (e : AvalonEntrees), e.address = 1 →
      (∃ k, Dernier (fun k => EcritOctet i (w k)) n k ∧
          octet i (readData e (l.foldl asynchrone (cycle s w n))) = octet i (w k).writeData) ∨
        ((∀ k, k < n → ¬ EcritOctet i (w k)) ∧
          octet i (readData e (l.foldl asynchrone (cycle s w n))) = octet i s.sRegByteEnable)) ∧
      (¬ EcritOctet i (w n) → ∀ e : AvalonEntrees, e.address = 1 →
        octet i (readData e (cycle s w (n + 1))) = octet i (readData e (cycle s w n))) := by
  constructor
  · intro l e he
    rw [readData_un he, foldl_sRegByteEnable]
    exact registre_eq (c := fun k => octet i (cycle s w k).sRegByteEnable)
      (v := fun k => octet i (w k).writeData) (fun k hk => (etape_octet hi).1 hk)
      (fun k hk => (etape_octet hi).2 hk) n
  · intro hno e he
    rw [readData_un he, readData_un he, cycle_succ]
    exact (etape_octet hi).2 hno

/-- A master that writes address 1, one pair of byte enables and data an edge,
and then is idle. -/
def ecritures (l : List (BitVec 4 × BitVec 32)) (k : ℕ) : AvalonEntrees :=
  { niveaux := []
    reset := false
    address := 1
    write := decide (k < l.length)
    writeData := (l.getD k (0, 0)).2
    read := false
    byteEnable := (l.getD k (0, 0)).1 }

/-- The last write of lane 2 among three is the first one. -/
theorem octet_lu_partiel :
    octet 2 (readData (ecritures [] 0) (cycle auDepart
      (ecritures [(0b1111, 0x11223344), (0b0011, 0x55667788), (0b1000, 0x99aabbcc)]) 3)) =
        0x22 := by
  rcases (octet_lu auDepart (ecritures
      [(0b1111, 0x11223344), (0b0011, 0x55667788), (0b1000, 0x99aabbcc)]) 2 (by decide) 3).1
        [] (ecritures [] 0) rfl with ⟨k, hk, hoctet⟩ | ⟨hno, -⟩
  · have hk3 := hk.avant
    obtain rfl | rfl | rfl : k = 0 ∨ k = 1 ∨ k = 2 := by omega
    · exact hoctet
    · exact absurd hk.pulse.2.2.2 (by decide)
    · exact absurd hk.pulse.2.2.2 (by decide)
  · exact absurd ⟨rfl, rfl, rfl, rfl⟩ (hno 0 (by omega))

end BarreFranche.AvalonSlave
