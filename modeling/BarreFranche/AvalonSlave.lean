/-
# `AvalonSlave` — the demonstration slave of the Avalon bus

`Functions_dev/src/AvalonSlave.vhd`: a register, a register with byte enables,
and two counters of the reads of addresses 2 and 3.  A read of address 3 takes
two cycles: `WaitRequest` holds the master for the first, which `dRead`, the
level of `Read` one edge ago, tells from the second.

`dRead` knows nothing of transactions.  When a read of address 3 follows another
read at once, `dRead` is still '1', so the read completes in its first cycle and
is not counted.  `lectures_iff` says that this is the only way for the counters
to go wrong.

As in the other blocks a cycle is the list of levels `Reset` takes before the
edge, and then the edge.  No vector of the entity has an initial value, and none
is read by the control: a run starts from any contents.
-/
import BarreFranche.StdLogic
import BarreFranche.Synchrone.Run
import BarreFranche.Synchrone.Pulse

namespace BarreFranche

open Synchrone

/-- The pins during one cycle: the levels of `Reset` before the edge, and what
the edge samples. -/
structure AvalonEntrees where
  niveaux : List Bool
  reset : Bool
  address : BitVec 2
  write : Bool
  writeData : BitVec 32
  read : Bool
  byteEnable : BitVec 4
deriving DecidableEq, Repr

/-- The registers of the slave. -/
structure AvalonSlave where
  sReg : BitVec 32
  sRegByteEnable : BitVec 32
  sReadCount : BitVec 32
  sReadCountPipelined : BitVec 32
  dRead : StdLogic
deriving DecidableEq, Repr

namespace AvalonSlave

/-- `sRegByteEnable` after a write of `data` under `byteEnable`. -/
def ecritOctets (byteEnable : BitVec 4) (data reg : BitVec 32) : BitVec 32 :=
  let octet (i : ℕ) : BitVec 8 :=
    if byteEnable.getLsbD i then data.extractLsb' (8 * i) 8 else reg.extractLsb' (8 * i) 8
  octet 3 ++ octet 2 ++ octet 1 ++ octet 0

/-- `pWrite` and `pRead` woken by `Reset`; `sRegByteEnable` and `dRead` have no
reset. -/
def asynchrone (s : AvalonSlave) (reset : Bool) : AvalonSlave :=
  if reset = true then { s with sReg := 0, sReadCount := 0, sReadCountPipelined := 0 } else s

/-- One rising edge of `Clk`. -/
def front (e : AvalonEntrees) (s : AvalonSlave) : AvalonSlave :=
  { sReg :=
      if e.reset = true then 0
      else if e.write = true ∧ e.address = 0 then e.writeData
      else s.sReg
    sRegByteEnable :=
      if e.reset = true then s.sRegByteEnable
      else if e.write = true ∧ e.address = 1 then
        ecritOctets e.byteEnable e.writeData s.sRegByteEnable
      else s.sRegByteEnable
    sReadCount :=
      if e.reset = true then 0
      else if e.read = true ∧ e.address = 2 then s.sReadCount + 1
      else s.sReadCount
    sReadCountPipelined :=
      if e.reset = true then 0
      else if e.read = true ∧ e.address = 3 ∧ s.dRead = .zero then s.sReadCountPipelined + 1
      else s.sReadCountPipelined
    dRead := .ofBool e.read }

/-- One cycle. -/
def etape (e : AvalonEntrees) (s : AvalonSlave) : AvalonSlave :=
  front e ((e.niveaux ++ [e.reset]).foldl asynchrone s)

/-- `WaitRequest`, seen by the master at the edge. -/
def waitRequest (e : AvalonEntrees) (s : AvalonSlave) : StdLogic :=
  if e.read = true ∧ s.dRead = .zero ∧ e.address = 3 then .one else .zero

def readData (e : AvalonEntrees) (s : AvalonSlave) : BitVec 32 :=
  if e.address = 0 then s.sReg
  else if e.address = 1 then s.sRegByteEnable
  else if e.address = 2 then s.sReadCount
  else s.sReadCountPipelined

/-- The contents at cycle `n` of a run from `s`. -/
def cycle (s : AvalonSlave) (w : ℕ → AvalonEntrees) (n : ℕ) : AvalonSlave :=
  run etape s w n

/-! ## One cycle -/

section
variable {e : AvalonEntrees} {s : AvalonSlave}

theorem waitRequest_eq_one : waitRequest e s = .one ↔
    e.read = true ∧ e.address = 3 ∧ s.dRead = .zero := by
  unfold waitRequest
  split_ifs with h
  · exact ⟨fun _ => ⟨h.1, h.2.2, h.2.1⟩, fun _ => rfl⟩
  · exact ⟨fun h0 => absurd h0 (by decide), fun h0 => absurd ⟨h0.1, h0.2.2, h0.2.1⟩ h⟩

theorem waitRequest_eq_zero : waitRequest e s = .zero ↔ waitRequest e s ≠ .one := by
  unfold waitRequest
  split_ifs <;> decide

/-- `Reset` is '0' throughout the cycle. -/
def SansReset (e : AvalonEntrees) : Prop := (∀ b, b ∈ e.niveaux → b = false) ∧ e.reset = false

theorem foldl_asynchrone {l : List Bool} (h : ∀ b, b ∈ l → b = false) :
    l.foldl asynchrone s = s := by
  refine foldl_tient ?_
  intro b hb
  rw [h b hb]
  rfl

theorem etape_sansReset (h : SansReset e) : etape e s = front e s := by
  unfold etape
  rw [foldl_asynchrone]
  intro b hb
  rcases List.mem_append.mp hb with hn | hl
  · exact h.1 b hn
  · rw [List.mem_singleton.mp hl]
    exact h.2

theorem etape_sReadCount (h : SansReset e) : (etape e s).sReadCount =
    if e.read = true ∧ e.address = 2 then s.sReadCount + 1 else s.sReadCount := by
  simp [etape_sansReset h, front, h.2]

/-- The pipelined counter counts the cycles in which the master waits. -/
theorem etape_sReadCountPipelined (h : SansReset e) : (etape e s).sReadCountPipelined =
    if waitRequest e s = .one then s.sReadCountPipelined + 1 else s.sReadCountPipelined := by
  rw [if_congr waitRequest_eq_one rfl rfl]
  simp [etape_sansReset h, front, h.2]

theorem etape_dRead (e : AvalonEntrees) (s : AvalonSlave) :
    (etape e s).dRead = .ofBool e.read := rfl

end

/-! ## Transactions -/

section
variable (s : AvalonSlave) (w : ℕ → AvalonEntrees)

/-- The master keeps to the protocol: while it is made to wait it holds `Read`
and `Address`. -/
def Maitre : Prop :=
  ∀ k, waitRequest (w k) (cycle s w k) = .one →
    (w (k + 1)).read = true ∧ (w (k + 1)).address = (w k).address

/-- Edge `k` completes a read of address `a`. -/
def LectureFinie (a : BitVec 2) (k : ℕ) : Prop :=
  (w k).read = true ∧ (w k).address = a ∧ waitRequest (w k) (cycle s w k) = .zero

instance (a : BitVec 2) : DecidablePred (LectureFinie s w a) :=
  fun _ => inferInstanceAs (Decidable (_ ∧ _))

/-- Cycle `n` is in the middle of a transaction: the master was made to wait at
the edge before. -/
def EnAttente : ℕ → Prop
  | 0 => False
  | n + 1 => waitRequest (w n) (cycle s w n) = .one

/-- Between transactions each counter has counted the completed reads of its
address, modulo 2^32. -/
def CompteLectures : Prop :=
  ∀ n, ¬ EnAttente s w n →
    (cycle s w n).sReadCount = s.sReadCount +
        BitVec.ofNat 32 (pulses (LectureFinie s w 2) 0 n) ∧
      (cycle s w n).sReadCountPipelined = s.sReadCountPipelined +
        BitVec.ofNat 32 (pulses (LectureFinie s w 3) 0 n)

/-- `Read` was '0' at the edge before; at the first edge, `dRead` stands for it. -/
def AuRepos : ℕ → Prop
  | 0 => s.dRead = .zero
  | j + 1 => (w j).read = false

/-- Each read of address 3 begins after an edge with `Read` at '0': an edge that
reads address 3 is the first after such an edge, or the second. -/
def LecturesSeparees : Prop :=
  ∀ k, (w k).read = true → (w k).address = 3 →
    AuRepos s w k ∨ ∃ j, k = j + 1 ∧ (w j).address = 3 ∧ AuRepos s w j

end

section
variable {s : AvalonSlave} {w : ℕ → AvalonEntrees}

@[simp] theorem cycle_zero : cycle s w 0 = s := run_zero

theorem cycle_succ (n : ℕ) : cycle s w (n + 1) = etape (w n) (cycle s w n) := run_succ n

/-- `dRead` is `Read` one edge ago. -/
theorem dRead_iff (k : ℕ) : (cycle s w k).dRead = .zero ↔ AuRepos s w k := by
  cases k with
  | zero => exact Iff.rfl
  | succ j =>
      rw [cycle_succ, etape_dRead, StdLogic.ofBool_eq_zero]
      exact Iff.rfl

/-- The middle of a transaction, read off the inputs. -/
theorem enAttente_succ (j : ℕ) : EnAttente s w (j + 1) ↔
    (w j).read = true ∧ (w j).address = 3 ∧ AuRepos s w j := by
  show waitRequest (w j) (cycle s w j) = .one ↔ _
  rw [waitRequest_eq_one, dRead_iff]

/-- A read of address 2 is never made to wait. -/
theorem lectureFinie_deux (k : ℕ) :
    LectureFinie s w 2 k ↔ (w k).read = true ∧ (w k).address = 2 := by
  constructor
  · exact fun h => ⟨h.1, h.2.1⟩
  · intro h
    refine ⟨h.1, h.2, waitRequest_eq_zero.mpr ?_⟩
    intro hw
    have h3 := (waitRequest_eq_one.mp hw).2.1
    rw [h.2] at h3
    exact absurd h3 (by decide)

section
variable (hreset : ∀ k, SansReset (w k))

include hreset

theorem sReadCount_eq (n : ℕ) : (cycle s w n).sReadCount = s.sReadCount +
    BitVec.ofNat 32 (pulses (LectureFinie s w 2) 0 n) := by
  refine counter_eq (c := fun k => (cycle s w k).sReadCount) (Nat.zero_le n) ?_
  intro k _ _
  rw [cycle_succ, etape_sReadCount (hreset k)]
  exact if_congr (lectureFinie_deux k).symm rfl rfl

/-- The pipelined counter over a run: the edges at which the master waits. -/
theorem sReadCountPipelined_eq (n : ℕ) : (cycle s w n).sReadCountPipelined =
    s.sReadCountPipelined +
      BitVec.ofNat 32 (pulses (fun k => waitRequest (w k) (cycle s w k) = .one) 0 n) := by
  refine counter_eq (c := fun k => (cycle s w k).sReadCountPipelined) (Nat.zero_le n) ?_
  intro k _ _
  rw [cycle_succ, etape_sReadCountPipelined (hreset k)]

end

/-- After a wait the read completes. -/
theorem lectureFinie_apres (hm : Maitre s w) {k : ℕ}
    (h : waitRequest (w k) (cycle s w k) = .one) : LectureFinie s w 3 (k + 1) := by
  obtain ⟨hread, haddr⟩ := hm k h
  obtain ⟨hk, h3, -⟩ := waitRequest_eq_one.mp h
  refine ⟨hread, haddr.trans h3, waitRequest_eq_zero.mpr ?_⟩
  intro hw
  have hd := (waitRequest_eq_one.mp hw).2.2
  rw [cycle_succ, etape_dRead, hk] at hd
  exact absurd hd (by decide)

/-- Without an edge at '0' before it, a read of address 3 completes at once. -/
theorem lectureFinie_sansAttente {k : ℕ} (hread : (w k).read = true) (h3 : (w k).address = 3)
    (hd : (cycle s w k).dRead ≠ .zero) : LectureFinie s w 3 k := by
  refine ⟨hread, h3, waitRequest_eq_zero.mpr ?_⟩
  exact fun hw => hd (waitRequest_eq_one.mp hw).2.2

/-- Separated reads: one that begins at edge `k` finds `Read` at rest. -/
theorem auRepos_debut (hsep : LecturesSeparees s w) {k : ℕ} (hread : (w k).read = true)
    (h3 : (w k).address = 3) (hatt : ¬ EnAttente s w k) : AuRepos s w k := by
  rcases hsep k hread h3 with hk | ⟨j, rfl, h3j, hj⟩
  · exact hk
  · by_contra hnot
    -- `Read` is '1' at edge `j` too, which therefore made the master wait
    have hreadj : (w j).read = true := Bool.not_eq_false _ ▸ hnot
    exact hatt ((enAttente_succ j).mpr ⟨hreadj, h3j, hj⟩)

/-- When the reads are separated, each completed read of address 3 has made the
master wait once: the two counts agree between transactions, and inside one the
wait comes first. -/
theorem attentes_eq (hm : Maitre s w) (hsep : LecturesSeparees s w) (n : ℕ) :
    (EnAttente s w n → pulses (fun k => waitRequest (w k) (cycle s w k) = .one) 0 n =
        pulses (LectureFinie s w 3) 0 n + 1) ∧
      (¬ EnAttente s w n → pulses (fun k => waitRequest (w k) (cycle s w k) = .one) 0 n =
        pulses (LectureFinie s w 3) 0 n) := by
  induction n with
  | zero => exact ⟨fun h => h.elim, fun _ => by simp⟩
  | succ n ih =>
      rw [pulses_succ (Nat.zero_le n), pulses_succ (Nat.zero_le n)]
      by_cases hw : waitRequest (w n) (cycle s w n) = .one
      · -- a wait begins a transaction
        have hnot : ¬ EnAttente s w n := by
          cases n with
          | zero => exact id
          | succ j =>
              intro hj
              exact waitRequest_eq_zero.mp (lectureFinie_apres hm hj).2.2 hw
        have hfin : ¬ LectureFinie s w 3 n := fun h => waitRequest_eq_zero.mp h.2.2 hw
        rw [if_pos hw, if_neg hfin, ih.2 hnot]
        exact ⟨fun _ => rfl, fun h => absurd hw h⟩
      · refine ⟨fun h => absurd h hw, fun _ => ?_⟩
        by_cases hatt : EnAttente s w n
        · -- the second cycle of a read
          have hfin : LectureFinie s w 3 n := by
            cases n with
            | zero => exact hatt.elim
            | succ j => exact lectureFinie_apres hm hatt
          rw [if_neg hw, if_pos hfin, ih.1 hatt]
        · have hfin : ¬ LectureFinie s w 3 n := by
            rintro ⟨hread, h3, -⟩
            have hd := (dRead_iff n).mpr (auRepos_debut hsep hread h3 hatt)
            exact hw (waitRequest_eq_one.mpr ⟨hread, h3, hd⟩)
          rw [if_neg hw, if_neg hfin, ih.2 hatt]

/-- **The read counters.**  With `Reset` at '0' and a master that keeps to the
protocol, the counters count the completed reads of their addresses, one each,
iff each read of address 3 begins after an edge with `Read` at '0'. -/
theorem lectures_iff (hreset : ∀ k, SansReset (w k)) (hm : Maitre s w) :
    CompteLectures s w ↔ LecturesSeparees s w := by
  constructor
  · intro h k hread h3
    by_contra hnot
    obtain ⟨hrepos, hseconde⟩ := not_or.mp hnot
    have hatt : ¬ EnAttente s w k := by
      cases k with
      | zero => exact id
      | succ j =>
          intro hj
          obtain ⟨-, h3j, hrj⟩ := (enAttente_succ j).mp hj
          exact hseconde ⟨j, rfl, h3j, hrj⟩
    have hd : (cycle s w k).dRead ≠ .zero := fun hd => hrepos ((dRead_iff k).mp hd)
    have hfin : LectureFinie s w 3 k := lectureFinie_sansAttente hread h3 hd
    have hw : waitRequest (w k) (cycle s w k) ≠ .one := waitRequest_eq_zero.mp hfin.2.2
    -- the read is completed between two cycles that should both be right
    have hk := (h k hatt).2
    have hk1 := (h (k + 1) hw).2
    rw [cycle_succ, etape_sReadCountPipelined (hreset k), if_neg hw, hk,
      pulses_succ (Nat.zero_le k), if_pos hfin, BitVec.ofNat_add, BitVec.add_right_inj,
      BitVec.self_eq_add_right] at hk1
    exact absurd hk1 (by decide)
  · intro hsep n hn
    refine ⟨sReadCount_eq hreset n, ?_⟩
    rw [sReadCountPipelined_eq hreset n, (attentes_eq hm hsep n).2 hn]

/-- A read of address 2 returns the number of those before it. -/
theorem readData_deux (hreset : ∀ k, SansReset (w k)) {k : ℕ} (h : LectureFinie s w 2 k) :
    readData (w k) (cycle s w k) =
      s.sReadCount + BitVec.ofNat 32 (pulses (LectureFinie s w 2) 0 k) := by
  rw [← sReadCount_eq hreset k, readData, h.2.1]
  rfl

/-- A separated read of address 3 counts itself. -/
theorem readData_trois (hreset : ∀ k, SansReset (w k)) (hm : Maitre s w)
    (hsep : LecturesSeparees s w) {k : ℕ} (h : LectureFinie s w 3 k) :
    readData (w k) (cycle s w k) =
      s.sReadCountPipelined + BitVec.ofNat 32 (pulses (LectureFinie s w 3) 0 (k + 1)) := by
  have hatt : EnAttente s w k := by
    by_contra hatt
    have hd := (dRead_iff k).mpr (auRepos_debut hsep h.1 h.2.1 hatt)
    exact waitRequest_eq_zero.mp h.2.2 (waitRequest_eq_one.mpr ⟨h.1, h.2.1, hd⟩)
  rw [pulses_succ (Nat.zero_le k), if_pos h, ← (attentes_eq hm hsep k).1 hatt,
    ← sReadCountPipelined_eq hreset k, readData, h.2.1]
  rfl

end

/-- The slave after a reset, `Read` at rest. -/
def auDepart : AvalonSlave :=
  { sReg := 0, sRegByteEnable := 0, sReadCount := 0, sReadCountPipelined := 0, dRead := .zero }

/-- A master that presents one address an edge, and then is idle. -/
def suite (l : List (BitVec 2)) (k : ℕ) : AvalonEntrees :=
  { niveaux := []
    reset := false
    address := l.getD k 0
    write := false
    writeData := 0
    read := decide (k < l.length)
    byteEnable := 0 }

theorem suite_sansReset (l : List (BitVec 2)) (k : ℕ) : SansReset (suite l k) :=
  ⟨fun _ hb => absurd hb List.not_mem_nil, rfl⟩

theorem suite_read {l : List (BitVec 2)} {k : ℕ} :
    (suite l k).read = true ↔ k < l.length := decide_eq_true_iff

/-- One read of address 3 is made to wait at edge 0 only, and counted. -/
theorem lectures_iff_temoin : CompteLectures auDepart (suite [3, 3]) := by
  have hmaitre : Maitre auDepart (suite [3, 3]) := by
    intro k hk
    obtain ⟨hread, -, hd⟩ := waitRequest_eq_one.mp hk
    match k with
    | 0 => exact ⟨rfl, rfl⟩
    | 1 => exact absurd hd (by decide)
    | k + 2 => exact absurd (suite_read.mp hread) (by simp)
  refine (lectures_iff (suite_sansReset [3, 3]) hmaitre).mpr ?_
  intro k hread _
  match k with
  | 0 => exact Or.inl rfl
  | 1 => exact Or.inr ⟨0, rfl, rfl, rfl⟩
  | k + 2 => exact absurd (suite_read.mp hread) (by simp)

/-- A read of address 2 and then at once one of address 3: the second completes
at edge 1 and is not counted. -/
theorem lecture_perdue :
    (∀ k, SansReset (suite [2, 3] k)) ∧ Maitre auDepart (suite [2, 3]) ∧
      LectureFinie auDepart (suite [2, 3]) 3 1 ∧
      (cycle auDepart (suite [2, 3]) 2).sReadCountPipelined = 0 ∧
      ¬ CompteLectures auDepart (suite [2, 3]) := by
  have hmaitre : Maitre auDepart (suite [2, 3]) := by
    intro k hk
    obtain ⟨hread, h3, hd⟩ := waitRequest_eq_one.mp hk
    match k with
    | 0 => exact absurd h3 (by decide)
    | 1 => exact absurd hd (by decide)
    | k + 2 => exact absurd (suite_read.mp hread) (by simp)
  refine ⟨suite_sansReset [2, 3], hmaitre, by decide, by decide, ?_⟩
  intro h
  have h2 := (h 2 (by show ¬ waitRequest _ _ = _; decide)).2
  exact absurd h2 (by decide)

end AvalonSlave

end BarreFranche
