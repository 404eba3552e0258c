/-
# `ScFifo` — the response queue of the interconnect

`altera_avalon_sc_fifo.v` as the interconnect instantiates it: slots in a shift
register (`USE_MEMORY_BLOCKS` = 0), no lookahead (`EMPTY_LATENCY` = 1), no
store-and-forward.  Each slot has an occupancy bit; a slot that is not occupied
takes whatever stands at the input, and only the bits tell which of these were
meant.

The depth is `d + 1` and the payload any type.  A queue of depth 1 is the odd
one: it is not full while it is being read, so its `in_ready` depends on
`out_ready`.

`Contient l` relates the slots to a list, and every cycle keeps it along the
step of that list (`Contient.front`).
-/
import BarreFranche.Synchrone.File
import BarreFranche.Synchrone.Run

namespace BarreFranche

open Synchrone

/-- The slots and their occupancy bits. -/
structure ScFifo (α : Type*) (d : ℕ) where
  mem : Fin (d + 1) → α
  memUsed : Fin (d + 1) → Bool

/-- The pins during one cycle: the levels of `reset` before the edge, and what
the edge samples. -/
structure FifoEntrees (α : Type*) where
  niveaux : List Bool
  reset : Bool
  inPayload : α
  inValid : Bool
  outReady : Bool

namespace ScFifo

variable {α : Type*} {d : ℕ}

/-! ## The signals -/

section
variable (e : FifoEntrees α) (s : ScFifo α d)

def outValid : Bool := s.memUsed 0

def outPayload : α := s.mem 0

/-- `internal_out_ready && internal_out_valid`. -/
def read : Bool := (e.outReady || !s.outValid) && s.outValid

def full : Bool := if d = 0 then s.memUsed 0 && !read e s else s.memUsed (Fin.last d)

def inReady : Bool := !full e s

def write : Bool := inReady e s && e.inValid

/-- The clocked branches, slot by slot. -/
def front : ScFifo α d :=
  { mem := fun i =>
      if h : i.val + 1 < d + 1 then
        if read e s || !s.memUsed i then
          if !s.memUsed ⟨i.val + 1, h⟩ then e.inPayload else s.mem ⟨i.val + 1, h⟩
        else s.mem i
      else if d = 0 then
        if write e s then e.inPayload else s.mem i
      else if !s.memUsed i then e.inPayload
      else s.mem i
    memUsed := fun i =>
      if write e s ^^ read e s then
        if write e s then
          if i.val = 0 then true else s.memUsed ⟨i.val - 1, by omega⟩
        else if h : i.val + 1 < d + 1 then s.memUsed ⟨i.val + 1, h⟩
        else false
      else s.memUsed i }

end

/-- The same slots, with `f` of what they hold. -/
def map {β : Type*} (f : α → β) (s : ScFifo α d) : ScFifo β d :=
  { mem := fun i => f (s.mem i)
    memUsed := s.memUsed }

/-- The queue does not look at what it holds. -/
theorem front_map {β : Type*} (f : α → β) (e : FifoEntrees α) (s : ScFifo α d) :
    front ⟨e.niveaux, e.reset, f e.inPayload, e.inValid, e.outReady⟩ (s.map f) =
      (front e s).map f := by
  simp only [front, map, ScFifo.mk.injEq, apply_ite f, apply_dite f]
  exact ⟨rfl, rfl⟩

/-- Every slot cleared. -/
def vide [Inhabited α] : ScFifo α d :=
  { mem := fun _ => default
    memUsed := fun _ => false }

def asynchrone [Inhabited α] (s : ScFifo α d) (reset : Bool) : ScFifo α d :=
  if reset = true then vide else s

/-- The slots as the edge finds them. -/
def avantFront [Inhabited α] (e : FifoEntrees α) (s : ScFifo α d) : ScFifo α d :=
  (e.niveaux ++ [e.reset]).foldl asynchrone s

/-- One cycle. -/
def etape [Inhabited α] (e : FifoEntrees α) (s : ScFifo α d) : ScFifo α d :=
  if e.reset = true then vide else front e (avantFront e s)

/-! ## The queue -/

/-- The occupied slots hold `l`, its head in slot 0. -/
structure Contient (l : List α) (s : ScFifo α d) : Prop where
  taille : l.length ≤ d + 1
  memUsed : ∀ i, s.memUsed i = true ↔ i.val < l.length
  mem : ∀ i : Fin (d + 1), i.val < l.length → l[i.val]? = some (s.mem i)

section
variable {e : FifoEntrees α} {s : ScFifo α d} {l : List α}

theorem contient_vide [Inhabited α] : Contient [] (vide : ScFifo α d) where
  taille := Nat.zero_le _
  memUsed := fun _ => by simp [vide]
  mem := fun i hi => absurd hi (Nat.not_lt_zero i.val)

theorem Contient.outValid_iff (h : Contient l s) : s.outValid = true ↔ l ≠ [] := by
  rw [outValid, h.memUsed 0, Fin.val_zero, List.length_pos_iff]

/-- The output shows the head. -/
theorem Contient.outPayload (h : Contient l s) (hl : l ≠ []) :
    l.head? = some s.outPayload := by
  rw [List.head?_eq_getElem?]
  exact h.mem 0 (List.length_pos_iff.mpr hl)

theorem Contient.read_iff (h : Contient l s) :
    read e s = true ↔ e.outReady = true ∧ l ≠ [] := by
  rw [← h.outValid_iff, read]
  cases s.outValid <;> simp

/-- There is room, or the one slot is being read. -/
theorem Contient.inReady_iff (h : Contient l s) : inReady e s = true ↔
    l.length < d + 1 ∨ (d = 0 ∧ e.outReady = true) := by
  have ht := h.taille
  rw [inReady, full, Bool.not_eq_true']
  split_ifs with hd
  · subst hd
    have h0 := h.memUsed 0
    have hr := h.read_iff (e := e)
    rw [Bool.and_eq_false_iff, Bool.not_eq_false', hr, ← Bool.not_eq_true, h0]
    cases l with
    | nil => simp
    | cons x l => simp
  · rw [← Bool.not_eq_true, h.memUsed (Fin.last d), Fin.val_last]
    omega

theorem Contient.write_iff (h : Contient l s) : write e s = true ↔
    (l.length < d + 1 ∨ (d = 0 ∧ e.outReady = true)) ∧ e.inValid = true := by
  rw [write, Bool.and_eq_true, h.inReady_iff]

/-! ## One edge

The four cases of an edge, by what it reads and writes. -/

theorem Contient.repos (h : Contient l s) (hr : read e s = false) (hw : write e s = false) :
    Contient l (front e s) where
  taille := h.taille
  memUsed := by
    intro i
    simp only [front, hr, hw, Bool.xor_self, Bool.false_eq_true, if_false]
    exact h.memUsed i
  mem := by
    intro i hi
    have hu : s.memUsed i = true := (h.memUsed i).mpr hi
    simp only [front, hr, hw, hu, Bool.not_true, Bool.or_self, Bool.false_eq_true, if_false,
      ite_self, dite_eq_ite]
    exact h.mem i hi

theorem Contient.memUsed_false (h : Contient l s) {i : Fin (d + 1)} (hi : l.length ≤ i.val) :
    s.memUsed i = false := by
  rw [← Bool.not_eq_true, h.memUsed]
  exact Nat.not_lt.mpr hi

/-- Nothing is written into a full queue that is not read. -/
theorem Contient.place (h : Contient l s) (hr : read e s = false) (hw : write e s = true) :
    l.length < d + 1 := by
  rcases (h.write_iff.mp hw).1 with hlt | ⟨-, ho⟩
  · exact hlt
  · have hl : l = [] := by
      by_contra hne
      exact Bool.false_ne_true (hr.symm.trans (h.read_iff.mpr ⟨ho, hne⟩))
    rw [hl]
    exact Nat.succ_pos d

/-- A write fills the first free slot. -/
theorem Contient.ecrit (h : Contient l s) (hr : read e s = false) (hw : write e s = true) :
    Contient (l ++ [e.inPayload]) (front e s) where
  taille := by
    rw [List.length_append, List.length_singleton]
    exact h.place hr hw
  memUsed := by
    intro i
    simp only [front, hr, hw, Bool.xor_false, if_true, List.length_append, List.length_singleton]
    split_ifs with h0
    · simp [h0]
    · rw [h.memUsed]
      dsimp only
      omega
  mem := by
    intro i hi
    rw [List.length_append, List.length_singleton] at hi
    rcases Nat.lt_succ_iff_lt_or_eq.mp hi with hlt | heq
    · have hu : s.memUsed i = true := (h.memUsed i).mpr hlt
      have hd : d ≠ 0 := by
        have := h.place hr hw
        omega
      rw [List.getElem?_append_left hlt, h.mem i hlt]
      simp [front, hr, hu, hd]
    · have hu : s.memUsed i = false := h.memUsed_false heq.ge
      rw [heq, List.getElem?_concat_length]
      by_cases h1 : i.val + 1 < d + 1
      · have hu' : s.memUsed ⟨i.val + 1, h1⟩ = false :=
          h.memUsed_false (heq.ge.trans (Nat.le_succ i.val))
        simp only [front, dif_pos h1, hu, hu', Bool.not_false, Bool.or_true, if_true]
      · simp only [front, dif_neg h1, hu, hw, Bool.not_false, if_true, ite_self]

/-- A read shifts the occupied slots. -/
theorem Contient.lit (h : Contient l s) (hr : read e s = true) (hw : write e s = false) :
    Contient l.tail (front e s) where
  taille := by
    have := h.taille
    rw [List.length_tail]
    omega
  memUsed := by
    intro i
    simp only [front, hr, hw, Bool.false_xor, if_true, Bool.false_eq_true, if_false,
      List.length_tail]
    have ht := h.taille
    split_ifs with h0
    · rw [h.memUsed]
      dsimp only
      omega
    · rw [false_iff]
      omega
  mem := by
    intro i hi
    rw [List.length_tail] at hi
    have ht := h.taille
    have h1 : i.val + 1 < d + 1 := by omega
    have hu : s.memUsed ⟨i.val + 1, h1⟩ = true := (h.memUsed _).mpr (by dsimp only; omega)
    rw [List.getElem?_tail, h.mem ⟨i.val + 1, h1⟩ (by dsimp only; omega)]
    simp only [front, dif_pos h1, hr, hu, Bool.true_or, if_true, Bool.not_true,
      Bool.false_eq_true, if_false]

/-- A read and a write: the slots are shifted, and the last occupied one is
filled again. -/
theorem Contient.passage (h : Contient l s) (hr : read e s = true) (hw : write e s = true) :
    Contient (l.tail ++ [e.inPayload]) (front e s) := by
  have ht := h.taille
  have hne : 1 ≤ l.length := List.length_pos_iff.mpr (h.read_iff.mp hr).2
  have hlen : (l.tail ++ [e.inPayload]).length = l.length := by
    rw [List.length_append, List.length_tail, List.length_singleton]
    exact Nat.sub_add_cancel hne
  refine ⟨hlen ▸ ht, ?_, ?_⟩
  · intro i
    simp only [front, hr, hw, Bool.xor_self, Bool.false_eq_true, if_false, hlen]
    exact h.memUsed i
  · intro i hi
    rw [hlen] at hi
    rcases Nat.lt_or_ge (i.val + 1) l.length with hlt | hge
    · have h1 : i.val + 1 < d + 1 := hlt.trans_le ht
      have hu : s.memUsed ⟨i.val + 1, h1⟩ = true := (h.memUsed _).mpr hlt
      rw [List.getElem?_append_left (by rw [List.length_tail]; omega), List.getElem?_tail,
        h.mem ⟨i.val + 1, h1⟩ hlt]
      simp only [front, dif_pos h1, hr, hu, Bool.true_or, if_true, Bool.not_true,
        Bool.false_eq_true, if_false]
    · -- the last occupied slot
      have heq : i.val = l.tail.length := by
        rw [List.length_tail]
        omega
      rw [heq, List.getElem?_concat_length]
      by_cases h1 : i.val + 1 < d + 1
      · have hu' : s.memUsed ⟨i.val + 1, h1⟩ = false := h.memUsed_false hge
        simp only [front, dif_pos h1, hr, hu', Bool.not_false, Bool.true_or, if_true]
      · -- a queue that takes an element while its last slot is occupied has one slot
        have hd : d = 0 := by
          rcases (h.write_iff.mp hw).1 with hlt | ⟨hd, -⟩
          · omega
          · exact hd
        simp only [front, dif_neg h1, hw, if_pos hd, if_true]

/-- **The slots follow the queue.** -/
theorem Contient.front (h : Contient l s) :
    Contient (suivante (if write e s then some e.inPayload else none) (read e s) l)
      (ScFifo.front e s) := by
  cases hr : read e s <;> cases hw : write e s
  · simpa [suivante] using h.repos hr hw
  · simpa [suivante] using h.ecrit hr hw
  · simpa [suivante] using h.lit hr hw
  · simpa [suivante] using h.passage hr hw

end

/-! ## Runs -/

section
variable [Inhabited α] (s : ScFifo α d) (w : ℕ → FifoEntrees α)

/-- The slots at cycle `n` of a run from any contents. -/
def cycle (n : ℕ) : ScFifo α d := run etape s w n

/-- What edge `n` takes in. -/
def accepte (n : ℕ) : Option α :=
  if (w n).reset = false ∧ write (w n) (avantFront (w n) (cycle s w n)) then
    some (w n).inPayload
  else none

/-- What edge `n` hands over. -/
def livre (n : ℕ) : Option α :=
  if (w n).reset = false ∧ read (w n) (avantFront (w n) (cycle s w n)) then
    some (avantFront (w n) (cycle s w n)).outPayload
  else none

/-- The queue since the reset at edge `a`. -/
def contenu (a : ℕ) : ℕ → List α
  | 0 => []
  | n + 1 => suivante (accepte s w (a + 1 + n)) (livre s w (a + 1 + n)).isSome (contenu a n)

end

/-- The pins of a queue with the contents `l`. -/
structure Presente (l : List α) (s : ScFifo α d) : Prop where
  outValid : s.outValid = true ↔ l ≠ []
  outPayload : l ≠ [] → l.head? = some s.outPayload
  inReady : ∀ e, inReady e s = true ↔ l.length < d + 1 ∨ (d = 0 ∧ e.outReady = true)

theorem Contient.presente {l : List α} {s : ScFifo α d} (h : Contient l s) : Presente l s :=
  ⟨h.outValid_iff, h.outPayload, fun _ => h.inReady_iff⟩

/-- `reset` is '0' throughout the cycle. -/
def SansReset (e : FifoEntrees α) : Prop := (∀ b, b ∈ e.niveaux → b = false) ∧ e.reset = false

section
variable [Inhabited α] {s : ScFifo α d} {w : ℕ → FifoEntrees α} {e : FifoEntrees α}

theorem avantFront_sansReset (h : SansReset e) : avantFront e s = s := by
  refine foldl_tient ?_
  intro b hb
  have hfalse : b = false := by
    rcases List.mem_append.mp hb with hn | hl
    · exact h.1 b hn
    · exact (List.mem_singleton.mp hl).trans h.2
  rw [hfalse]
  rfl

theorem etape_sansReset (h : SansReset e) : etape e s = front e s := by
  rw [etape, h.2, avantFront_sansReset h]
  rfl

theorem cycle_succ (n : ℕ) : cycle s w (n + 1) = etape (w n) (cycle s w n) := run_succ n

/-- Without a reset, what an edge takes in and hands over. -/
theorem accepte_sansReset {n : ℕ} (h : SansReset (w n)) : accepte s w n =
    if write (w n) (cycle s w n) then some (w n).inPayload else none := by
  rw [accepte, avantFront_sansReset h, h.2]
  exact if_congr (and_iff_right rfl) rfl rfl

theorem livre_sansReset {n : ℕ} (h : SansReset (w n)) : livre s w n =
    if read (w n) (cycle s w n) then some (cycle s w n).outPayload else none := by
  rw [livre, avantFront_sansReset h, h.2]
  exact if_congr (and_iff_right rfl) rfl rfl

theorem contient_run {a n : ℕ} (hreset : (w a).reset = true)
    (hsans : ∀ k, k < n → SansReset (w (a + 1 + k))) :
    Contient (contenu s w a n) (cycle s w (a + 1 + n)) := by
  induction n with
  | zero =>
      rw [Nat.add_zero, cycle_succ, etape, if_pos hreset]
      exact contient_vide
  | succ n ih =>
      have hn := hsans n (Nat.lt_succ_self n)
      have h := (ih fun k hk => hsans k (Nat.lt_succ_of_lt hk)).front (e := w (a + 1 + n))
      rw [← Nat.add_assoc, cycle_succ, etape_sansReset hn, contenu, accepte_sansReset hn,
        livre_sansReset hn]
      cases hr : read (w (a + 1 + n)) (cycle s w (a + 1 + n)) <;> rw [hr] at h <;> exact h

/-- **The response queue**, of any depth, from any contents, after a reset: what
has gone in is what has come out, in this order, and then what the queue holds;
and the pins are those of a queue that holds it. -/
theorem fidele {a n : ℕ} (hreset : (w a).reset = true)
    (hsans : ∀ k, k < n → SansReset (w (a + 1 + k))) :
    ∃ l : List α, l.length ≤ d + 1 ∧ Presente l (cycle s w (a + 1 + n)) ∧
      passe (accepte s w) (a + 1) n = passe (livre s w) (a + 1) n ++ l := by
  have hc := contient_run (s := s) hreset hsans
  refine ⟨contenu s w a n, hc.taille, hc.presente, file_conserve rfl (fun _ _ => rfl) ?_⟩
  intro k hk x hx
  have hl := contient_run (s := s) hreset fun j hj => hsans j (hj.trans hk)
  rw [livre_sansReset (hsans k hk)] at hx
  split_ifs at hx with hread
  rw [hl.outPayload (hl.read_iff.mp hread).2, Option.some.inj hx]

/-- Two elements pushed into a queue of two slots that held others before. -/
theorem fidele_temoin :
    ∃ l : List ℕ, l.length ≤ 2 ∧
      Presente l (cycle (d := 1) ⟨fun _ => 7, fun _ => true⟩
        (fun n => ⟨[], decide (n = 0), n, decide (n < 3), false⟩) 4) ∧
      passe (accepte (d := 1) ⟨fun _ => 7, fun _ => true⟩
          (fun n => ⟨[], decide (n = 0), n, decide (n < 3), false⟩)) 1 3 =
        passe (livre (d := 1) ⟨fun _ => 7, fun _ => true⟩
          (fun n => ⟨[], decide (n = 0), n, decide (n < 3), false⟩)) 1 3 ++ l :=
  fidele (a := 0) (n := 3) rfl fun k _ =>
    ⟨fun _ hb => absurd hb List.not_mem_nil, by simp⟩

end

end ScFifo

end BarreFranche
