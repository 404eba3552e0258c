/-
# `AnemometreAvalon` — the wind speed peripheral and its program

`functions/SOPC/anemometre_avalon.vhd` puts the block behind an Avalon slave.  A
write sets its `reset_n`, `continu` and `start_stop`; a read returns

    bits 31..9     0
    bit 8          data_valid
    bits 7..0      data_anemometre

The loop of `BE_VHDL/hello_world_small.c` reads the word twice: once to test it,
and, if the test succeeds, once more for the value it prints.  The test is
`*anemo_read && 0x100`, with the logical AND of C, so it is true of any word
that is not 0.  It agrees with bit 8 because a value other than 0 is never on
the bus without `data_valid` (`data_sansValid`); and `data_valid` is never taken
back, so whatever the hardware does between the two reads the second one
returns the last published value (`mesure_imprimee`).

`S_internal_reset` has no initial value; it and the registers of the block are
taken as '0' at power-on, as the FPGA starts.
-/
import BarreFranche.AnemometreSilence

namespace BarreFranche

open Synchrone

/-- The pins of the peripheral during one cycle: the levels of `reset_n` before
the edge, and what the edge samples. -/
structure AnemometreAvalonEntrees where
  niveaux : List Bool
  resetN : Bool
  inFreqAnemometre : Bool
  address : Bool
  writedata : BitVec 32
  writeN : Bool
  chipselect : Bool
deriving DecidableEq, Repr

/-- The registers of the peripheral, with those of `anemometre_1`. -/
structure AnemometreAvalon where
  sContinu : Bool
  sStartStop : Bool
  sInternalReset : Bool
  anemometre1 : Anemometre
deriving DecidableEq, Repr

namespace AnemometreAvalon

/-- The start of the configured FPGA. -/
def powerOn : AnemometreAvalon :=
  { sContinu := false
    sStartStop := false
    sInternalReset := false
    anemometre1 := Anemometre.powerOn .fpga }

/-- `pWrite` woken by `reset_n`. -/
def asynchrone (s : AnemometreAvalon) (resetN : Bool) : AnemometreAvalon :=
  if resetN = false then
    { s with sInternalReset := false, sStartStop := false, sContinu := false }
  else s

/-- The levels of `reset_n` before the edge, the one at the edge included. -/
def avantFront (e : AnemometreAvalonEntrees) (s : AnemometreAvalon) : AnemometreAvalon :=
  (e.niveaux ++ [e.resetN]).foldl asynchrone s

/-- The port map of `anemometre_1`. -/
def ports (e : AnemometreAvalonEntrees) (s : AnemometreAvalon) : AnemometreEntrees :=
  { inFreqAnemometre := e.inFreqAnemometre
    resetN := s.sInternalReset
    continu := s.sContinu
    startStop := s.sStartStop }

/-- The edge takes a write. -/
def Ecriture (e : AnemometreAvalonEntrees) : Prop :=
  (e.chipselect = true ∧ e.writeN = false) ∧ e.address = false

instance (e : AnemometreAvalonEntrees) : Decidable (Ecriture e) :=
  inferInstanceAs (Decidable (_ ∧ _))

/-- One rising edge of `clk`. -/
def front (e : AnemometreAvalonEntrees) (s : AnemometreAvalon) : AnemometreAvalon :=
  { sInternalReset :=
      if e.resetN = false then false
      else if Ecriture e then e.writedata.getLsbD 0
      else s.sInternalReset
    sContinu :=
      if e.resetN = false then false
      else if Ecriture e then e.writedata.getLsbD 1
      else s.sContinu
    sStartStop :=
      if e.resetN = false then false
      else if Ecriture e then e.writedata.getLsbD 2
      else s.sStartStop
    anemometre1 := Anemometre.front (ports e s) s.anemometre1 }

/-- One cycle. -/
def etape (e : AnemometreAvalonEntrees) (s : AnemometreAvalon) : AnemometreAvalon :=
  front e (avantFront e s)

/-- The contents at cycle `n` of a run from power-on. -/
def cycle (w : ℕ → AnemometreAvalonEntrees) (n : ℕ) : AnemometreAvalon :=
  run etape powerOn w n

/-- The level of a bus line; 'U' does not occur in the runs below. -/
def ligne (a : StdLogic) : BitVec 1 := if a = .one then 1 else 0

/-- `X"00000" & "000" & S_data_valid & S_data_anemometre`. -/
def readdata (s : AnemometreAvalon) : BitVec 32 :=
  (0x00000 : BitVec 20) ++ (0 : BitVec 3) ++ ligne s.anemometre1.dataValid ++
    s.anemometre1.dataAnemometre

/-! ## The program -/

/-- `ANEMOMETRE_Config`, the word it writes. -/
def config (st continu reset : BitVec 32) : BitVec 32 :=
  (st <<< 2) ||| (continu <<< 1) ||| reset

/-- `*anemo_read && 0x100`, for the word that the dereference reads. -/
def teste (mot : BitVec 32) : Bool :=
  decide (mot ≠ 0) && decide ((0x100 : BitVec 32) ≠ 0)

/-- `ANEMOMETRE_get_freq`, for the word that it reads. -/
def getFreq (mot : BitVec 32) : BitVec 32 := mot &&& 0xFF

/-- One turn of the loop, with the words of its two reads: the argument of
`printf`, if it is called. -/
def tour (lecture1 lecture2 : BitVec 32) : Option (BitVec 32) :=
  if teste lecture1 = true then some (getFreq lecture2) else none

/-! ## The words -/

section
variable (s : AnemometreAvalon)

/-- The word, bit by bit. -/
theorem readdata_bit (i : ℕ) : (readdata s).getLsbD i =
    if i < 8 then s.anemometre1.dataAnemometre.getLsbD i
    else decide (i = 8 ∧ s.anemometre1.dataValid = .one) := by
  have hligne : ∀ a, (ligne a).getLsbD 0 = decide (a = .one) := by
    intro a
    cases a <;> rfl
  unfold readdata
  rw [BitVec.getLsbD_append, BitVec.getLsbD_append, BitVec.getLsbD_append]
  by_cases h8 : i < 8
  · rw [if_pos h8, if_pos h8]
  · rw [if_neg h8, if_neg h8]
    by_cases hi : i = 8
    · subst hi
      rw [if_pos (by omega), hligne]
      simp
    · rw [if_neg (by omega)]
      simp [hi]

theorem readdata_bit8 : (readdata s).getLsbD 8 = true ↔ s.anemometre1.dataValid = .one := by
  rw [readdata_bit]
  simp

/-- The low byte of the word is `data_anemometre`. -/
theorem getFreq_readdata : getFreq (readdata s) = s.anemometre1.dataAnemometre.setWidth 32 := by
  have hmasque : ∀ i, i < 32 → (0xFF : BitVec 32).getLsbD i = decide (i < 8) := by decide
  refine BitVec.eq_of_getLsbD_eq ?_
  intro i hi
  unfold getFreq
  rw [BitVec.getLsbD_and, BitVec.getLsbD_setWidth, readdata_bit, hmasque i hi]
  by_cases h8 : i < 8
  · simp [h8, hi]
  · simp [h8, BitVec.getLsbD_of_ge _ _ (Nat.not_lt.mp h8)]

/-- The word is 0 iff it carries neither `data_valid` nor data. -/
theorem readdata_eq_zero : readdata s = 0 ↔
    s.anemometre1.dataValid ≠ .one ∧ s.anemometre1.dataAnemometre = 0 := by
  constructor
  · intro h
    constructor
    · intro hv
      have h8 := (readdata_bit8 s).mpr hv
      rw [h] at h8
      exact absurd h8 (by decide)
    · refine BitVec.eq_of_getLsbD_eq ?_
      intro i hi
      have hbit := readdata_bit s i
      rw [if_pos hi, h] at hbit
      rw [← hbit]
      simp
  · rintro ⟨hv, hd⟩
    unfold readdata ligne
    rw [if_neg hv, hd]
    rfl

end

/-- The logical AND only asks for a word that is not 0. -/
theorem teste_iff (mot : BitVec 32) : teste mot = true ↔ mot ≠ 0 := by
  simp [teste]

/-- `ANEMOMETRE_Config` sets the three registers to its three arguments. -/
theorem config_ecrit {e : AnemometreAvalonEntrees} (hecr : Ecriture e) (hreset : e.resetN = true)
    {st continu reset : Bool} (s : AnemometreAvalon)
    (hmot : e.writedata = config (.ofNat 32 st.toNat) (.ofNat 32 continu.toNat)
      (.ofNat 32 reset.toNat)) :
    (etape e s).sStartStop = st ∧ (etape e s).sContinu = continu ∧
      (etape e s).sInternalReset = reset := by
  have hbits : ∀ a b c : Bool,
      (config (.ofNat 32 a.toNat) (.ofNat 32 b.toNat) (.ofNat 32 c.toNat)).getLsbD 2 = a ∧
        (config (.ofNat 32 a.toNat) (.ofNat 32 b.toNat) (.ofNat 32 c.toNat)).getLsbD 1 = b ∧
        (config (.ofNat 32 a.toNat) (.ofNat 32 b.toNat) (.ofNat 32 c.toNat)).getLsbD 0 = c := by
    decide
  obtain ⟨h2, h1, h0⟩ := hbits st continu reset
  rw [← hmot] at h2 h1 h0
  have hn : ¬ e.resetN = false := by simp [hreset]
  simp only [etape, front, if_neg hn, if_pos hecr]
  exact ⟨h2, h1, h0⟩

/-! ## Runs -/

theorem asynchrone_anemometre1 (s : AnemometreAvalon) (b : Bool) :
    (asynchrone s b).anemometre1 = s.anemometre1 := by
  unfold asynchrone
  split <;> rfl

theorem foldl_asynchrone_anemometre1 (l : List Bool) (s : AnemometreAvalon) :
    (l.foldl asynchrone s).anemometre1 = s.anemometre1 := by
  refine List.foldlRecOn (motive := fun t : AnemometreAvalon => t.anemometre1 = s.anemometre1)
    l asynchrone rfl ?_
  intro t ht b _
  rw [asynchrone_anemometre1, ht]

theorem avantFront_anemometre1 (e : AnemometreAvalonEntrees) (s : AnemometreAvalon) :
    (avantFront e s).anemometre1 = s.anemometre1 :=
  foldl_asynchrone_anemometre1 _ s

/-- The word read during cycle `n`, when `reset_n` has taken the levels `l`. -/
def lecture (w : ℕ → AnemometreAvalonEntrees) (l : List Bool) (n : ℕ) : BitVec 32 :=
  readdata (l.foldl asynchrone (cycle w n))

/-- What `anemometre_1` samples at edge `n`. -/
def entrees (w : ℕ → AnemometreAvalonEntrees) (n : ℕ) : AnemometreEntrees :=
  ports (w n) (avantFront (w n) (cycle w n))

variable {w : ℕ → AnemometreAvalonEntrees}

/-- A reset that no edge has sampled yet does not reach the word. -/
theorem lecture_eq (l : List Bool) (n : ℕ) : lecture w l n = readdata (cycle w n) := by
  unfold lecture readdata
  rw [foldl_asynchrone_anemometre1]

/-- The block in the peripheral runs as the block alone. -/
theorem cycle_anemometre1 (n : ℕ) :
    (cycle w n).anemometre1 = Anemometre.cycle .fpga (entrees w) n := by
  refine run_projection (f := anemometre1) (x := entrees w) ?_ n
  intro k
  change Anemometre.front _ (avantFront (w k) (cycle w k)).anemometre1 = _
  rw [avantFront_anemometre1]
  rfl

/-- Data other than 0 has been published, and `data_valid` with it. -/
theorem data_sansValid {n : ℕ} (h : (cycle w n).anemometre1.dataValid ≠ .one) :
    (cycle w n).anemometre1.dataAnemometre = 0 := by
  rw [cycle_anemometre1] at h ⊢
  rcases Anemometre.neuf_ou_publie (u := .fpga) (w := entrees w) n with hno | ⟨k, hk⟩
  · exact (Anemometre.sorties_neuves hno).1
  · exact absurd (Anemometre.sorties_publiees hk).2 h

/-- The test of the program is bit 8 of the word it reads. -/
theorem teste_readdata (n : ℕ) : teste (readdata (cycle w n)) = true ↔
    (readdata (cycle w n)).getLsbD 8 = true := by
  rw [teste_iff, readdata_bit8, Ne, readdata_eq_zero, not_and_or, not_not]
  constructor
  · rintro (hv | hd)
    · exact hv
    · by_contra hv
      exact hd (data_sansValid hv)
  · exact Or.inl

/-- **What the program prints.**  In every run, for a first read at cycle `n` and
a second one `d` cycles later: the test agrees with bit 8 of the first word; if
it succeeds a value is printed, and it is the count that the last publication
before the second read has published; if it fails nothing is printed. -/
theorem mesure_imprimee (l l' : List Bool) (n d : ℕ) :
    (teste (lecture w l n) = true ↔ (lecture w l n).getLsbD 8 = true) ∧
      (teste (lecture w l n) = true →
        ∃ k, Anemometre.DernierePublication .fpga (entrees w) (n + d) k ∧
          tour (lecture w l n) (lecture w l' (n + d)) =
            some ((cycle w k).anemometre1.counter.setWidth 32)) ∧
      (teste (lecture w l n) = false →
        tour (lecture w l n) (lecture w l' (n + d)) = none) := by
  rw [lecture_eq, lecture_eq]
  refine ⟨teste_readdata n, ?_, ?_⟩
  · intro htest
    have hvalid : (cycle w n).anemometre1.dataValid = .one :=
      (readdata_bit8 _).mp ((teste_readdata n).mp htest)
    rw [cycle_anemometre1, Anemometre.dataValid_iff] at hvalid
    obtain ⟨k, hk, hpub⟩ := hvalid
    rcases Anemometre.neuf_ou_publie (u := .fpga) (w := entrees w) (n + d) with hno | ⟨j, hj⟩
    · exact absurd hpub (hno k (by omega))
    · refine ⟨j, hj, ?_⟩
      rw [tour, if_pos htest, getFreq_readdata, cycle_anemometre1, cycle_anemometre1,
        (Anemometre.sorties_publiees hj).1, Anemometre.cycle_succ,
        Anemometre.front_dataAnemometre, if_pos hj.pulse]
  · intro htest
    rw [tour, htest]
    rfl

/-! ## A run -/

/-- `S_internal_reset` set by the first edge, with no other write and no reset. -/
theorem sInternalReset_tient (h1 : (cycle w 1).sInternalReset = true)
    (hmuet : ∀ k, ¬ Ecriture (w (k + 1)))
    (hpin : ∀ k, (w (k + 1)).niveaux = [] ∧ (w (k + 1)).resetN = true) (n : ℕ) :
    (cycle w (n + 1)).sInternalReset = true := by
  induction n with
  | zero => exact h1
  | succ n ih =>
      obtain ⟨hniv, hres⟩ := hpin n
      show (front (w (n + 1)) (avantFront (w (n + 1)) (cycle w (n + 1)))).sInternalReset = true
      simp only [front, if_neg (hmuet n), avantFront, hniv, hres]
      exact ih

/-- `ANEMOMETRE_Config(1, 1, 1)` at the first edge, and a sensor that rises once. -/
def essai (k : ℕ) : AnemometreAvalonEntrees :=
  { niveaux := []
    resetN := true
    inFreqAnemometre := decide (1000000 ≤ k)
    address := false
    writedata := config 1 1 1
    writeN := decide (k ≠ 0)
    chipselect := true }

theorem essai_resetN (n : ℕ) : (entrees essai (n + 1)).resetN = true := by
  show (cycle essai (n + 1)).sInternalReset = true
  exact sInternalReset_tient (by decide) (fun _ h => Bool.noConfusion h.1.2)
    (fun _ => ⟨rfl, rfl⟩) n

theorem essai_fenetre : Anemometre.Fenetre 0 (Anemometre.cycle .fpga (entrees essai) 3) :=
  Anemometre.fenetre_apres_reset (i := 0) (by decide) rfl (essai_resetN 0) (essai_resetN 1)

theorem essai_publie : (Anemometre.cycle .fpga (entrees essai) 50000005).second = .one :=
  (Anemometre.fenetre_publie essai_fenetre fun k _ => by
    rw [Nat.add_comm 3 k]
    exact essai_resetN (k + 2)).1

/-- The one edge is counted. -/
theorem essai_counter : (Anemometre.cycle .fpga (entrees essai) 50000005).counter = 1 := by
  have hreset : ∀ k, 3 ≤ k → k < 50000005 →
      (Anemometre.cycle .fpga (entrees essai) k).internalReset ≠ .one := by
    intro k hk hk'
    have h := Anemometre.fenetre_run essai_fenetre (d := k - 3) (by omega) fun j _ => by
      rw [Nat.add_comm 3 j]
      exact essai_resetN (j + 2)
    rw [Nat.add_sub_cancel' hk] at h
    exact h.reset
  have hfront : ∀ k, Anemometre.frontMontant (entrees essai) k = true ↔ k = 1000000 := by
    intro k
    cases k with
    | zero => decide
    | succ k =>
        simp only [Anemometre.frontMontant, entrees, ports, essai, Bool.and_eq_true,
          Bool.not_eq_true', decide_eq_true_eq, decide_eq_false_iff_not]
        omega
  have hzero : (Anemometre.cycle .fpga (entrees essai) 3).counter = 0 := by decide
  rw [Anemometre.counter_run (by omega) hreset, hzero, Anemometre.detections_eq (by omega),
    pulses_eq_one (c := 1000000) (by omega) (by omega) ((hfront _).mpr rfl)
      fun k _ _ hk => (hfront k).mp hk]
  rfl

/-- The word read right after the publication passes the test, and the second
read, two cycles later, prints 1. -/
theorem mesure_imprimee_temoin :
    teste (lecture essai [] 50000006) = true ∧
      ∃ k, Anemometre.DernierePublication .fpga (entrees essai) (50000006 + 2) k ∧
        tour (lecture essai [] 50000006) (lecture essai [] (50000006 + 2)) =
          some ((cycle essai k).anemometre1.counter.setWidth 32) ∧
        (cycle essai k).anemometre1.counter = 1 := by
  have htest : teste (lecture essai [] 50000006) = true := by
    rw [lecture_eq, teste_readdata, readdata_bit8, cycle_anemometre1, Anemometre.dataValid_iff]
    exact ⟨50000005, by omega, essai_publie⟩
  obtain ⟨k, hk, htour⟩ := (mesure_imprimee (w := essai) [] [] 50000006 2).2.1 htest
  refine ⟨htest, k, hk, htour, ?_⟩
  have hkeq : k = 50000005 := by
    rcases Nat.lt_trichotomy k 50000005 with hlt | heq | hgt
    · exact absurd essai_publie (hk.silence _ hlt (by omega))
    · exact heq
    · exact absurd hk.pulse (Anemometre.reprise_silence essai_publie (essai_resetN 50000005)
        (essai_resetN 50000006) hgt hk.avant)
  rw [cycle_anemometre1, hkeq, essai_counter]

end AnemometreAvalon

end BarreFranche
