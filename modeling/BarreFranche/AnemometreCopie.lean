/-
# `AnemometreCopie` — the peripheral as it is compiled into the Nios system

`SOPC_dev/nios/nios_mcu/synthesis/submodules/anemometre_avalon.vhd` is a copy of
`functions/SOPC/anemometre_avalon.vhd`.  The register map and `pWrite` are the
same; the port map of `anemometre_1` connects `reset_n` to the pin of the
peripheral, where the file of record connects `S_internal_reset`, the bit the
program writes.  In the copy this bit is written and never read.

So the record is in reset until the program writes the bit, and the copy is not.
A program that never writes it sees 0 for ever on the one and a publication on
the other, unless the pin itself keeps both from publishing: the two agree for
every program iff it does (`copie_iff`).
-/
import BarreFranche.AnemometreAvalon
import BarreFranche.AnemometreSilence

namespace BarreFranche

open Synchrone

namespace AnemometreCopie

/-- The port map of `anemometre_1`. -/
def ports (e : AnemometreAvalonEntrees) (s : AnemometreAvalon) : AnemometreEntrees :=
  { inFreqAnemometre := e.inFreqAnemometre
    resetN := e.resetN
    continu := s.sContinu
    startStop := s.sStartStop }

/-- One rising edge of `clk`; `pWrite` is that of the file of record. -/
def front (e : AnemometreAvalonEntrees) (s : AnemometreAvalon) : AnemometreAvalon :=
  { AnemometreAvalon.front e s with
    anemometre1 := Anemometre.front (ports e s) s.anemometre1 }

/-- One cycle. -/
def etape (e : AnemometreAvalonEntrees) (s : AnemometreAvalon) : AnemometreAvalon :=
  front e (AnemometreAvalon.avantFront e s)

/-- The contents at cycle `n` of a run from power-on. -/
def cycle (w : ℕ → AnemometreAvalonEntrees) (n : ℕ) : AnemometreAvalon :=
  run etape AnemometreAvalon.powerOn w n

/-- What `anemometre_1` samples at edge `n`. -/
def entrees (w : ℕ → AnemometreAvalonEntrees) (n : ℕ) : AnemometreEntrees :=
  ports (w n) (AnemometreAvalon.avantFront (w n) (cycle w n))

variable {w : ℕ → AnemometreAvalonEntrees}

theorem cycle_anemometre1 (n : ℕ) :
    (cycle w n).anemometre1 = Anemometre.cycle .fpga (entrees w) n := by
  refine run_projection (f := AnemometreAvalon.anemometre1) (x := entrees w) ?_ n
  intro k
  change Anemometre.front _ (AnemometreAvalon.avantFront (w k) (cycle w k)).anemometre1 = _
  rw [AnemometreAvalon.avantFront_anemometre1]
  rfl

end AnemometreCopie

namespace AnemometreAvalon

variable {w : ℕ → AnemometreAvalonEntrees}

/-! ## The reset of the block in the file of record -/

/-- The pin resets the bit, and with it the block. -/
theorem entrees_reset {k : ℕ} (h : (w k).resetN = false) : (entrees w k).resetN = false := by
  show (avantFront (w k) (cycle w k)).sInternalReset = false
  rw [avantFront, List.foldl_append, h]
  rfl

theorem foldl_sInternalReset {l : List Bool} {s : AnemometreAvalon}
    (h : s.sInternalReset = false) : (l.foldl asynchrone s).sInternalReset = false := by
  refine List.foldlRecOn (motive := fun t : AnemometreAvalon => t.sInternalReset = false)
    l asynchrone h ?_
  intro t ht b _
  cases b
  · rfl
  · exact ht

/-- A program that never writes leaves the block in reset. -/
theorem sInternalReset_muet (h : ∀ k, ¬ Ecriture (w k)) (n : ℕ) :
    (cycle w n).sInternalReset = false := by
  induction n with
  | zero => rfl
  | succ n ih =>
      show (front (w n) (avantFront (w n) (cycle w n))).sInternalReset = false
      simp only [front, if_neg (h n)]
      rw [avantFront, foldl_sInternalReset ih, ite_self]

/-- Without a publication the word is 0. -/
theorem readdata_silence (s : AnemometreAvalon) {x : ℕ → AnemometreEntrees} {n : ℕ}
    (hs : s.anemometre1 = Anemometre.cycle .fpga x n)
    (hno : ∀ k, (Anemometre.cycle .fpga x k).second ≠ .one) : readdata s = 0 := by
  obtain ⟨hdata, hvalid⟩ := Anemometre.sorties_neuves (t := n) fun k _ => hno k
  rw [readdata_eq_zero, hs, hdata, hvalid]
  exact ⟨by decide, rfl⟩

end AnemometreAvalon

namespace AnemometreCopie

open AnemometreAvalon (readdata readdata_silence readdata_eq_zero Ecriture)

/-- The same pins but those of the bus. -/
def MemesBroches (w x : ℕ → AnemometreAvalonEntrees) : Prop :=
  ∀ k, (x k).niveaux = (w k).niveaux ∧ (x k).resetN = (w k).resetN ∧
    (x k).inFreqAnemometre = (w k).inFreqAnemometre

/-- The two descriptions show the bus the same word at every cycle. -/
def Accord (w : ℕ → AnemometreAvalonEntrees) : Prop :=
  ∀ n, readdata (cycle w n) = readdata (AnemometreAvalon.cycle w n)

/-- A bus on which nothing is written. -/
def sansEcriture (w : ℕ → AnemometreAvalonEntrees) (k : ℕ) : AnemometreAvalonEntrees :=
  { w k with writeN := true }

variable {w : ℕ → AnemometreAvalonEntrees}

/-- While the pin resets both often enough, neither publishes. -/
theorem accord_de_frequent (h : Anemometre.ResetFrequent fun k => (w k).resetN) : Accord w := by
  intro n
  have hcopie := (Anemometre.silence_iff .fpga (entrees w)).mpr h
  have hrecord := (Anemometre.silence_iff .fpga (AnemometreAvalon.entrees w)).mpr
    (h.mono fun k => AnemometreAvalon.entrees_reset)
  rw [readdata_silence _ (cycle_anemometre1 n) hcopie,
    readdata_silence _ (AnemometreAvalon.cycle_anemometre1 n) hrecord]

/-- A copy that only ever shows 0 has not published. -/
theorem silence_de_zero (h : ∀ n, readdata (cycle w n) = 0) (n : ℕ) :
    (Anemometre.cycle .fpga (entrees w) n).second ≠ .one := by
  intro hs
  have hvalid := ((readdata_eq_zero _).mp (h (n + 1))).1
  rw [cycle_anemometre1] at hvalid
  exact hvalid ((Anemometre.dataValid_iff (n + 1)).mpr ⟨n, n.lt_succ_self, hs⟩)

/-- On a bus without writes the record shows 0 for ever. -/
theorem record_sansEcriture (n : ℕ) :
    readdata (AnemometreAvalon.cycle (sansEcriture w) n) = 0 := by
  have hmuet : ∀ k, ¬ Ecriture (sansEcriture w k) := fun k h => Bool.noConfusion h.1.2
  have hreset : ∀ k, (AnemometreAvalon.entrees (sansEcriture w) k).resetN = false :=
    fun k => AnemometreAvalon.foldl_sInternalReset (AnemometreAvalon.sInternalReset_muet hmuet k)
  refine readdata_silence _ (AnemometreAvalon.cycle_anemometre1 n) ?_
  refine (Anemometre.silence_iff .fpga _).mpr ⟨⟨0, by decide, hreset 0⟩, ?_⟩
  exact fun a => ⟨a, le_rfl, by omega, hreset a⟩

/-- **The copy agrees with the file of record** iff the pin `reset_n` is '0' at
one of the first 9,997 edges and at one of every 9,999 consecutive ones: then at
every cycle, whatever is written on the bus, and otherwise not for every bus. -/
theorem copie_iff (w : ℕ → AnemometreAvalonEntrees) :
    (∀ x, MemesBroches w x → Accord x) ↔ Anemometre.ResetFrequent fun k => (w k).resetN := by
  constructor
  · intro h
    have haccord : Accord (sansEcriture w) := h _ fun _ => ⟨rfl, rfl, rfl⟩
    refine (Anemometre.silence_iff .fpga (entrees (sansEcriture w))).mp ?_
    refine silence_de_zero ?_
    intro n
    rw [haccord n, record_sansEcriture]
  · intro h x hx
    refine accord_de_frequent (h.mono ?_)
    intro k hk
    rw [(hx k).2.1, hk]

/-! ## The program -/

/-- `reset_n` at '1', a silent sensor, and the one write of the program,
`ANEMOMETRE_Config(1, 1, 1)`, at the first edge. -/
def programme (k : ℕ) : AnemometreAvalonEntrees :=
  { niveaux := []
    resetN := true
    inFreqAnemometre := false
    address := false
    writedata := AnemometreAvalon.config 1 1 1
    writeN := decide (k ≠ 0)
    chipselect := true }

theorem programme_ecrit (n : ℕ) :
    (AnemometreAvalon.cycle programme (n + 1)).sInternalReset = true :=
  AnemometreAvalon.sInternalReset_tient (by decide) (fun _ h => Bool.noConfusion h.1.2)
    (fun _ => ⟨rfl, rfl⟩) n

theorem programme_resetN (n : ℕ) :
    (AnemometreAvalon.entrees programme (n + 1)).resetN = true := programme_ecrit n

theorem programme_debut : ∀ n, n ≤ 4 →
    (Anemometre.cycle .fpga (AnemometreAvalon.entrees programme) n).second ≠ .one := by
  decide

/-- The record starts its first window three cycles late. -/
theorem programme_fenetre :
    Anemometre.Fenetre 0 (Anemometre.cycle .fpga (AnemometreAvalon.entrees programme) 3) :=
  Anemometre.fenetre_apres_reset (i := 0) programme_debut rfl (programme_resetN 0)
    (programme_resetN 1)

/-- **The program itself sees the difference**: the copy publishes at cycle
50,000,002, when the record is still measuring. -/
theorem copie_differe :
    (AnemometreAvalon.cycle programme 1).sInternalReset = true ∧
      (readdata (cycle programme 50000003)).getLsbD 8 = true ∧
      (readdata (AnemometreAvalon.cycle programme 50000003)).getLsbD 8 = false ∧
      ¬ Accord programme := by
  have hcopie : (readdata (cycle programme 50000003)).getLsbD 8 = true := by
    rw [AnemometreAvalon.readdata_bit8, cycle_anemometre1, Anemometre.dataValid_iff]
    exact ⟨50000002, by omega, Anemometre.premiere_publication fun _ _ => rfl⟩
  have hrecord : (readdata (AnemometreAvalon.cycle programme 50000003)).getLsbD 8 = false := by
    rw [← Bool.not_eq_true, AnemometreAvalon.readdata_bit8, AnemometreAvalon.cycle_anemometre1,
      Anemometre.dataValid_iff]
    rintro ⟨k, hk, hs⟩
    rcases Nat.lt_or_ge k 3 with hlt | hge
    · exact programme_debut k (by omega) hs
    · refine (Anemometre.fenetre_publie programme_fenetre ?_).2 k hge (by omega) hs
      intro j _
      rw [Nat.add_comm 3 j]
      exact programme_resetN (j + 2)
  refine ⟨programme_ecrit 0, hcopie, hrecord, ?_⟩
  intro h
  have heq := h 50000003
  rw [heq, hrecord] at hcopie
  exact Bool.false_ne_true hcopie

end AnemometreCopie

end BarreFranche
