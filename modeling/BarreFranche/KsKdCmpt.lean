/-
# `KsKdCmpt` — two counters in cascade

`CascadeCompteur/src/KsKdCmpt.vhd`: a first counter of the enabled cycles, which
at 50,000,000 enables a second one, the digit on the display, and clears itself.
Both happen at the edge after the one that brought it to 50,000,000, and the
clear takes precedence over `Enable`: an `Enable` at this edge is lost.

`bilan` accounts for every enabled edge: it is in the first counter, in an
increment of the digit, or lost.  Between two increments of the digit lie
50,000,000 enabled edges or one more, the last one; no edge is lost, and the
digit is the number of units elapsed, iff no `Enable` comes at an edge that
finds the first counter at 50,000,000 (`compteJuste_iff`).
-/
import BarreFranche.Composants
import BarreFranche.Synchrone.Run
import BarreFranche.Synchrone.Pulse

namespace BarreFranche

open Synchrone

/-- The pins during one cycle: the levels of `AReset_N` before the edge, and
what the edge samples. -/
structure KsKdEntrees where
  niveaux : List Bool
  aResetN : Bool
  enable : Bool
deriving DecidableEq, Repr

/-- The registers of the two counters. -/
structure KsKdCmpt where
  sortie1 : BitVec 27
  sortie2 : BitVec 4
deriving DecidableEq, Repr

namespace KsKdCmpt

/-- `Compt_1.vhd`: the process of `compteur.vhd`. -/
def compt_1 {N : ℕ} (en arstN sRst : StdLogic) (q1 : BitVec N) : BitVec N :=
  compteur arstN sRst en q1

/-- `segments7.vhd`. -/
def varInvers (entre : BitVec 4) : BitVec 7 :=
  if entre = 0b0000#4 then 0b1111110#7
  else if entre = 0b0001#4 then 0b0110000#7
  else if entre = 0b0010#4 then 0b1101101#7
  else if entre = 0b0011#4 then 0b1111001#7
  else if entre = 0b0100#4 then 0b0110011#7
  else if entre = 0b0101#4 then 0b1011011#7
  else if entre = 0b0110#4 then 0b1011111#7
  else if entre = 0b0111#4 then 0b1110000#7
  else if entre = 0b1000#4 then 0b1111111#7
  else if entre = 0b1001#4 then 0b1110011#7
  else if entre = 0b1010#4 then 0b1110111#7
  else if entre = 0b1011#4 then 0b0011111#7
  else if entre = 0b1100#4 then 0b1001110#7
  else if entre = 0b1101#4 then 0b0111101#7
  else if entre = 0b1110#4 then 0b1001111#7
  else 0b1000111#7

def segments7 (entre : BitVec 4) : BitVec 7 := ~~~ varInvers entre

/-- Each digit has a display of its own. -/
theorem segments7_injective : Function.Injective segments7 := by
  show ∀ a b : BitVec 4, segments7 a = segments7 b → a = b
  decide

/-- `sortie_1 >= 50e6`. -/
def internalEnable (s : KsKdCmpt) : StdLogic :=
  if 50000000 ≤ s.sortie1.toNat then .one else .zero

def internalReset (s : KsKdCmpt) : StdLogic := internalEnable s

/-- `SEGMENT`. -/
def segment (s : KsKdCmpt) : BitVec 7 := segments7 s.sortie2

/-- Both counters woken by `AReset_N`. -/
def asynchrone (s : KsKdCmpt) (aResetN : Bool) : KsKdCmpt :=
  if aResetN = false then { sortie1 := 0, sortie2 := 0 } else s

/-- One rising edge of `Clock`: `C1` and `C2`. -/
def front (e : KsKdEntrees) (s : KsKdCmpt) : KsKdCmpt :=
  { sortie1 := compt_1 (.ofBool e.enable) (.ofBool e.aResetN) (internalReset s) s.sortie1
    sortie2 := compt_1 (internalEnable s) (.ofBool e.aResetN) .zero s.sortie2 }

/-- One cycle. -/
def etape (e : KsKdEntrees) (s : KsKdCmpt) : KsKdCmpt :=
  front e ((e.niveaux ++ [e.aResetN]).foldl asynchrone s)

/-- The contents at cycle `n` of a run from `s`. -/
def cycle (s : KsKdCmpt) (w : ℕ → KsKdEntrees) (n : ℕ) : KsKdCmpt :=
  run etape s w n

/-! ## One cycle without reset -/

section
variable {e : KsKdEntrees} {s : KsKdCmpt}

@[simp] theorem internalEnable_eq_one : internalEnable s = .one ↔ 50000000 ≤ s.sortie1.toNat := by
  unfold internalEnable
  split <;> simp [*]

/-- `AReset_N` is '1' throughout the cycle. -/
def SansReset (e : KsKdEntrees) : Prop := (∀ b, b ∈ e.niveaux → b = true) ∧ e.aResetN = true

theorem etape_sansReset (h : SansReset e) : etape e s = front e s := by
  rw [etape, foldl_tient]
  intro b hb
  have hone : b = true := by
    rcases List.mem_append.mp hb with hn | hl
    · exact h.1 b hn
    · exact (List.mem_singleton.mp hl).trans h.2
  rw [hone]
  rfl

theorem etape_sortie1 (h : SansReset e) : (etape e s).sortie1 =
    if 50000000 ≤ s.sortie1.toNat then 0
    else if e.enable = true then s.sortie1 + 1 else s.sortie1 := by
  rw [etape_sansReset h, front, compt_1, h.2]
  simp only [StdLogic.ofBool, compteur_one, internalReset, internalEnable_eq_one]
  cases e.enable <;> rfl

theorem etape_sortie2 (h : SansReset e) : (etape e s).sortie2 =
    if 50000000 ≤ s.sortie1.toNat then s.sortie2 + 1 else s.sortie2 := by
  rw [etape_sansReset h, front, compt_1, compt_1, h.2]
  simp [StdLogic.ofBool, compteur_one]

end

/-! ## Increments -/

/-- Edge `k` is enabled. -/
def Actif (w : ℕ → KsKdEntrees) (k : ℕ) : Prop := (w k).enable = true

instance (w : ℕ → KsKdEntrees) : DecidablePred (Actif w) :=
  fun _ => inferInstanceAs (Decidable (_ = _))

theorem not_actif {w : ℕ → KsKdEntrees} {k : ℕ} : ¬ Actif w k ↔ (w k).enable = false :=
  Bool.not_eq_true _ ▸ Iff.rfl

section
variable (s : KsKdCmpt) (w : ℕ → KsKdEntrees)

/-- Edge `k` increments the digit. -/
def Incremente (k : ℕ) : Prop := (cycle s w (k + 1)).sortie2 = (cycle s w k).sortie2 + 1

instance : DecidablePred (Incremente s w) := fun _ => inferInstanceAs (Decidable (_ = _))

/-- The `Enable` of edge `k` is lost. -/
def Avale (k : ℕ) : Prop := Incremente s w k ∧ Actif w k

instance : DecidablePred (Avale s w) := fun _ => inferInstanceAs (Decidable (_ ∧ _))

/-- Two consecutive increments. -/
structure Consecutifs (e1 e2 : ℕ) : Prop where
  avant : e1 < e2
  premier : Incremente s w e1
  second : Incremente s w e2
  silence : ∀ k, e1 < k → k < e2 → ¬ Incremente s w k

/-- The digit counts units of 50,000,000 enabled edges.

* Two consecutive increments are one unit apart.
* From any cycle at which the first counter is within its range, every enabled
  edge is in it or in one increment: none is swallowed, none is counted twice.
* The digit is, one cycle later, the number of units elapsed modulo 16. -/
structure CompteJuste : Prop where
  unite : ∀ e1 e2, Consecutifs s w e1 e2 → pulses (Actif w) (e1 + 1) (e2 + 1) = 50000000
  uneFois : ∀ a b, a ≤ b → (cycle s w a).sortie1.toNat ≤ 50000000 →
    (cycle s w a).sortie1.toNat + pulses (Actif w) a b =
      50000000 * pulses (Incremente s w) a b + (cycle s w b).sortie1.toNat
  chiffre : ∀ a b, a ≤ b → (cycle s w a).sortie1.toNat ≤ 50000000 →
    (cycle s w (b + 1)).sortie2 = (cycle s w a).sortie2 +
      BitVec.ofNat 4 (((cycle s w a).sortie1.toNat + pulses (Actif w) a b) / 50000000)

end

section
variable {s : KsKdCmpt} {w : ℕ → KsKdEntrees}

theorem cycle_succ (n : ℕ) : cycle s w (n + 1) = etape (w n) (cycle s w n) := run_succ n

theorem incremente_iff {k : ℕ} (h : SansReset (w k)) :
    Incremente s w k ↔ 50000000 ≤ (cycle s w k).sortie1.toNat := by
  rw [Incremente, cycle_succ, etape_sortie2 h]
  split_ifs with hplein
  · exact iff_of_true rfl hplein
  · refine iff_of_false ?_ hplein
    rw [BitVec.self_eq_add_right]
    decide

/-- The display changes at the increments and at no other edge. -/
theorem segment_change {k : ℕ} (h : SansReset (w k)) :
    segment (cycle s w (k + 1)) ≠ segment (cycle s w k) ↔ Incremente s w k := by
  rw [segment, segment, segments7_injective.ne_iff, incremente_iff h, cycle_succ, etape_sortie2 h]
  split_ifs with hplein
  · refine iff_of_true ?_ hplein
    rw [ne_comm, Ne, BitVec.self_eq_add_right]
    decide
  · exact iff_of_false (fun hne => hne rfl) hplein

/-- What an edge makes of the first counter, once it is within its range. -/
theorem sortie1_succ {k : ℕ} (h : SansReset (w k)) (hle : (cycle s w k).sortie1.toNat ≤ 50000000) :
    (cycle s w k).sortie1.toNat + (if Actif w k then 1 else 0) =
      50000000 * (if Incremente s w k then 1 else 0) + (cycle s w (k + 1)).sortie1.toNat +
        (if Avale s w k then 1 else 0) := by
  have hz : (0 : BitVec 27).toNat = 0 := rfl
  rw [cycle_succ, etape_sortie1 h]
  by_cases hinc : Incremente s w k
  · have hplein := (incremente_iff h).mp hinc
    by_cases ha : Actif w k
    · rw [if_pos hplein, if_pos hinc, if_pos ha, if_pos ⟨hinc, ha⟩, hz]
      omega
    · rw [if_pos hplein, if_pos hinc, if_neg ha, if_neg fun hv : Avale s w k => ha hv.2, hz]
      omega
  · have hplein := fun hp => hinc ((incremente_iff h).mpr hp)
    rw [if_neg hplein, if_neg hinc, if_neg fun hv : Avale s w k => hinc hv.1]
    by_cases ha : Actif w k
    · have hincr : ((cycle s w k).sortie1 + 1).toNat = (cycle s w k).sortie1.toNat + 1 :=
        toNat_incr (by omega)
      rw [if_pos ha, if_pos (show (w k).enable = true from ha), hincr]
      omega
    · rw [if_neg ha, if_neg (show ¬ (w k).enable = true from ha)]
      omega

/-- The first counter stays within its range. -/
theorem sortie1_le {k : ℕ} (h : SansReset (w k)) (hle : (cycle s w k).sortie1.toNat ≤ 50000000) :
    (cycle s w (k + 1)).sortie1.toNat ≤ 50000000 := by
  rw [cycle_succ, etape_sortie1 h]
  split_ifs with hplein
  · exact Nat.zero_le _
  · rw [toNat_incr (by omega)]
    omega
  · exact hle

/-- **Every enabled edge is accounted for**: it is counted in the first counter
or in an increment of the digit, or it came with an increment and is lost. -/
theorem bilan {a b : ℕ} (hab : a ≤ b) (hreset : ∀ k, a ≤ k → k < b → SansReset (w k))
    (ha : (cycle s w a).sortie1.toNat ≤ 50000000) :
    (cycle s w a).sortie1.toNat + pulses (Actif w) a b =
        50000000 * pulses (Incremente s w) a b + (cycle s w b).sortie1.toNat +
          pulses (Avale s w) a b ∧
      (cycle s w b).sortie1.toNat ≤ 50000000 := by
  induction b, hab using Nat.le_induction with
  | base => simpa using ha
  | succ b hab ih =>
      obtain ⟨hsum, hle⟩ := ih fun k hk hkb => hreset k hk (by omega)
      have hb : SansReset (w b) := hreset b hab b.lt_succ_self
      have hstep := sortie1_succ hb hle
      rw [pulses_succ hab, pulses_succ hab, pulses_succ hab, Nat.mul_add]
      exact ⟨by omega, sortie1_le hb hle⟩

/-- An increment leaves the first counter at 0. -/
theorem sortie1_incremente {k : ℕ} (h : SansReset (w k)) (hinc : Incremente s w k) :
    (cycle s w (k + 1)).sortie1.toNat = 0 := by
  rw [cycle_succ, etape_sortie1 h, if_pos ((incremente_iff h).mp hinc)]
  rfl

section
variable {e1 e2 : ℕ} (hreset : ∀ k, e1 ≤ k → k ≤ e2 → SansReset (w k))

include hreset

/-- From one increment to another. -/
theorem bilan_increments (h12 : e1 ≤ e2) (h1 : Incremente s w e1) (h2 : Incremente s w e2) :
    pulses (Actif w) (e1 + 1) (e2 + 1) =
      50000000 * pulses (Incremente s w) (e1 + 1) (e2 + 1) +
        pulses (Avale s w) (e1 + 1) (e2 + 1) := by
  have hz1 := sortie1_incremente (hreset e1 le_rfl h12) h1
  have hz2 := sortie1_incremente (hreset e2 h12 le_rfl) h2
  have hb := (bilan (s := s) (w := w) (a := e1 + 1) (b := e2 + 1) (by omega)
    (fun k hk hk2 => hreset k (by omega) (by omega)) (by omega)).1
  omega

/-- **One unit.**  Between two consecutive increments lie 50,000,000 enabled
edges, and one more if the second comes with an `Enable`. -/
theorem unite_eq (h : Consecutifs s w e1 e2) : pulses (Actif w) (e1 + 1) (e2 + 1) =
    50000000 + if Actif w e2 then 1 else 0 := by
  have hle : e1 + 1 ≤ e2 := h.avant
  rw [bilan_increments hreset (Nat.le_of_succ_le hle) h.premier h.second, pulses_succ hle,
    pulses_succ hle, pulses_eq_zero fun k hk hk2 => h.silence k hk hk2,
    pulses_eq_zero fun k hk hk2 hv => h.silence k hk hk2 hv.1, if_pos h.second]
  by_cases ha : Actif w e2
  · rw [if_pos ha, if_pos ⟨h.second, ha⟩]
  · rw [if_neg ha, if_neg fun hv : Avale s w e2 => ha hv.2]

end

section
variable (hreset : ∀ k, SansReset (w k)) {a b : ℕ} (hab : a ≤ b)

include hreset hab

/-- The digit counts its increments. -/
theorem chiffre_increments : (cycle s w b).sortie2 =
    (cycle s w a).sortie2 + BitVec.ofNat 4 (pulses (Incremente s w) a b) := by
  refine counter_eq (c := fun k => (cycle s w k).sortie2) hab ?_
  intro k _ _
  rw [cycle_succ, etape_sortie2 (hreset k)]
  exact if_congr (incremente_iff (hreset k)).symm rfl rfl

variable (ha : (cycle s w a).sortie1.toNat ≤ 50000000)
  (hplein : ∀ k, (cycle s w k).sortie1.toNat = 50000000 → (w k).enable = false)

include ha hplein

/-- With the range kept, an edge that is lost finds the first counter full. -/
theorem uneFois_eq : (cycle s w a).sortie1.toNat + pulses (Actif w) a b =
    50000000 * pulses (Incremente s w) a b + (cycle s w b).sortie1.toNat := by
  rw [(bilan hab (fun k _ _ => hreset k) ha).1, Nat.add_eq_left]
  refine pulses_eq_zero ?_
  intro k hk _ hv
  have hle := (bilan hk (fun j _ _ => hreset j) ha).2
  have hge := (incremente_iff (hreset k)).mp hv.1
  exact not_actif.mpr (hplein k (Nat.le_antisymm hle hge)) hv.2

/-- The digit follows the first counter by one cycle: at 50,000,000 the unit is
over and not yet on display. -/
theorem chiffre_eq : (cycle s w (b + 1)).sortie2 = (cycle s w a).sortie2 +
    BitVec.ofNat 4 (((cycle s w a).sortie1.toNat + pulses (Actif w) a b) / 50000000) := by
  have hle := (bilan hab (fun k _ _ => hreset k) ha).2
  have hinc : Incremente s w b ↔ (cycle s w b).sortie1.toNat = 50000000 :=
    (incremente_iff (hreset b)).trans ⟨fun h => Nat.le_antisymm hle h, fun h => h.ge⟩
  rw [chiffre_increments hreset (Nat.le_succ_of_le hab), uneFois_eq hreset hab ha hplein,
    pulses_succ hab, Nat.mul_add_div (by decide)]
  congr 3
  by_cases hfull : (cycle s w b).sortie1.toNat = 50000000
  · rw [if_pos (hinc.mpr hfull), hfull]
  · rw [if_neg fun h => hfull (hinc.mp h),
      Nat.div_eq_of_lt (Nat.lt_of_le_of_ne hle hfull)]

end

/-- **The cascade counts right** iff `Enable` is '0' at every edge that finds
the first counter at 50,000,000: from any contents and for every stream of
`Enable`, with `AReset_N` at '1'. -/
theorem compteJuste_iff (s : KsKdCmpt) (w : ℕ → KsKdEntrees) (hreset : ∀ k, SansReset (w k)) :
    CompteJuste s w ↔
      ∀ k, (cycle s w k).sortie1.toNat = 50000000 → (w k).enable = false := by
  constructor
  · intro h k hk
    -- one edge: 50,000,000 and the enabled one, for an increment and a cleared counter
    have hinc : Incremente s w k := (incremente_iff (hreset k)).mpr hk.ge
    have hsum := h.uneFois k (k + 1) k.le_succ hk.le
    rw [pulses_succ le_rfl, pulses_succ le_rfl, pulses_self, pulses_self, if_pos hinc, hk,
      sortie1_incremente (hreset k) hinc] at hsum
    refine not_actif.mp ?_
    intro ha
    rw [if_pos ha] at hsum
    exact absurd hsum (by decide)
  · intro hplein
    refine ⟨?_, ?_, ?_⟩
    · intro e1 e2 hc
      have hz := sortie1_incremente (hreset e1) hc.premier
      have hle := (bilan (s := s) (w := w) (a := e1 + 1) hc.avant (fun k _ _ => hreset k)
        (by omega)).2
      have hfull : (cycle s w e2).sortie1.toNat = 50000000 :=
        Nat.le_antisymm hle ((incremente_iff (hreset e2)).mp hc.second)
      rw [unite_eq (fun k _ _ => hreset k) hc, if_neg (not_actif.mpr (hplein e2 hfull))]
    · intro a b hab ha
      exact uneFois_eq hreset hab ha hplein
    · intro a b hab ha
      exact chiffre_eq hreset hab ha hplein

end

/-! ## A regular `Enable` -/

/-- Both counters after a reset. -/
def efface : KsKdCmpt := { sortie1 := 0, sortie2 := 0 }

/-- `Enable` at '1', but for a level `b` at every 50,000,001st edge. -/
def regulier (b : Bool) (k : ℕ) : KsKdEntrees :=
  { niveaux := []
    aResetN := true
    enable := b || decide (k % 50000001 ≠ 50000000) }

theorem regulier_sansReset (b : Bool) (k : ℕ) : SansReset (regulier b k) :=
  ⟨fun _ hb => absurd hb List.not_mem_nil, rfl⟩

/-- The digit is incremented at these edges, whatever their level. -/
theorem regulier_sortie1 (b : Bool) (k : ℕ) :
    (cycle efface (regulier b) k).sortie1.toNat = k % 50000001 := by
  induction k with
  | zero => rfl
  | succ k ih =>
      rw [cycle_succ, etape_sortie1 (regulier_sansReset b k), ih]
      split_ifs with hplein hen
      · show 0 = _
        omega
      · rw [toNat_incr (by omega), ih]
        omega
      · refine absurd ?_ hen
        simp only [regulier, Bool.or_eq_true, decide_eq_true_eq]
        right
        omega

theorem regulier_incremente {b : Bool} {k : ℕ} :
    Incremente efface (regulier b) k ↔ k % 50000001 = 50000000 := by
  rw [incremente_iff (regulier_sansReset b k), regulier_sortie1]
  omega

theorem regulier_consecutifs (b : Bool) :
    Consecutifs efface (regulier b) 50000000 100000001 where
  avant := by decide
  premier := regulier_incremente.mpr (by decide)
  second := regulier_incremente.mpr (by decide)
  silence := by
    intro k hk hk2 hinc
    have := regulier_incremente.mp hinc
    omega

/-- With the exceptional level at '0' nothing is lost. -/
theorem compteJuste_iff_temoin : CompteJuste efface (regulier false) := by
  refine (compteJuste_iff efface (regulier false) (regulier_sansReset false)).mpr ?_
  intro k hk
  rw [regulier_sortie1] at hk
  simp [regulier, hk]

/-- **`Enable` constantly at '1'**: a unit takes 50,000,001 enabled edges. -/
theorem enable_avale :
    (∀ k, SansReset (regulier true k) ∧ (regulier true k).enable = true) ∧
      Consecutifs efface (regulier true) 50000000 100000001 ∧
      pulses (Actif (regulier true)) 50000001 100000002 = 50000001 ∧
      ¬ CompteJuste efface (regulier true) := by
  have hu : pulses (Actif (regulier true)) 50000001 100000002 = 50000001 :=
    pulses_eq_sub fun _ _ _ => rfl
  refine ⟨fun k => ⟨regulier_sansReset true k, rfl⟩, regulier_consecutifs true, hu, ?_⟩
  intro h
  rw [h.unite _ _ (regulier_consecutifs true)] at hu
  exact absurd hu (by decide)

end KsKdCmpt

end BarreFranche
