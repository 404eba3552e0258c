/-
# `Composants` — comparateur, compteur, diviseur, edge_detector

The small entities of `Functions_dev/components`.  A clocked entity is given
by what one rising edge makes of its registers; a combinational one is a
function.  Vectors are bit vectors of the entity's own width: every counter
has an initial value, so no 'U' ever enters one.

Beside each definition stand the lemmas that replace it in later proofs.
-/
import BarreFranche.StdLogic
import Mathlib.Tactic.Ring

namespace BarreFranche

variable {N P : ℕ}

/-! ## comparateur.vhd -/

/-- `sortie_comparaison`: "100" for `a > b`, "010" for `a = b`, "001" for
`a < b`.  On defined vectors one of the three branches is always taken. -/
def comparateur (valeurA valeurB : BitVec N) : BitVec 3 :=
  if valeurA = valeurB then 0b010#3
  else if valeurB < valeurA then 0b100#3
  else 0b001#3

/-- Element `i` of a vector, as a signal. -/
def bit (v : BitVec N) (i : ℕ) : StdLogic := .ofBool (v.getLsbD i)

@[simp] theorem comparateur_gt {a b : BitVec N} :
    bit (comparateur a b) 2 = .one ↔ b.toNat < a.toNat := by
  unfold comparateur bit
  by_cases h : a = b
  · simp [h]
  · by_cases hlt : b < a
    · simpa [h, hlt] using BitVec.lt_def.mp hlt
    · simpa [h, hlt] using fun hn => hlt (BitVec.lt_def.mpr hn)

@[simp] theorem comparateur_eq {a b : BitVec N} :
    bit (comparateur a b) 1 = .one ↔ a.toNat = b.toNat := by
  unfold comparateur bit
  by_cases h : a = b
  · simp [h]
  · have hne : a.toNat ≠ b.toNat := fun hn => h (BitVec.eq_of_toNat_eq hn)
    by_cases hlt : b < a <;> simp [h, hlt, hne]

@[simp] theorem comparateur_lt {a b : BitVec N} :
    bit (comparateur a b) 0 = .one ↔ a.toNat < b.toNat := by
  unfold comparateur bit
  by_cases h : a = b
  · simp [h]
  · have hne : a.toNat ≠ b.toNat := fun hn => h (BitVec.eq_of_toNat_eq hn)
    by_cases hlt : b < a
    · have := BitVec.lt_def.mp hlt
      simp only [h, hlt, if_false, if_true]
      simp
      omega
    · have hn : ¬ b.toNat < a.toNat := fun hn => hlt (BitVec.lt_def.mpr hn)
      simp only [h, hlt, if_false]
      simp
      omega

/-- An element of a vector of '0' and '1' is not 'U'. -/
theorem bit_eq_zero {v : BitVec N} {i : ℕ} : bit v i = .zero ↔ ¬ bit v i = .one := by
  simp [bit]

/-! ## compteur.vhd -/

/-- `pCompteur` at a rising edge: asynchronous clear, then synchronous clear,
then enable. -/
def compteur (arstN sRst en : StdLogic) (count : BitVec N) : BitVec N :=
  if arstN = .zero then 0
  else if sRst = .one then 0
  else if en = .one then count + 1
  else count

/-- No instance uses the asynchronous clear: `arst_n` is tied to '1'. -/
theorem compteur_one {sRst en : StdLogic} {count : BitVec N} :
    compteur .one sRst en count =
      if sRst = .one then 0 else if en = .one then count + 1 else count := by
  simp [compteur]

@[simp] theorem compteur_clear {sRst en : StdLogic} {count : BitVec N} (h : sRst = .one) :
    compteur .one sRst en count = 0 := by
  simp [compteur_one, h]

@[simp] theorem compteur_hold {sRst en : StdLogic} {count : BitVec N} (h : sRst ≠ .one)
    (he : en ≠ .one) : compteur .one sRst en count = count := by
  simp [compteur_one, h, he]

@[simp] theorem compteur_incr {sRst en : StdLogic} {count : BitVec N} (h : sRst ≠ .one)
    (he : en = .one) : compteur .one sRst en count = count + 1 := by
  simp [compteur_one, h, he]

theorem toNat_incr {v : BitVec N} (h : v.toNat + 1 < 2 ^ N) : (v + 1).toNat = v.toNat + 1 := by
  have h1 : (1 : BitVec N).toNat = 1 := by
    have : 1 < 2 ^ N := by omega
    simpa using Nat.mod_eq_of_lt this
  rw [BitVec.toNat_add, h1, Nat.mod_eq_of_lt h]

/-- The counter wraps at the top of its width. -/
theorem incr_eq_zero {v : BitVec N} (h : ¬ v.toNat + 1 < 2 ^ N) : v + 1 = 0 := by
  have hv := v.isLt
  have htop : v.toNat + 1 = 2 ^ N := by omega
  apply BitVec.eq_of_toNat_eq
  calc (v + 1).toNat = (v.toNat + 1 % 2 ^ N) % 2 ^ N := by simp
    _ = (v.toNat + 1) % 2 ^ N := by rw [Nat.add_mod_mod]
    _ = (0 : BitVec N).toNat := by simp [htop]

/-- A counter advances by one at most, whatever its ports carry. -/
theorem compteur_le (arstN sRst en : StdLogic) (count : BitVec N) :
    (compteur arstN sRst en count).toNat ≤ count.toNat + 1 := by
  simp only [compteur]
  split_ifs
  · simp
  · simp
  · have h1 : (1 : BitVec N).toNat ≤ 1 := by simpa using Nat.mod_le 1 (2 ^ N)
    rw [BitVec.toNat_add]
    exact (Nat.mod_le _ _).trans (Nat.add_le_add_left h1 _)
  · exact Nat.le_succ _

theorem toNat_pred {v : BitVec N} (h : 1 ≤ v.toNat) : (v - 1).toNat = v.toNat - 1 := by
  have hv := v.isLt
  have h1 : (1 : BitVec N).toNat = 1 := by
    have : 1 < 2 ^ N := by omega
    simpa using Nat.mod_eq_of_lt this
  rw [BitVec.toNat_sub, h1]
  have : 2 ^ N - 1 + v.toNat = v.toNat - 1 + 2 ^ N := by omega
  rw [this, Nat.add_mod_right, Nat.mod_eq_of_lt (by omega)]

/-! ## diviseur.vhd

One register, the count of `U1`; `prescaler_value` is `Prescaler - 1`. -/

/-- `sortie_comparateur` of `J1`. -/
def sortieComparateur (prescaler sortieCompteur : BitVec P) : BitVec 3 :=
  comparateur sortieCompteur (prescaler - 1)

/-- `DivOutput <= sortie_comparateur(1)`. -/
def divOutput (prescaler sortieCompteur : BitVec P) : StdLogic :=
  bit (sortieComparateur prescaler sortieCompteur) 1

/-- One rising edge of the divider; `reset_synchrone` is the reset or an
overshoot of the comparison. -/
def diviseur (enable reset : StdLogic) (prescaler sortieCompteur : BitVec P) : BitVec P :=
  compteur .one (reset.or (bit (sortieComparateur prescaler sortieCompteur) 2)) enable
    sortieCompteur

theorem divOutput_eq_one {prescaler c : BitVec P} (h : 1 ≤ prescaler.toNat) :
    divOutput prescaler c = .one ↔ c.toNat + 1 = prescaler.toNat := by
  unfold divOutput sortieComparateur
  rw [comparateur_eq, toNat_pred h]
  omega

theorem diviseur_reset {enable reset : StdLogic} {prescaler c : BitVec P} (h : reset = .one) :
    diviseur enable reset prescaler c = 0 := by
  unfold diviseur
  exact compteur_clear (by simp [h])

/-- Past `Prescaler - 1` the divider clears itself. -/
theorem diviseur_wrap {enable reset : StdLogic} {prescaler c : BitVec P}
    (h : 1 ≤ prescaler.toNat) (hc : prescaler.toNat ≤ c.toNat) :
    diviseur enable reset prescaler c = 0 := by
  unfold diviseur sortieComparateur
  apply compteur_clear
  rw [StdLogic.or_eq_one, comparateur_gt, toNat_pred h]
  omega

theorem diviseur_hold {enable reset : StdLogic} {prescaler c : BitVec P}
    (h : 1 ≤ prescaler.toNat) (hr : reset ≠ .one) (hc : c.toNat < prescaler.toNat)
    (he : enable ≠ .one) : diviseur enable reset prescaler c = c := by
  unfold diviseur sortieComparateur
  apply compteur_hold _ he
  rw [Ne, StdLogic.or_eq_one, comparateur_gt, toNat_pred h]
  rintro (h1 | h1)
  · exact hr h1
  · omega

theorem diviseur_incr {enable reset : StdLogic} {prescaler c : BitVec P}
    (h : 1 ≤ prescaler.toNat) (hr : reset ≠ .one) (hc : c.toNat < prescaler.toNat)
    (he : enable = .one) : (diviseur enable reset prescaler c).toNat = c.toNat + 1 := by
  have hP := prescaler.isLt
  unfold diviseur sortieComparateur
  rw [compteur_incr _ he, toNat_incr (by omega)]
  rw [Ne, StdLogic.or_eq_one, comparateur_gt, toNat_pred h]
  rintro (h1 | h1)
  · exact hr h1
  · omega

/-- Whatever its ports carry, the divider advances by one at most. -/
theorem diviseur_le (enable reset : StdLogic) (prescaler c : BitVec P) :
    (diviseur enable reset prescaler c).toNat ≤ c.toNat + 1 :=
  compteur_le _ _ _ _

/-! ## edge_detector.vhd -/

/-- The two registers of `edge_detector`. -/
structure EdgeDetector where
  fInD : StdLogic
  detectedEdge : StdLogic
deriving DecidableEq, Repr

/-- Only `f_in_d` has an initial value. -/
def EdgeDetector.powerOn (u : PowerUp) : EdgeDetector :=
  { fInD := .zero, detectedEdge := u.level }

/-- One rising edge of `edge_detector`. -/
def EdgeDetector.front (reset fIn : StdLogic) (s : EdgeDetector) : EdgeDetector :=
  { fInD := fIn
    detectedEdge :=
      if reset = .one then .zero
      else if s.fInD = .zero ∧ fIn = .one then .one
      else .zero }

theorem EdgeDetector.front_detected {reset fIn : StdLogic} {s : EdgeDetector} :
    (s.front reset fIn).detectedEdge = .one ↔
      reset ≠ .one ∧ s.fInD = .zero ∧ fIn = .one := by
  unfold EdgeDetector.front
  by_cases hr : reset = .one
  · simp [hr]
  · by_cases hf : s.fInD = .zero ∧ fIn = .one <;> simp [hr, hf]

end BarreFranche
