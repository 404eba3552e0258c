/-
# `AnemometreConservation` — where the edges of the sensor go

In continuous mode the windows follow each other without a pause, so every
detected edge should be counted in one published value.  At a publication the
counter is loaded into the output; the clear goes through `internal_reset` and
reaches the counter one edge later, with priority over counting.  What is
detected in the cycle of a publication or in the next is therefore in no value:

    cycle       t         t + 1       t + 2
    counter     loaded    cleared     0
    edges       lost      lost        counted in the next value

and the published values add up to the detected edges iff no edge falls there
(`conservation_iff`).
-/
import BarreFranche.AnemometreMesure
import Mathlib.Algebra.BigOperators.Group.Finset.Basic
import Mathlib.Algebra.Order.BigOperators.Group.Finset

namespace BarreFranche.Anemometre

open Synchrone

variable {u : PowerUp} {w : ℕ → AnemometreEntrees}

/-- Consecutive publications at `t 0 < t 1 < ... < t k`. -/
structure Publications (u : PowerUp) (w : ℕ → AnemometreEntrees) (t : ℕ → ℕ) (k : ℕ) : Prop where
  publie : ∀ i, i ≤ k → (cycle u w (t i)).second = .one
  croissant : ∀ i, i < k → t i < t (i + 1)
  silence : ∀ i, i < k → ∀ c, t i < c → c < t (i + 1) → (cycle u w c).second ≠ .one

theorem Publications.pred {t : ℕ → ℕ} {k : ℕ} (h : Publications u w t (k + 1)) :
    Publications u w t k where
  publie := fun i hi => h.publie i (by omega)
  croissant := fun i hi => h.croissant i (by omega)
  silence := fun i hi => h.silence i (by omega)

/-- A publication is not at power-on. -/
theorem publie_pos {t : ℕ} (h : (cycle u w t).second = .one) : 0 < t := by
  rcases Nat.eq_zero_or_pos t with rfl | ht
  · exact absurd h (PowerUp.level_ne_one u)
  · exact ht

/-- The edges detected in the two cycles of a hand-over are those sampled at
the two edges before. -/
theorem detections_relais {t : ℕ} (ht : 0 < t) :
    detections u w t (t + 2) = 0 ↔ frontMontant w (t - 1) = false ∧ frontMontant w t = false := by
  obtain ⟨s, rfl⟩ : ∃ s, t = s + 1 := ⟨t - 1, by omega⟩
  rw [show s + 1 + 2 = s + 2 + 1 by omega, detections_eq (by omega),
    pulses_succ (by omega), pulses_succ le_rfl, pulses_self, Nat.add_sub_cancel]
  cases frontMontant w s <;> cases frontMontant w (s + 1) <;> simp

section
variable (hrun : ∀ k, (w k).continu = true ∧ (w k).resetN = true)
  (hsp : ∀ x y, x < y → frontMontant w x = true → frontMontant w y = true →
    x + 200000 ≤ y)

include hrun

/-- The next publication is one period later. -/
theorem Publications.succ_eq {t : ℕ → ℕ} {k i : ℕ} (h : Publications u w t k) (hi : i < k) :
    t (i + 1) = t i + 50000005 := by
  have hsec := h.publie i (by omega)
  have hpos : 0 < t i := publie_pos hsec
  have hcont : ∀ j, 0 ≤ j → (w j).continu = true ∧ (w j).resetN = true := fun j _ => hrun j
  rcases Nat.lt_trichotomy (t (i + 1)) (t i + 50000005) with hlt | heq | hgt
  · exact absurd (h.publie (i + 1) hi)
      (continu_silence hpos hcont hsec (h.croissant i hi) hlt)
  · exact heq
  · exact absurd (continu_publie hpos hcont hsec) (h.silence i hi _ (by omega) hgt)

include hsp

/-- The sum of the published values, and of what falls into the hand-overs. -/
theorem Publications.bilan {t : ℕ → ℕ} {k : ℕ} (h : Publications u w t k) :
    (∑ i ∈ Finset.range k, (cycle u w (t (i + 1) + 1)).dataAnemometre.toNat) +
        ∑ i ∈ Finset.range k, detections u w (t i) (t i + 2) =
      detections u w (t 0) (t k) ∧ t 0 ≤ t k := by
  induction k with
  | zero => simp [detections]
  | succ k ih =>
      obtain ⟨hsum, hle⟩ := ih h.pred
      have hsec := h.publie k (by omega)
      have hval := continu_valeur (publie_pos hsec) (fun j _ => hrun j) hsec hsp
      have heq : t (k + 1) = t k + 50000005 := h.succ_eq hrun (Nat.lt_succ_self k)
      have hsplit : detections u w (t 0) (t (k + 1)) = detections u w (t 0) (t k) +
          (detections u w (t k) (t k + 2) + detections u w (t k + 2) (t (k + 1))) := by
        unfold detections
        rw [← pulses_add (by omega) (by omega), ← pulses_add hle (by omega)]
      rw [Finset.sum_range_succ, Finset.sum_range_succ, hsplit, ← hsum, heq, hval]
      exact ⟨by omega, by omega⟩

/-- **Conservation of the edges.**  Continuous mode, sampled rising edges at
least 200,000 cycles apart, consecutive publications at `t 0 < ... < t k`: the
values published at `t 1`, ..., `t k` add up to the edges detected from `t 0`
to `t k` iff no rising edge is sampled at the edge before `t i` or at the edge
`t i`, for any `i < k`. -/
theorem conservation_iff {t : ℕ → ℕ} {k : ℕ}
    (hpub : ∀ i, i ≤ k → (cycle u w (t i)).second = .one)
    (hlt : ∀ i, i < k → t i < t (i + 1))
    (hno : ∀ i, i < k → ∀ c, t i < c → c < t (i + 1) → (cycle u w c).second ≠ .one) :
    (∑ i ∈ Finset.range k, (cycle u w (t (i + 1) + 1)).dataAnemometre.toNat) =
        detections u w (t 0) (t k) ↔
      ∀ i, i < k → frontMontant w (t i - 1) = false ∧ frontMontant w (t i) = false := by
  have h : Publications u w t k := ⟨hpub, hlt, hno⟩
  have hperdu : (∑ i ∈ Finset.range k, detections u w (t i) (t i + 2)) = 0 ↔
      ∀ i, i < k → frontMontant w (t i - 1) = false ∧ frontMontant w (t i) = false := by
    rw [Finset.sum_eq_zero_iff]
    refine forall_congr' ?_
    intro i
    rw [Finset.mem_range]
    refine imp_congr_right ?_
    intro hi
    exact detections_relais (publie_pos (hpub i (by omega)))
  rw [← hperdu, ← (h.bilan hrun hsp).1]
  omega

end

/-! ## Two windows -/

/-- The first publications in continuous mode. -/
def publication (i : ℕ) : ℕ := 50000002 + 50000005 * i

theorem publication_succ (i : ℕ) : publication (i + 1) = publication i + 50000005 := by
  simp only [publication, Nat.mul_add, Nat.mul_one, Nat.add_assoc]

theorem continu_publications (hrun : ∀ k, (w k).continu = true ∧ (w k).resetN = true) :
    ∀ i, (cycle u w (publication i)).second = .one
  | 0 => premiere_publication fun k _ => (hrun k).2
  | i + 1 => by
      have ih := continu_publications hrun i
      rw [publication_succ]
      exact continu_publie (publie_pos ih) (fun j _ => hrun j) ih

theorem continu_consecutives (hrun : ∀ k, (w k).continu = true ∧ (w k).resetN = true) {i c : ℕ}
    (hc : publication i < c) (hc' : c < publication (i + 1)) : (cycle u w c).second ≠ .one := by
  have hi : (cycle u w (publication i)).second = .one := continu_publications hrun i
  rw [publication_succ] at hc'
  exact continu_silence (publie_pos hi) (fun j _ => hrun j) hi hc hc'

/-- One edge in each of two windows, and nothing lost. -/
theorem conservation_iff_temoin :
    (∑ i ∈ Finset.range 2, (cycle .simulation (deuxFronts 60000000 110000000)
        (publication (i + 1) + 1)).dataAnemometre.toNat) =
      detections .simulation (deuxFronts 60000000 110000000) (publication 0) (publication 2) ∧
    1 ≤ detections .simulation (deuxFronts 60000000 110000000) (publication 0) (publication 1) ∧
    1 ≤ detections .simulation (deuxFronts 60000000 110000000) (publication 1)
      (publication 2) := by
  have hfront := frontMontant_deuxFronts (a := 60000000) (b := 110000000) (by decide)
  have hvue : ∀ i j c : ℕ, publication i = j + 1 → j ≤ c → c < publication (i + 1) - 1 →
      (c = 60000000 ∨ c = 110000000) → 1 ≤ detections .simulation (deuxFronts 60000000 110000000)
        (publication i) (publication (i + 1)) := by
    intro i j c hi hjc hc hcf
    obtain ⟨m, hm⟩ : ∃ m, publication (i + 1) = m + 1 :=
      ⟨publication (i + 1) - 1, by rw [publication_succ]; omega⟩
    rw [hi, hm, detections_eq (by omega)]
    exact pulses_pos hjc (by omega) ((hfront c).mpr hcf)
  refine ⟨?_, hvue 0 50000001 60000000 (by decide) (by decide) (by decide) (Or.inl rfl),
    hvue 1 100000006 110000000 (by decide) (by decide) (by decide) (Or.inr rfl)⟩
  refine (conservation_iff (fun _ => ⟨rfl, rfl⟩)
    (fun x y hxy => deuxFronts_espaces (by decide) hxy)
    (fun i _ => continu_publications (fun _ => ⟨rfl, rfl⟩) i)
    (fun i _ => by
      rw [publication_succ]
      exact Nat.lt_add_of_pos_right (by decide))
    (fun i _ c => continu_consecutives fun _ => ⟨rfl, rfl⟩)).mpr ?_
  intro i hi
  rw [← Bool.not_eq_true, ← Bool.not_eq_true, hfront, hfront, publication]
  omega

/-- A sensor that rises once, at the edge before the first publication. -/
def auRelais : ℕ → AnemometreEntrees := fun k => ⟨decide (50000001 ≤ k), true, true, false⟩

theorem frontMontant_auRelais (k : ℕ) : frontMontant auRelais k = true ↔ k = 50000001 := by
  cases k with
  | zero => simp [frontMontant, auRelais]
  | succ k =>
      simp only [frontMontant, auRelais, Bool.and_eq_true, Bool.not_eq_true', decide_eq_true_eq,
        decide_eq_false_iff_not]
      omega

/-- **An edge that no value counts**: it is detected in the cycle of the first
publication, and the second publishes 0. -/
theorem front_perdu :
    (∀ k, (auRelais k).continu = true ∧ (auRelais k).resetN = true) ∧
      (cycle .fpga auRelais 50000002).second = .one ∧
      (cycle .fpga auRelais (50000002 + 50000005)).second = .one ∧
      (∀ c, 50000002 < c → c < 50000002 + 50000005 → (cycle .fpga auRelais c).second ≠ .one) ∧
      (cycle .fpga auRelais (50000002 + 50000006)).dataAnemometre.toNat = 0 ∧
      detections .fpga auRelais 50000002 (50000002 + 50000005) = 1 := by
  have hrun : ∀ k, (auRelais k).continu = true ∧ (auRelais k).resetN = true := fun _ => ⟨rfl, rfl⟩
  have hsec : (cycle .fpga auRelais 50000002).second = .one :=
    premiere_publication fun k _ => (hrun k).2
  have hseul : ∀ k, frontMontant auRelais k = true → k = 50000001 :=
    fun k => (frontMontant_auRelais k).mp
  have hval := continu_valeur (by omega) (fun j (_ : 0 ≤ j) => hrun j) hsec (by
    intro x y hxy hx hy
    rw [hseul x hx, hseul y hy] at hxy
    exact absurd hxy (lt_irrefl _))
  refine ⟨hrun, hsec, continu_publie (by omega) (fun j (_ : 0 ≤ j) => hrun j) hsec,
    fun c => continu_silence (by omega) (fun j (_ : 0 ≤ j) => hrun j) hsec, ?_, ?_⟩
  · rw [hval, show 50000002 + 2 = 50000003 + 1 by omega,
      show 50000002 + 50000005 = 100000006 + 1 by omega, detections_eq (by omega)]
    refine pulses_eq_zero ?_
    intro k hk _ hfront
    rw [hseul k hfront] at hk
    exact absurd hk (by decide)
  · rw [show 50000002 + 50000005 = 100000006 + 1 by omega,
      show 50000002 = 50000001 + 1 by omega, detections_eq (by omega)]
    exact pulses_eq_one le_rfl (by omega) ((frontMontant_auRelais _).mpr rfl)
      (fun k _ _ => hseul k)

end BarreFranche.Anemometre
