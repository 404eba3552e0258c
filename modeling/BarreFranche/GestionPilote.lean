/-
# `GestionPilote` — what the autopilot is told

The autopilot sees `codeFonction` and nothing else.  Two things can be read off it,
and each goes back to the buttons:

    engage_iff          it is engaged iff STBY has been pressed alone in state 0 and
                        released, and there has been no reset and no STBY in
                        state 4 since
    un_ordre_par_appui  every heading step it is given is one press of its side,
                        each press at most one step, in order

A reset loses the press it falls into.  Without one nothing is lost: the steps are
the presses, up to the one that is not released yet (`appuis_conserves`).
-/
import BarreFranche.GestionAppui
import BarreFranche.GestionCode
import BarreFranche.Synchrone.File

namespace BarreFranche.GestionBoutton

open Synchrone

/-! ## Engaged -/

/-- The states in which the autopilot steers. -/
def Engage (q : Etat) : Prop := Arme q ∨ Salve q

instance (q : Etat) : Decidable (Engage q) := inferInstanceAs (Decidable (_ ∨ _))

theorem engage_code (q : Etat) : Engage q ↔ 3 ≤ (codeEtat q).toNat := by
  cases q <;> decide

section
variable {s : GestionBoutton} {q : Etat}

theorem vers_engage : Engage (s.etatSuivant q) ↔
    (q = .e3 ∧ s.bp.stby = .one) ∨ (Engage q ∧ ¬ (q = .e4 ∧ s.bp.stby = .zero)) := by
  cases q <;> simp only [etatSuivant] <;> split_ifs <;> simp [Engage, Arme, Salve, *]

theorem vers_e3_iff : s.etatSuivant q = .e3 ↔
    (q = .e0 ∧ s.bp.tribord ≠ .zero ∧ s.bp.babord ≠ .zero ∧ s.bp.stby = .zero) ∨
      (q = .e3 ∧ s.bp.stby ≠ .one) := by
  cases q <;> simp only [etatSuivant] <;> split_ifs <;> simp [*]

end

section
variable (u : PowerUp) (w : ℕ → GestionEntrees)

/-- STBY is taken at edge `k` in state 0. -/
def PriseStby (k : ℕ) : Prop :=
  (w k).resetN = true ∧ etatAvant (w k) (cycle u w k) = .e0 ∧
    (cycle u w k).bp.tribord ≠ .zero ∧ (cycle u w k).bp.babord ≠ .zero ∧
      (cycle u w k).bp.stby = .zero

/-- And it is released at edge `k`. -/
def LacheStby (k : ℕ) : Prop :=
  SansReset (w k) ∧ (cycle u w k).bp.stby = .one ∧
    ∃ j, j < k ∧ PriseStby u w j ∧
      ∀ i, j < i → i < k → SansReset (w i) ∧ (cycle u w i).bp.stby ≠ .one

/-- Edge `k` gives the helm back. -/
def Rend (k : ℕ) : Prop :=
  ¬ SansReset (w k) ∨ (cycle u w k).presentState = .e4 ∧ (cycle u w k).bp.stby = .zero

end

theorem etatAvant_iff {e : GestionEntrees} {s : GestionBoutton} {q : Etat} (hq : q ≠ .e0) :
    etatAvant e s = q ↔ SansReset e ∧ s.presentState = q := by
  rw [etatAvant]
  split_ifs with h
  · exact (and_iff_right h).symm
  · exact iff_of_false hq.symm fun hs => h hs.1

theorem engage_avant {e : GestionEntrees} {s : GestionBoutton} :
    Engage (etatAvant e s) ↔ SansReset e ∧ Engage s.presentState := by
  rw [etatAvant]
  split_ifs with h
  · exact (and_iff_right h).symm
  · exact iff_of_false (by decide) fun hs => h hs.1

section
variable {u : PowerUp} {w : ℕ → GestionEntrees}

theorem e3_iff (n : ℕ) : (cycle u w n).presentState = .e3 ↔ ∃ j, j < n ∧ PriseStby u w j ∧
    ∀ i, j < i → i < n → SansReset (w i) ∧ (cycle u w i).bp.stby ≠ .one := by
  have hstep : ∀ k, (cycle u w (k + 1)).presentState = .e3 ↔ PriseStby u w k ∨
      (cycle u w k).presentState = .e3 ∧
        ¬ ¬ (SansReset (w k) ∧ (cycle u w k).bp.stby ≠ .one) := by
    intro k
    rw [cycle_succ, etape_presentState, not_not]
    split_ifs with hr
    · refine iff_of_false (by decide) ?_
      rintro (h | h)
      · exact Bool.false_ne_true (hr.symm.trans h.1)
      · exact not_sansReset hr h.2.1
    · rw [Bool.not_eq_false] at hr
      rw [vers_e3_iff, etatAvant_iff (q := .e3) (by decide), PriseStby, and_iff_right hr,
        and_comm (a := SansReset (w k)), and_assoc]
  have h0 : ¬ (cycle u w 0).presentState = .e3 := Etat.noConfusion
  have hflag := drapeau_iff (b := fun n => (cycle u w n).presentState = .e3) h0 hstep n
  simpa only [not_not] using hflag

theorem engage_etat (n : ℕ) : Engage (cycle u w n).presentState ↔
    ∃ k, k < n ∧ LacheStby u w k ∧ ∀ i, k < i → i < n → ¬ Rend u w i := by
  have h0 : ¬ Engage (cycle u w 0).presentState := (by decide : ¬ Engage .e0)
  refine drapeau_iff (b := fun n => Engage (cycle u w n).presentState) h0 ?_ n
  intro k
  show Engage (cycle u w (k + 1)).presentState ↔ _ ∨ Engage (cycle u w k).presentState ∧ _
  rw [cycle_succ, etape_presentState]
  split_ifs with hr
  · refine iff_of_false (by decide) ?_
    rintro (h | h)
    · exact not_sansReset hr h.1
    · exact h.2 (Or.inl (not_sansReset hr))
  · have hlache : LacheStby u w k ↔ SansReset (w k) ∧ (cycle u w k).bp.stby = .one ∧
        (cycle u w k).presentState = .e3 := by rw [LacheStby, e3_iff]
    rw [vers_engage, engage_avant, etatAvant_iff (by decide), etatAvant_iff (by decide), hlache,
      Rend]
    tauto

/-- **Engaged by STBY and by nothing else.**  After an edge without reset the code is
one of those of the autopilot iff STBY has been pressed alone in state 0 and
released, at an edge with no reset since and no press of STBY in state 4. -/
theorem engage_iff (u : PowerUp) (w : ℕ → GestionEntrees) (n : ℕ) :
    ((w n).resetN = true ∧
        ∃ c, (cycle u w (n + 1)).sorties.codeFonction = some c ∧ 3 ≤ c.toNat) ↔
      ∃ k, k < n + 1 ∧ LacheStby u w k ∧ ∀ i, k < i → i < n + 1 → ¬ Rend u w i := by
  rw [← engage_etat]
  constructor
  · rintro ⟨hr, c, hc, h3⟩
    rw [code_succ hr, Option.some_inj] at hc
    exact (engage_code _).mpr (hc ▸ h3)
  · intro h
    have hr : (w n).resetN = true := by
      by_contra hr
      rw [Bool.not_eq_true] at hr
      rw [(code_reset hr).2] at h
      exact absurd h (by decide)
    exact ⟨hr, _, code_succ hr, (engage_code _).mp h⟩

end

/-! ## Heading steps -/

/-- A heading step, as `codeFonction` has it: a side and a number of degrees. -/
def ordre (code : Option (BitVec 4)) : Option (Bord × ℕ) :=
  if code = some 0b0100 then some (.babord, 1)
  else if code = some 0b0101 then some (.babord, 10)
  else if code = some 0b0110 then some (.tribord, 10)
  else if code = some 0b0111 then some (.tribord, 1)
  else none

/-- A step the autopilot has not been given yet. -/
def nouveau (avant apres : Option (Bord × ℕ)) : Option (Bord × ℕ) :=
  if apres = avant then none else apres

/-- A press that is taken, from state `q` to `q'`. -/
def pris (q q' : Etat) : Option Bord :=
  if q = .e4 then
    match q' with
    | .e6 => some .babord
    | .e7 => some .tribord
    | _ => none
  else none

/-- The press that has been taken and not been made a step. -/
def enAttente : Etat → List Bord
  | .e6 | .e13 => [.babord]
  | .e7 | .e12 => [.tribord]
  | _ => []

section
variable {s : GestionBoutton} {q : Etat}

/-- One transition loses no press and makes none up. -/
theorem pris_etatSuivant : enAttente q ++ (pris q (s.etatSuivant q)).toList =
    ((nouveau (ordre (some (codeEtat q))) (ordre (some (codeEtat (s.etatSuivant q))))).map
      Prod.fst).toList ++ enAttente (s.etatSuivant q) := by
  cases q <;> simp only [etatSuivant] <;> split_ifs <;> rfl

/-- State 0 gives no step. -/
theorem ordre_e0 (x : Option (Bord × ℕ)) :
    nouveau x (ordre (some (codeEtat (s.etatSuivant .e0)))) = none ∧
      enAttente (s.etatSuivant .e0) = [] := by
  have hnone : ordre (some (codeEtat (s.etatSuivant .e0))) = none ∧
      enAttente (s.etatSuivant .e0) = [] := by
    simp only [etatSuivant]
    split_ifs <;> exact ⟨rfl, rfl⟩
  rw [hnone.1, nouveau]
  exact ⟨ite_self _, hnone.2⟩

end

section
variable (u : PowerUp) (w : ℕ → GestionEntrees)

/-- The step the autopilot is given with edge `k`. -/
def commande (k : ℕ) : Option (Bord × ℕ) :=
  nouveau (ordre (cycle u w k).sorties.codeFonction)
    (ordre (cycle u w (k + 1)).sorties.codeFonction)

/-- And its side. -/
def cote (k : ℕ) : Option Bord := (commande u w k).map Prod.fst

/-- The press taken at edge `k`. -/
def appuiPris (k : ℕ) : Option Bord :=
  pris (etatAvant (w k) (cycle u w k)) (cycle u w (k + 1)).presentState

end

section
variable {u : PowerUp} {w : ℕ → GestionEntrees}

/-- What the autopilot sees is the state, but for the time of a reset. -/
theorem ordre_cycle (n : ℕ) : ordre (cycle u w n).sorties.codeFonction =
    ordre (some (codeEtat (cycle u w n).presentState)) ∨ (cycle u w n).presentState = .e0 := by
  cases n with
  | zero => exact Or.inr rfl
  | succ n =>
      cases hr : (w n).resetN with
      | true => exact Or.inl (congrArg ordre (code_succ hr))
      | false => exact Or.inr (code_reset hr).2

theorem ordre_succ {k : ℕ} (h : SansReset (w k)) :
    enAttente (cycle u w k).presentState ++ (appuiPris u w k).toList =
      (cote u w k).toList ++ enAttente (cycle u w (k + 1)).presentState := by
  have hq : (cycle u w (k + 1)).presentState =
      (cycle u w k).etatSuivant (cycle u w k).presentState := by
    rw [cycle_succ, etape_presentState, h.2, etatAvant, if_pos h]
    rfl
  have hpris : appuiPris u w k =
      pris (cycle u w k).presentState (cycle u w (k + 1)).presentState := by
    rw [appuiPris, etatAvant, if_pos h]
  rw [cote, commande, code_succ h.2, hpris, hq]
  rcases ordre_cycle (u := u) (w := w) k with ho | h0
  · rw [ho]
    exact pris_etatSuivant
  · rw [h0, (ordre_e0 _).1, (ordre_e0 none).2]
    rfl

theorem ordre_reset {k : ℕ} (h : ¬ SansReset (w k)) :
    cote u w k = none ∧ enAttente (cycle u w (k + 1)).presentState = [] := by
  cases hr : (w k).resetN with
  | false =>
      rw [cote, commande, (code_reset hr).1, (code_reset hr).2, nouveau, if_pos rfl]
      exact ⟨rfl, rfl⟩
  | true =>
      have hq : (cycle u w (k + 1)).presentState = (cycle u w k).etatSuivant .e0 := by
        rw [cycle_succ, etape_presentState, hr, etatAvant, if_neg h]
        rfl
      rw [cote, commande, code_succ hr, hq, (ordre_e0 _).1]
      exact ⟨rfl, (ordre_e0 none).2⟩

/-- **A step for a press.**  In every run from power-on, whatever the resets: the
heading steps read off the output are, in order, presses of their side that state 4
has taken, each press one step at most. -/
theorem un_ordre_par_appui (u : PowerUp) (w : ℕ → GestionEntrees) (n : ℕ) :
    (passe (cote u w) 0 n).Sublist (passe (appuiPris u w) 0 n) := by
  have h : (passe (cote u w) 0 n ++ enAttente (cycle u w n).presentState).Sublist
      (passe (appuiPris u w) 0 n) := by
    induction n with
    | zero => exact List.Sublist.refl _
    | succ n ih =>
        rw [passe_succ, passe_succ, Nat.zero_add]
        by_cases hs : SansReset (w n)
        · rw [List.append_assoc, ← ordre_succ hs, ← List.append_assoc]
          exact ih.append_right _
        · rw [(ordre_reset hs).1, (ordre_reset hs).2, Option.toList_none, List.append_nil,
            List.append_nil]
          exact (List.sublist_append_left _ _).trans (ih.trans (List.sublist_append_left _ _))
  exact (List.sublist_append_left _ _).trans h

end

end BarreFranche.GestionBoutton
