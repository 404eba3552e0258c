/-
# `GestionEtapes` — what one cycle of the push-button block can do

A reset before the edge acts on `present_State` alone (`avantFront_eq`), so a
cycle is one of three:

    no level of reset_n is '0'       present_State takes its transition
    a '0', but not at the edge       the transition from state 0 is taken
    '0' at the edge                  state 0, and gestion_bp writes nothing

(`etape_presentState`).  The later modules read the block through the lemmas
below and not through `front`.

Port and starboard are handled by the same transitions on different states:
`Bord` names the side, and with it the states of a press.
-/
import BarreFranche.GestionBoutton

namespace BarreFranche.GestionBoutton

open Synchrone

/-! ## Classes of states -/

/-- Port or starboard. -/
inductive Bord where
  | babord
  | tribord
deriving DecidableEq, Repr

namespace Bord

def bouton : Bord → Bouton
  | babord => .babord
  | tribord => .tribord

/-- The manual command. -/
def manuel : Bord → Etat
  | babord => .e1
  | tribord => .e2

/-- A press whose length is not decided yet. -/
def appui : Bord → Etat
  | babord => .e6
  | tribord => .e7

/-- A long press, not released yet. -/
def maintien : Bord → Etat
  | babord => .e13
  | tribord => .e12

/-- The burst of a step of 1 degree. -/
def pas1 : Bord → Etat
  | babord => .e9
  | tribord => .e11

/-- The burst of a step of 10 degrees. -/
def pas10 : Bord → Etat
  | babord => .e8
  | tribord => .e10

/-- The codes of the header: increments to port, decrements to starboard. -/
def code1 : Bord → BitVec 4
  | babord => 0b0100
  | tribord => 0b0111

def code10 : Bord → BitVec 4
  | babord => 0b0101
  | tribord => 0b0110

end Bord

/-- The states with a burst: 8 to 11. -/
def Salve (q : Etat) : Prop := q = .e8 ∨ q = .e9 ∨ q = .e10 ∨ q = .e11

/-- The states of the automatic pilot without a burst. -/
def Arme (q : Etat) : Prop := q = .e4 ∨ q = .e6 ∨ q = .e7 ∨ q = .e12 ∨ q = .e13

instance (q : Etat) : Decidable (Salve q) := inferInstanceAs (Decidable (_ ∨ _))

instance (q : Etat) : Decidable (Arme q) := inferInstanceAs (Decidable (_ ∨ _))

/-- The code written on entry of a state. -/
def codeEtat : Etat → BitVec 4
  | .e0 | .e3 | .e5 => 0b0000
  | .e1 => 0b0001
  | .e2 => 0b0010
  | .e4 | .e6 | .e7 | .e12 | .e13 => 0b0011
  | .e8 => 0b0101
  | .e9 => 0b0100
  | .e10 => 0b0110
  | .e11 => 0b0111

section
variable {q : Etat} (b : Bord)

theorem arme_appui : Arme b.appui := by
  cases b <;> decide

theorem arme_maintien : Arme b.maintien := by
  cases b <;> decide

theorem salve_pas1 : Salve b.pas1 := by
  cases b <;> decide

theorem salve_pas10 : Salve b.pas10 := by
  cases b <;> decide

theorem manuel_ne_e0 : b.manuel ≠ .e0 := by
  cases b <;> decide

theorem Arme.ne_e0 (h : Arme q) : q ≠ .e0 := by
  rintro rfl
  exact absurd h (by decide)

theorem Salve.ne_e0 (h : Salve q) : q ≠ .e0 := by
  rintro rfl
  exact absurd h (by decide)

theorem Arme.not_salve (h : Arme q) : ¬ Salve q := by
  rcases h with rfl | rfl | rfl | rfl | rfl <;> decide

/-- An armed state but 4 is a press of one side. -/
theorem arme_cas (h : Arme q) : q = .e4 ∨ ∃ b : Bord, q = b.appui ∨ q = b.maintien := by
  rcases h with rfl | rfl | rfl | rfl | rfl
  · exact Or.inl rfl
  · exact Or.inr ⟨.babord, Or.inl rfl⟩
  · exact Or.inr ⟨.tribord, Or.inl rfl⟩
  · exact Or.inr ⟨.tribord, Or.inr rfl⟩
  · exact Or.inr ⟨.babord, Or.inr rfl⟩

variable {b} {b' : Bord}

theorem arme_prise (h : q = b.appui ∨ q = b.maintien) : Arme q := by
  rcases h with rfl | rfl
  · exact arme_appui b
  · exact arme_maintien b

/-- A press of one side is not one of the other. -/
theorem bord_unique (h : q = b.appui ∨ q = b.maintien) (h' : q = b'.appui ∨ q = b'.maintien) :
    b' = b := by
  cases b <;> cases b' <;> first | rfl | (rcases h with rfl | rfl <;> simp [Bord.appui,
    Bord.maintien] at h')

end

/-! ## The transitions of a side -/

section
variable (s : GestionBoutton) (b : Bord)

theorem etatSuivant_e4 : s.etatSuivant .e4 =
    if s.bp.stby = .zero then .e5
    else if s.bp.babord = .zero then .e6
    else if s.bp.tribord = .zero then .e7
    else .e4 := rfl

theorem etatSuivant_appui : s.etatSuivant b.appui =
    if s.bp.get b.bouton = .zero ∧ 2 ≤ s.delay then b.maintien
    else if s.bp.get b.bouton = .one ∧ s.delay < 2 then b.pas1
    else b.appui := by
  cases b <;> rfl

theorem etatSuivant_maintien : s.etatSuivant b.maintien =
    if s.bp.get b.bouton = .one then b.pas10 else b.maintien := by
  cases b <;> rfl

theorem etatSuivant_salve {q : Etat} (hq : Salve q) : s.etatSuivant q =
    if s.bipEnd = .one then .e4 else q := by
  obtain rfl | rfl | rfl | rfl := hq <;> rfl

theorem affecte_codeFonction (q : Etat) :
    (s.affecte q).codeFonction = some (codeEtat q) := by
  cases q <;> rfl

/-- A press leaves `bip_reset` alone. -/
theorem affecte_bipReset {q : Etat} {b : Bord} (h : q = b.appui ∨ q = b.maintien) :
    (s.affecte q).bipReset = s.sorties.bipReset := by
  rcases h with rfl | rfl <;> cases b <;> rfl

end

/-! ## Where a state comes from -/

section
variable {s : GestionBoutton} {b : Bord} {q : Etat}

/-- A press is taken from state 4 only, with the button at '0'. -/
theorem vers_appui (h : s.etatSuivant q = b.appui) :
    q = b.appui ∨ (q = .e4 ∧ s.bp.get b.bouton = .zero) := by
  cases q <;> cases b <;> simp only [etatSuivant, Bord.appui] at h ⊢ <;> split_ifs at h <;>
    simp_all [Boutons.get, Bord.bouton]

/-- The manual command is taken from state 0 only, with the button at '0'. -/
theorem vers_manuel (h : s.etatSuivant q = b.manuel) :
    (q = b.manuel ∧ s.bp.get b.bouton ≠ .one) ∨ (q = .e0 ∧ s.bp.get b.bouton = .zero) := by
  cases q <;> cases b <;> simp only [etatSuivant, Bord.manuel] at h ⊢ <;> split_ifs at h <;>
    simp_all [Boutons.get, Bord.bouton]

/-- A long press is an unreleased press of two `Delay` counts. -/
theorem vers_maintien (h : s.etatSuivant q = b.maintien) :
    (q = b.appui ∧ s.bp.get b.bouton = .zero ∧ 2 ≤ s.delay) ∨
      (q = b.maintien ∧ s.bp.get b.bouton ≠ .one) := by
  cases q <;> cases b <;> simp only [etatSuivant, Bord.maintien] at h ⊢ <;> split_ifs at h <;>
    simp_all [Boutons.get, Bord.bouton, Bord.appui]

/-- State 4 is left for state 3 or a burst, and kept with STBY not pressed. -/
theorem vers_e4 (h : s.etatSuivant q = .e4) :
    q = .e4 ∨ (q = .e3 ∧ s.bp.stby = .one) ∨ (Salve q ∧ s.bipEnd = .one) := by
  cases q <;> simp only [etatSuivant] at h ⊢ <;> split_ifs at h <;>
    simp_all [Salve]

theorem vers_e3 (h : s.etatSuivant q = .e3) :
    (q = .e3 ∧ s.bp.stby ≠ .one) ∨ (q = .e0 ∧ s.bp.stby = .zero) := by
  cases q <;> simp only [etatSuivant] at h ⊢ <;> split_ifs at h <;> simp_all

theorem appui_salve (h : Salve (s.etatSuivant b.appui)) :
    s.bp.get b.bouton = .one ∧ s.etatSuivant b.appui = b.pas1 ∧ s.delay < 2 := by
  rw [etatSuivant_appui] at h ⊢
  split_ifs at h ⊢ with h1 h2
  · exact absurd h (arme_maintien b).not_salve
  · exact ⟨h2.1, rfl, h2.2⟩
  · exact absurd h (arme_appui b).not_salve

theorem maintien_salve (h : Salve (s.etatSuivant b.maintien)) :
    s.bp.get b.bouton = .one ∧ s.etatSuivant b.maintien = b.pas10 := by
  rw [etatSuivant_maintien] at h ⊢
  split_ifs at h ⊢ with h1
  · exact ⟨h1, rfl⟩
  · exact absurd h (arme_maintien b).not_salve

/-- A burst goes on, or is started by the release of a press. -/
theorem vers_salve (h : Salve (s.etatSuivant q)) :
    (Salve q ∧ s.etatSuivant q = q ∧ s.bipEnd ≠ .one) ∨
      ∃ b : Bord, s.bp.get b.bouton = .one ∧
        ((q = b.appui ∧ s.etatSuivant q = b.pas1 ∧ s.delay < 2) ∨
          (q = b.maintien ∧ s.etatSuivant q = b.pas10)) := by
  by_cases hq : Salve q
  · left
    rw [etatSuivant_salve s hq] at h ⊢
    split_ifs at h ⊢ with hend
    · exact absurd h (by decide)
    · exact ⟨hq, rfl, hend⟩
  · right
    cases q with
    | e6 =>
        obtain ⟨h1, h2⟩ := appui_salve (b := .babord) h
        exact ⟨.babord, h1, Or.inl ⟨rfl, h2⟩⟩
    | e7 =>
        obtain ⟨h1, h2⟩ := appui_salve (b := .tribord) h
        exact ⟨.tribord, h1, Or.inl ⟨rfl, h2⟩⟩
    | e12 =>
        obtain ⟨h1, h2⟩ := maintien_salve (b := .tribord) h
        exact ⟨.tribord, h1, Or.inr ⟨rfl, h2⟩⟩
    | e13 =>
        obtain ⟨h1, h2⟩ := maintien_salve (b := .babord) h
        exact ⟨.babord, h1, Or.inr ⟨rfl, h2⟩⟩
    | e8 | e9 | e10 | e11 => exact absurd (by decide) hq
    | e0 | e1 | e2 | e3 | e4 | e5 =>
        simp only [etatSuivant] at h
        split_ifs at h <;> exact absurd h (by decide)

end

/-! ## One cycle -/

/-- No level of the cycle resets the block. -/
def SansReset (e : GestionEntrees) : Prop := false ∉ e.niveaux ∧ e.resetN = true

instance (e : GestionEntrees) : Decidable (SansReset e) := inferInstanceAs (Decidable (_ ∧ _))

theorem not_sansReset {e : GestionEntrees} (h : e.resetN = false) : ¬ SansReset e :=
  fun hs => Bool.false_ne_true (h.symm.trans hs.2)

/-- `present_State` as the edge finds it. -/
def etatAvant (e : GestionEntrees) (s : GestionBoutton) : Etat :=
  if SansReset e then s.presentState else .e0

theorem foldl_asynchrone (s : GestionBoutton) : ∀ l : List Bool,
    l.foldl asynchrone s = { s with presentState := if false ∈ l then .e0 else s.presentState }
  | [] => by simp
  | a :: l => by
      rw [List.foldl_cons, foldl_asynchrone _ l]
      cases a <;> simp [asynchrone]

/-- The levels before the edge act on `present_State` alone. -/
theorem avantFront_eq (e : GestionEntrees) (s : GestionBoutton) :
    avantFront e s = { s with presentState := etatAvant e s } := by
  rw [avantFront, foldl_asynchrone, etatAvant]
  congr 1
  cases hr : e.resetN <;> simp [SansReset, hr, ite_not]

section
variable (e : GestionEntrees) (s : GestionBoutton)

/-- The new state, reset or not. -/
theorem etape_presentState : (etape e s).presentState =
    if e.resetN = false then .e0 else s.etatSuivant (etatAvant e s) := by
  rw [etape, avantFront_eq]
  cases hr : e.resetN with
  | false => simp [front, hr]
  | true =>
      simp only [front, hr]
      cases etatAvant e s <;> rfl

theorem etape_sorties : (etape e s).sorties =
    if e.resetN = false then s.sorties else s.affecte (etape e s).presentState := by
  rw [etape, avantFront_eq]
  simp only [front]
  split_ifs with hr
  · rfl
  · generalize etatSuivant _ _ = q
    cases q <;> rfl

theorem etape_timer2hz :
    (etape e s).timer2hz = Timer.front (ports2hz e.resetN) s.timer2hz := by
  rw [etape, avantFront_eq]; rfl

theorem etape_timerPwm : (etape e s).timerPwm = Timer.front (portsPwm e.resetN) s.timerPwm := by
  rw [etape, avantFront_eq]; rfl

theorem etape_timerBip : (etape e s).timerBip = Timer.front s.portsBip s.timerBip := by
  rw [etape, avantFront_eq]; rfl

theorem etape_timerDebounce :
    (etape e s).timerDebounce = Timer.front portsDebounce s.timerDebounce := by
  rw [etape, avantFront_eq]; rfl

theorem etape_edgeDetector1 : (etape e s).edgeDetector1 =
    s.edgeDetector1.front (internalReset e.resetN) s.clk500ms := by
  rw [etape, avantFront_eq]; rfl

theorem etape_delay : (etape e s).delay =
    compteur .one s.sorties.resetDelay s.clkDetectedEdge s.delay := by
  rw [etape, avantFront_eq]; rfl

theorem etape_pbD :
    (etape e s).pbD = if s.miliS = .one then e.pb.niveaux else s.pbD := by
  rw [etape, avantFront_eq]; rfl

theorem etape_bp : (etape e s).bp =
    if s.miliS = .one ∧ Stable e.pb s then e.pb.niveaux else s.bp := by
  rw [etape, avantFront_eq]; rfl

end

variable {u : PowerUp} {w : ℕ → GestionEntrees}

@[simp] theorem cycle_zero : cycle u w 0 = powerOn u := run_zero

theorem cycle_succ (n : ℕ) : cycle u w (n + 1) = etape (w n) (cycle u w n) := run_succ n

/-- The rules of runs, for this block. -/
theorem cycle_at {I : ℕ → GestionBoutton → Prop} (h0 : I 0 (powerOn u))
    (hstep : ∀ n, I n (cycle u w n) → I (n + 1) (etape (w n) (cycle u w n))) (n : ℕ) :
    I n (cycle u w n) :=
  run_at h0 hstep n

theorem cycle_window {I : ℕ → GestionBoutton → Prop} {a d : ℕ} (ha : I 0 (cycle u w a))
    (hstep : ∀ k, k < d → I k (cycle u w (a + k)) →
      I (k + 1) (etape (w (a + k)) (cycle u w (a + k)))) :
    ∀ k, k ≤ d → I k (cycle u w (a + k)) :=
  run_window ha hstep

section
variable {e : GestionEntrees} {s : GestionBoutton}

/-- Without a reset the state takes its transition. -/
theorem etape_sansReset (h : SansReset e) :
    (etape e s).presentState = s.etatSuivant s.presentState := by
  simp [etape_presentState, etatAvant, h, h.2]

/-- A state other than 0 is the result of a transition. -/
theorem etape_ne_e0 (h : (etape e s).presentState ≠ .e0) :
    e.resetN ≠ false ∧ (etape e s).presentState = s.etatSuivant (etatAvant e s) := by
  rw [etape_presentState] at h ⊢
  split_ifs at h ⊢ with hr
  · exact absurd rfl h
  · exact ⟨hr, rfl⟩

/-- And a state other than 0 before the edge is the state before the cycle. -/
theorem etatAvant_ne_e0 {q : Etat} (hq : q ≠ .e0) (h : etatAvant e s = q) :
    s.presentState = q ∧ SansReset e := by
  rw [etatAvant] at h
  split_ifs at h with hr
  · exact ⟨h, hr⟩
  · exact absurd h.symm hq

theorem etatSuivant_e0 : s.etatSuivant .e0 = .e0 ∨ s.etatSuivant .e0 = .e1 ∨
    s.etatSuivant .e0 = .e2 ∨ s.etatSuivant .e0 = .e3 := by
  simp only [etatSuivant]
  split_ifs <;> simp

/-- Outside state 0 the outputs are those of the state. -/
theorem etape_sorties_of_ne (h : (etape e s).presentState ≠ .e0) :
    (etape e s).sorties = s.affecte (etape e s).presentState := by
  rw [etape_sorties, if_neg (etape_ne_e0 h).1]

/-- A cycle that ends in an armed state or in a burst has no reset: with one,
it ends in a state 0 to 3. -/
theorem sansReset_of_haut (h : Arme (etape e s).presentState ∨ Salve (etape e s).presentState) :
    SansReset e := by
  by_contra hr
  have hne : (etape e s).presentState ≠ .e0 := h.elim Arme.ne_e0 Salve.ne_e0
  rw [(etape_ne_e0 hne).2, etatAvant, if_neg hr] at h
  rcases etatSuivant_e0 (s := s) with h1 | h1 | h1 | h1 <;> rw [h1] at h <;>
    exact absurd h (by decide)

end

/-- A state that no transition leaves, without a reset. -/
theorem attente_run {q : Etat} {a n : ℕ} (han : a ≤ n) (ha : (cycle u w a).presentState = q)
    (h : ∀ k, a ≤ k → k < n → SansReset (w k) ∧ (cycle u w k).etatSuivant q = q) :
    (cycle u w n).presentState = q := by
  obtain ⟨d, rfl⟩ := Nat.exists_eq_add_of_le han
  refine cycle_window (I := fun _ s => s.presentState = q) ha (fun k hk hs => ?_) d le_rfl
  obtain ⟨hr, hq⟩ := h (a + k) (Nat.le_add_right a k) (Nat.add_lt_add_left hk a)
  rw [etape_sansReset hr, hs, hq]

/-! ## The latched outputs -/

/-- A property of the outputs that every state with `H` assigns. -/
theorem sorties_of_etat {H : Etat → Prop} {I : Sorties → Prop} (h0 : ¬ H .e0)
    (haff : ∀ s q, H q → I (affecte s q)) {n : ℕ} (h : H (cycle u w n).presentState) :
    I (cycle u w n).sorties := by
  cases n with
  | zero => exact absurd h h0
  | succ n =>
      rw [cycle_succ] at h ⊢
      have hne : (etape (w n) (cycle u w n)).presentState ≠ .e0 := fun he => h0 (he ▸ h)
      rw [etape_sorties_of_ne hne]
      exact haff _ _ h

theorem code_etat {n : ℕ} {q : Etat} (h : (cycle u w n).presentState = q) (hq : q ≠ .e0) :
    (cycle u w n).sorties.codeFonction = some (codeEtat q) :=
  sorties_of_etat (H := (· = q)) (I := fun o => o.codeFonction = some (codeEtat q)) hq.symm
    (fun s _ hx => hx ▸ affecte_codeFonction s _) h

theorem resetDelay_e4 {n : ℕ} (h : (cycle u w n).presentState = .e4) :
    (cycle u w n).sorties.resetDelay = .one :=
  sorties_of_etat (H := (· = .e4)) (I := fun o => o.resetDelay = .one) (by decide)
    (fun _ _ hx => hx ▸ rfl) h

theorem resetDelay_appui {n : ℕ} {b : Bord} (h : (cycle u w n).presentState = b.appui) :
    (cycle u w n).sorties.resetDelay = .zero :=
  sorties_of_etat (H := (· = b.appui)) (I := fun o => o.resetDelay = .zero)
    (arme_appui b).ne_e0.symm (fun _ _ hx => by rw [hx]; cases b <;> rfl) h

theorem bipReset_e4 {n : ℕ} (h : (cycle u w n).presentState = .e4) :
    (cycle u w n).sorties.bipReset = .zero :=
  sorties_of_etat (H := (· = .e4)) (I := fun o => o.bipReset = .zero) (by decide)
    (fun _ _ hx => hx ▸ rfl) h

theorem bipReset_salve {n : ℕ} (h : Salve (cycle u w n).presentState) :
    (cycle u w n).sorties.bipReset = .one :=
  sorties_of_etat (H := Salve) (I := fun o => o.bipReset = .one) (by decide)
    (fun s q hq => by obtain rfl | rfl | rfl | rfl := hq <;> rfl) h

end BarreFranche.GestionBoutton
