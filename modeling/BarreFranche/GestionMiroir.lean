/-
# `GestionMiroir` — port and starboard

The two sides of the boat are written out one by one in `gestion_bp`: five pairs of
states, two LEDs, three pairs of codes.  Change the two buttons over and the block
does the same on the other side: with the buttons of a run exchanged, every
register is that of the run, exchanged.

There is one exception and it cannot be avoided by a block that takes one of them
first: both buttons down at an edge where a press begins (`Ambigu`).  State 0 takes
starboard first and state 4 takes port, and the mirror image is lost from that
edge on (`miroir_iff`).
-/
import BarreFranche.GestionEtapes

namespace BarreFranche

open Synchrone

/-- The state on the other side. -/
def Etat.miroir : Etat → Etat
  | .e1 => .e2
  | .e2 => .e1
  | .e6 => .e7
  | .e7 => .e6
  | .e8 => .e10
  | .e10 => .e8
  | .e9 => .e11
  | .e11 => .e9
  | .e12 => .e13
  | .e13 => .e12
  | .e0 => .e0
  | .e3 => .e3
  | .e4 => .e4
  | .e5 => .e5

def Boutons.miroir {α : Type} (b : Boutons α) : Boutons α := ⟨b.tribord, b.babord, b.stby⟩

def GestionEntrees.miroir (e : GestionEntrees) : GestionEntrees := { e with pb := e.pb.miroir }

/-- The code of the other side. -/
def codeMiroir (c : BitVec 4) : BitVec 4 :=
  if c = 0b0001 then 0b0010
  else if c = 0b0010 then 0b0001
  else if c = 0b0100 then 0b0111
  else if c = 0b0111 then 0b0100
  else if c = 0b0101 then 0b0110
  else if c = 0b0110 then 0b0101
  else c

def Sorties.miroir (o : Sorties) : Sorties :=
  { o with
    codeFonction := o.codeFonction.map codeMiroir
    ledTribord := o.ledBabord
    ledBabord := o.ledTribord }

attribute [ext] GestionBoutton

namespace GestionBoutton

/-- The block with the two sides exchanged. -/
def miroir (s : GestionBoutton) : GestionBoutton :=
  { s with
    presentState := s.presentState.miroir
    pbD := s.pbD.miroir
    bp := s.bp.miroir
    sorties := s.sorties.miroir }

/-- A press begins at the edge and both buttons are down. -/
def Ambigu (e : GestionEntrees) (s : GestionBoutton) : Prop :=
  e.resetN = true ∧ (etatAvant e s = .e0 ∨ etatAvant e s = .e4 ∧ s.bp.stby ≠ .zero) ∧
    s.bp.tribord = .zero ∧ s.bp.babord = .zero

section
variable {e : GestionEntrees} {s : GestionBoutton} {q : Etat}

theorem miroir_powerOn (u : PowerUp) : miroir (powerOn u) = powerOn u := by
  cases u <;> rfl

theorem etatAvant_miroir : etatAvant e.miroir s.miroir = (etatAvant e s).miroir := by
  show (if SansReset e then s.presentState.miroir else .e0) = _
  rw [etatAvant]
  split <;> rfl

/-- The transitions of the two sides are the same. -/
theorem etatSuivant_miroir
    (h : (q = .e0 ∨ q = .e4 ∧ s.bp.stby ≠ .zero) →
      ¬ (s.bp.tribord = .zero ∧ s.bp.babord = .zero)) :
    s.miroir.etatSuivant q.miroir = (s.etatSuivant q).miroir := by
  cases q with
  | e0 =>
      have hno := h (Or.inl rfl)
      show (if s.bp.babord = .zero then Etat.e2 else if s.bp.tribord = .zero then .e1
        else if s.bp.stby = .zero then .e3 else .e0) = Etat.miroir (if s.bp.tribord = .zero then .e2
        else if s.bp.babord = .zero then .e1 else if s.bp.stby = .zero then .e3 else .e0)
      split_ifs with hb ht <;> first | rfl | exact absurd ⟨ht, hb⟩ hno
  | e4 =>
      show (if s.bp.stby = .zero then Etat.e5 else if s.bp.tribord = .zero then .e6
        else if s.bp.babord = .zero then .e7 else .e4) = Etat.miroir (if s.bp.stby = .zero then .e5
        else if s.bp.babord = .zero then .e6 else if s.bp.tribord = .zero then .e7 else .e4)
      split_ifs with hs ht hb <;> first | rfl | exact absurd ⟨ht, hb⟩ (h (Or.inr ⟨rfl, hs⟩))
  | e6 | e7 =>
      show _ = Etat.miroir (if _ then _ else if _ then _ else _)
      rw [apply_ite Etat.miroir, apply_ite Etat.miroir]
      rfl
  | e1 | e2 | e3 | e5 | e8 | e9 | e10 | e11 | e12 | e13 =>
      show _ = Etat.miroir (if _ then _ else _)
      rw [apply_ite Etat.miroir]
      rfl

theorem affecte_miroir (q : Etat) : s.miroir.affecte q.miroir = (s.affecte q).miroir := by
  cases q <;> rfl

theorem stable_miroir : Stable e.miroir.pb s.miroir ↔ Stable e.pb s := by
  show _ ∨ _ ∨ _ ↔ _ ∨ _ ∨ _
  exact or_congr_right or_comm

/-- One cycle. -/
theorem etape_miroir (h : ¬ Ambigu e s) : etape e.miroir s.miroir = (etape e s).miroir := by
  have hetat : (etape e.miroir s.miroir).presentState = (etape e s).presentState.miroir := by
    rw [etape_presentState, etape_presentState, etatAvant_miroir]
    show (if e.resetN = false then Etat.e0 else _) = _
    split_ifs with hr
    · rfl
    · rw [Bool.not_eq_false] at hr
      exact etatSuivant_miroir fun hq hb => h ⟨hr, hq, hb⟩
  have hsorties : (etape e.miroir s.miroir).sorties = (etape e s).sorties.miroir := by
    rw [etape_sorties, etape_sorties, hetat, affecte_miroir, apply_ite Sorties.miroir]
    rfl
  have hbp : (etape e.miroir s.miroir).bp = (etape e s).bp.miroir := by
    rw [etape_bp, etape_bp, apply_ite Boutons.miroir]
    exact if_congr (and_congr_right fun _ => stable_miroir) rfl rfl
  have hpbD : (etape e.miroir s.miroir).pbD = (etape e s).pbD.miroir := by
    rw [etape_pbD, etape_pbD, apply_ite Boutons.miroir]
    rfl
  -- the rest does not know the sides
  exact GestionBoutton.ext hetat ((etape_timer2hz _ _).trans (etape_timer2hz e s).symm)
    ((etape_timerPwm _ _).trans (etape_timerPwm e s).symm)
    ((etape_timerBip _ _).trans (etape_timerBip e s).symm)
    ((etape_timerDebounce _ _).trans (etape_timerDebounce e s).symm)
    ((etape_edgeDetector1 _ _).trans (etape_edgeDetector1 e s).symm)
    ((etape_delay _ _).trans (etape_delay e s).symm) hpbD hbp hsorties

/-- Both buttons down: the same side is taken in the mirror. -/
theorem ambigu_brise (h : Ambigu e s) : etape e.miroir s.miroir ≠ (etape e s).miroir := by
  obtain ⟨hr, hq, ht, hb⟩ := h
  have hn : ¬ e.resetN = false := by simp [hr]
  intro heq
  have hetat : (etape e.miroir s.miroir).presentState = (etape e s).presentState.miroir :=
    congrArg presentState heq
  rw [etape_presentState, etape_presentState, etatAvant_miroir, if_neg hn,
    if_neg (show ¬ e.miroir.resetN = false from hn)] at hetat
  rcases hq with hq | ⟨hq, hs⟩
  · rw [hq] at hetat
    simp [etatSuivant, Etat.miroir, miroir, Boutons.miroir, ht, hb] at hetat
  · rw [hq] at hetat
    simp [etatSuivant, Etat.miroir, miroir, Boutons.miroir, ht, hb, hs] at hetat

end

/-! ## Runs -/

section
variable {u : PowerUp} {w : ℕ → GestionEntrees} {n : ℕ}

theorem cycle_miroir (h : ∀ k, k < n → ¬ Ambigu (w k) (cycle u w k)) :
    cycle u (fun k => (w k).miroir) n = (cycle u w n).miroir := by
  induction n with
  | zero => exact (miroir_powerOn u).symm
  | succ n ih =>
      rw [cycle_succ, cycle_succ, ih fun k hk => h k (Nat.lt_succ_of_lt hk)]
      exact etape_miroir (h n n.lt_succ_self)

/-- **The two sides are the same.**  With the two buttons exchanged the block is in
the state of the other side at every cycle, outputs included, up to the first edge
at which a press begins with both buttons down; and at that edge never. -/
theorem miroir_iff (u : PowerUp) (w : ℕ → GestionEntrees) (n : ℕ) :
    (∀ m, m ≤ n → cycle u (fun k => (w k).miroir) m = (cycle u w m).miroir) ↔
      ∀ k, k < n → ¬ Ambigu (w k) (cycle u w k) := by
  constructor
  · intro h k hk ha
    have hsucc := h (k + 1) hk
    rw [cycle_succ, cycle_succ, h k hk.le] at hsucc
    exact ambigu_brise ha hsucc
  · exact fun h m hm => cycle_miroir fun k hk => h k (hk.trans_le hm)

end

end GestionBoutton

end BarreFranche
