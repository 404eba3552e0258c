/-
# `Synchrone.Historique` — histories of an object

An object answers one operation at a time: `execute f a` is the answer to `a` with
the contents `f`, and the contents after it.  A history lists operations with their
answers; it is conforming if each answer is the one the object gives with the
contents the operations before have left.

A clocked machine may take several cycles over an operation and hide what it does
in between.  `conforme_passe` is the rule for it: relate the contents of the
machine to those of the object, and let each cycle either finish nothing or one
operation (`Pas`).
-/
import BarreFranche.Synchrone.File

namespace Synchrone

variable {φ α β : Type*}

/-- The contents after a history. -/
def etatFinal (execute : φ → α → β × φ) (f : φ) (l : List (α × β)) : φ :=
  l.foldl (fun f x => (execute f x.1).2) f

/-- Every answer is the one of the object. -/
def Conforme (execute : φ → α → β × φ) : φ → List (α × β) → Prop
  | _, [] => True
  | f, x :: l => x.2 = (execute f x.1).1 ∧ Conforme execute (execute f x.1).2 l

/-- A cycle that finishes nothing, or one operation. -/
def Pas (execute : φ → α → β × φ) (e : Option (α × β)) (f f' : φ) : Prop :=
  match e with
  | none => f' = f
  | some x => execute f x.1 = (x.2, f')

section
variable {execute : φ → α → β × φ} {f : φ} {l : List (α × β)}

theorem etatFinal_append (l' : List (α × β)) :
    etatFinal execute f (l ++ l') = etatFinal execute (etatFinal execute f l) l' :=
  List.foldl_append

theorem conforme_append {l' : List (α × β)} : Conforme execute f (l ++ l') ↔
    Conforme execute f l ∧ Conforme execute (etatFinal execute f l) l' := by
  induction l generalizing f with
  | nil => exact ⟨fun h => ⟨trivial, h⟩, fun h => h.2⟩
  | cons x l ih => exact (and_congr_right fun _ => ih).trans and_assoc.symm

/-- One more cycle. -/
theorem conforme_pas {e : Option (α × β)} {f' : φ} (h : Conforme execute f l)
    (hp : Pas execute e (etatFinal execute f l) f') :
    Conforme execute f (l ++ e.toList) ∧ etatFinal execute f (l ++ e.toList) = f' := by
  cases e with
  | none =>
      rw [Option.toList_none, List.append_nil]
      exact ⟨h, hp.symm⟩
  | some x =>
      have hx : execute (etatFinal execute f l) x.1 = (x.2, f') := hp
      rw [Option.toList_some, conforme_append, etatFinal_append]
      refine ⟨⟨h, ?_, trivial⟩, ?_⟩
      · rw [hx]
      · show (execute (etatFinal execute f l) x.1).2 = f'
        rw [hx]

/-- **The rule.**  What a machine finishes is a history of the object it stands
for. -/
theorem conforme_passe {R : ℕ → φ → Prop} {e : ℕ → Option (α × β)} (h0 : R 0 f)
    (hstep : ∀ k g, R k g → ∃ g', Pas execute (e k) g g' ∧ R (k + 1) g') (n : ℕ) :
    Conforme execute f (passe e 0 n) ∧ R n (etatFinal execute f (passe e 0 n)) := by
  induction n with
  | zero => exact ⟨trivial, h0⟩
  | succ n ih =>
      obtain ⟨g', hp, hr⟩ := hstep n _ ih.2
      obtain ⟨hc, heq⟩ := conforme_pas ih.1 hp
      rw [passe_succ, Nat.zero_add]
      exact ⟨hc, heq ▸ hr⟩

end

end Synchrone
