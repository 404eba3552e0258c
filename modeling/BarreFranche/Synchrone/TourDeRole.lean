/-
# `Synchrone.TourDeRole` — serving in turn

`n` clients stand in a ring, and a pointer tells where the search for the next
one begins: the client served is the first one with a request from the pointer
on (`Elu`), and the pointer then stands behind it (`apres`).

`ecart n p i` is the number of clients passed on the way from `p` to `i`.  It
falls at every round that serves another client than `i` while `i` asks
(`ecart_apres_lt`), so `n` rounds are enough for `i` to be served once
(`servi`), whatever the others ask for.
-/
import BarreFranche.Synchrone.Pulse

namespace Synchrone

/-- The way from `p` to `i`, in a ring of `n`. -/
def ecart (n p i : ℕ) : ℕ := if p ≤ i then i - p else i + n - p

/-- The client behind `g`. -/
def apres (n g : ℕ) : ℕ := if g + 1 = n then 0 else g + 1

/-- The first client with a request, from the pointer on. -/
structure Elu (n p : ℕ) (demande : ℕ → Prop) (g : ℕ) : Prop where
  lt : g < n
  demandeur : demande g
  premier : ∀ i, i < n → demande i → ecart n p g ≤ ecart n p i

section
variable {n p g i : ℕ} {demande : ℕ → Prop}

theorem ecart_lt (hp : p < n) (hi : i < n) : ecart n p i < n := by
  unfold ecart
  split_ifs <;> omega

theorem apres_lt (hg : g < n) : apres n g < n := by
  unfold apres
  split_ifs <;> omega

/-- A client passed over is closer to the pointer after the round. -/
theorem ecart_apres_lt (hp : p < n) (hg : g < n) (hi : i < n) (hne : g ≠ i)
    (hle : ecart n p g ≤ ecart n p i) : ecart n (apres n g) i < ecart n p i := by
  unfold ecart apres at *
  split_ifs at * <;> omega

/-- Somebody is served if anybody asks. -/
theorem elu_exists (hi : i < n) (hd : demande i) : ∃ g, Elu n p demande g := by
  classical
  have hex : ∃ d g, g < n ∧ demande g ∧ ecart n p g = d := ⟨_, i, hi, hd, rfl⟩
  obtain ⟨g, hg, hdg, heq⟩ := Nat.find_spec hex
  refine ⟨g, hg, hdg, fun j hj hdj => ?_⟩
  rw [heq]
  exact Nat.find_min' hex ⟨j, hj, hdj, rfl⟩

end

/-- **Nobody is passed over for long.**  The pointer moves at the rounds only,
behind the client served; a client that asks at every round of a window with
`n` of them is served at one. -/
theorem servi {n i a b : ℕ} {p : ℕ → ℕ} {demande : ℕ → ℕ → Prop} {tour : ℕ → Prop}
    [DecidablePred tour] (hp : ∀ k, p k < n) (hi : i < n) (hab : a ≤ b)
    (htient : ∀ k, ¬ tour k → p (k + 1) = p k)
    (htourne : ∀ k g, tour k → Elu n (p k) (demande k) g → p (k + 1) = apres n g)
    (hd : ∀ k, a ≤ k → k < b → tour k → demande k i) (hn : n ≤ pulses tour a b) :
    ∃ k, a ≤ k ∧ k < b ∧ tour k ∧ Elu n (p k) (demande k) i := by
  by_contra hno
  have hle : pulses tour a b + ecart n (p b) i ≤ ecart n (p a) i := by
    clear hn
    induction b, hab using Nat.le_induction with
    | base => simp
    | succ b hab ih =>
        have ih' := ih (fun k hak hkb => hd k hak (Nat.lt_succ_of_lt hkb)) (by
          rintro ⟨k, hak, hkb, hk⟩
          exact hno ⟨k, hak, Nat.lt_succ_of_lt hkb, hk⟩)
        rw [pulses_succ hab]
        by_cases ht : tour b
        · have hdi := hd b hab (Nat.lt_succ_self b) ht
          obtain ⟨g, hg⟩ := elu_exists (p := p b) hi hdi
          have hne : g ≠ i := fun he => hno ⟨b, hab, Nat.lt_succ_self b, ht, he ▸ hg⟩
          have hlt := ecart_apres_lt (hp b) hg.lt hi hne (hg.premier i hi hdi)
          rw [if_pos ht, htourne b g ht hg]
          omega
        · rw [if_neg ht, htient b ht]
          exact ih'
  have := ecart_lt (hp a) hi
  omega

end Synchrone
