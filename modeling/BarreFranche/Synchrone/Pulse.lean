/-
# `Synchrone.Pulse` — counting pulses between two cycles

`pulses p a b` is the number of cycles `u` with `a ≤ u < b` at which `p`
holds.  The facts used everywhere a counter meets a time window:

    pulses_add       windows concatenate
    pulses_spaced    pulses at least `d` cycles apart: `n + 1` of them need
                     more than `n * d` cycles
    pulses_ecart     the spacing of a periodic signal
    counter_eq       a wrapping counter enabled by `p` and not cleared holds
                     its start value plus the pulses
    drapeau_iff      a flag raised at some cycles and taken back at others
    registre_eq      a register loaded at the pulses of `p` holds what the last
                     one loaded

The end of the file is about the shape of a level in a window: on one interval
(`UnCreneau`) or on two (`DeuxCreneaux`).
-/
import Mathlib.Order.Interval.Finset.Nat
import Mathlib.Data.Finset.Card
import Mathlib.Tactic.Ring
import Mathlib.Tactic.Linarith

namespace Synchrone

variable (p : ℕ → Prop) [DecidablePred p]

/-- The number of cycles `u`, `a ≤ u < b`, at which `p` holds. -/
def pulses (a b : ℕ) : ℕ := ((Finset.Ico a b).filter p).card

variable {p}

@[simp] theorem pulses_self (a : ℕ) : pulses p a a = 0 := by
  simp [pulses]

theorem pulses_succ {a b : ℕ} (hab : a ≤ b) :
    pulses p a (b + 1) = pulses p a b + (if p b then 1 else 0) := by
  unfold pulses
  rw [show b + 1 = b.succ from rfl, Nat.Ico_succ_right_eq_insert_Ico hab, Finset.filter_insert]
  split
  · rw [Finset.card_insert_of_notMem (by simp)]
  · rfl

/-- Counting up to `c` is counting up to `b` and then from `b`. -/
theorem pulses_add {a b c : ℕ} (hab : a ≤ b) (hbc : b ≤ c) :
    pulses p a c = pulses p a b + pulses p b c := by
  induction c, hbc using Nat.le_induction with
  | base => simp
  | succ c hbc ih =>
      rw [pulses_succ (hab.trans hbc), pulses_succ hbc, ih, Nat.add_assoc]

theorem pulses_mono {a b c : ℕ} (hab : a ≤ b) (hbc : b ≤ c) :
    pulses p a b ≤ pulses p a c := by
  rw [pulses_add hab hbc]
  exact Nat.le_add_right _ _

theorem pulses_eq_zero {a b : ℕ} (h : ∀ u, a ≤ u → u < b → ¬ p u) : pulses p a b = 0 := by
  unfold pulses
  rw [Finset.card_eq_zero, Finset.filter_eq_empty_iff]
  intro u hu
  rw [Finset.mem_Ico] at hu
  exact h u hu.1 hu.2

theorem pulses_eq_sub {a b : ℕ} (h : ∀ u, a ≤ u → u < b → p u) : pulses p a b = b - a := by
  unfold pulses
  rw [Finset.filter_true_of_mem, Nat.card_Ico]
  intro u hu
  rw [Finset.mem_Ico] at hu
  exact h u hu.1 hu.2

/-- Counting a signal one cycle late. -/
theorem pulses_shift {q : ℕ → Prop} [DecidablePred q] {a b : ℕ} (hab : a ≤ b)
    (h : ∀ u, a ≤ u → u < b → (q (u + 1) ↔ p u)) : pulses q (a + 1) (b + 1) = pulses p a b := by
  induction b, hab using Nat.le_induction with
  | base => simp
  | succ b hab ih =>
      rw [pulses_succ (Nat.succ_le_succ hab), pulses_succ hab,
        ih (fun u hau hub => h u hau (by omega))]
      simp only [h b hab (by omega)]

/-- A signal that pulses once. -/
theorem pulses_eq_one {a b c : ℕ} (hac : a ≤ c) (hcb : c < b) (hc : p c)
    (h : ∀ u, a ≤ u → u < b → p u → u = c) : pulses p a b = 1 := by
  have hpre : pulses p a c = 0 :=
    pulses_eq_zero fun u hau huc hu => absurd (h u hau (by omega) hu) (by omega)
  have hpost : pulses p (c + 1) b = 0 :=
    pulses_eq_zero fun u hau hub hu => absurd (h u (by omega) hub hu) (by omega)
  rw [pulses_add (by omega : a ≤ c + 1) hcb, pulses_succ hac, hpre, hpost, if_pos hc]

theorem pulses_pos {a b u : ℕ} (hau : a ≤ u) (hub : u < b) (hu : p u) :
    1 ≤ pulses p a b := by
  unfold pulses
  apply Finset.card_pos.mpr
  exact ⟨u, by simp [hau, hub, hu]⟩

/-- The first moment at which `n` pulses have been counted. -/
theorem pulses_premier {a d n : ℕ} (h : n ≤ pulses p a (a + d)) :
    ∃ i, i ≤ d ∧ n ≤ pulses p a (a + i) ∧ ∀ k, k < i → pulses p a (a + k) < n := by
  have hex : ∃ i, n ≤ pulses p a (a + i) := ⟨d, h⟩
  refine ⟨Nat.find hex, Nat.find_le h, Nat.find_spec hex, ?_⟩
  intro k hk
  exact Nat.lt_of_not_le (Nat.find_min hex hk)

/-- Spaced pulses: the last of `n + 1` pulses comes at least `n * d` cycles
after the window opens.  The induction is on the end of the window; each new
pulse lies `d` cycles after the last one counted. -/
theorem pulses_last {d a b : ℕ} (hab : a ≤ b)
    (hd : ∀ u v, a ≤ u → u < v → v < b → p u → p v → u + d ≤ v) :
    pulses p a b = 0 ∨
      ∃ l, l < b ∧ a ≤ l ∧ p l ∧ a + (pulses p a b - 1) * d ≤ l := by
  induction b, hab using Nat.le_induction with
  | base => exact Or.inl (pulses_self a)
  | succ b hab ih =>
      have hd' : ∀ u v, a ≤ u → u < v → v < b → p u → p v → u + d ≤ v :=
        fun u v hau huv hvb => hd u v hau huv (by omega)
      rw [pulses_succ hab]
      by_cases hb : p b
      · rw [if_pos hb]
        right
        refine ⟨b, by omega, hab, hb, ?_⟩
        rcases ih hd' with h0 | ⟨l, hlb, hal, hl, hle⟩
        · rw [h0]; simpa using hab
        · have hgap : l + d ≤ b := hd l b hal hlb (by omega) hl hb
          have hpos : 1 ≤ pulses p a b := pulses_pos hal hlb hl
          have hmul : (pulses p a b + 1 - 1) * d = (pulses p a b - 1) * d + d := by
            rw [← Nat.succ_mul]
            congr 1
            omega
          omega
      · rw [if_neg hb, Nat.add_zero]
        rcases ih hd' with h0 | ⟨l, hlb, hal, hl, hle⟩
        · exact Or.inl h0
        · exact Or.inr ⟨l, by omega, hal, hl, hle⟩

/-- `n + 1` pulses at least `d` cycles apart need a window longer than `n * d`. -/
theorem pulses_spaced {d a b : ℕ} (hab : a ≤ b)
    (hd : ∀ u v, a ≤ u → u < v → v < b → p u → p v → u + d ≤ v) {n : ℕ}
    (hn : b - a ≤ n * d) : pulses p a b ≤ n := by
  rcases pulses_last hab hd with h0 | ⟨l, hlb, hal, -, hle⟩
  · omega
  · by_contra hlt
    have hmul : n * d ≤ (pulses p a b - 1) * d := Nat.mul_le_mul_right d (by omega)
    omega

/-- A signal that pulses at `a` and every `L` cycles from there on: its
consecutive pulses are `D` cycles apart only for `D = L`. -/
theorem pulses_ecart {p : ℕ → Prop} {a L : ℕ} (hL : 0 < L)
    (hp : ∀ n, p n ↔ a ≤ n ∧ (n - a) % L = 0) {D : ℕ} :
    (∀ n m, n < m → p n → p m → (∀ k, n < k → k < m → ¬ p k) → m = n + D) ↔ D = L := by
  constructor
  · intro h
    have h0 : p a := (hp a).mpr ⟨le_rfl, by simp⟩
    have h1 : p (a + L) := (hp _).mpr ⟨by omega, by simp⟩
    have hno : ∀ k, a < k → k < a + L → ¬ p k := by
      intro k hk hk' hpk
      obtain ⟨-, hmod⟩ := (hp k).mp hpk
      rw [Nat.mod_eq_of_lt (by omega)] at hmod
      omega
    have := h a (a + L) (by omega) h0 h1 hno
    omega
  · rintro rfl n m hnm hn hm hno
    obtain ⟨han, hn⟩ := (hp n).mp hn
    obtain ⟨ham, hm⟩ := (hp m).mp hm
    have hnext : p (n + D) := by
      refine (hp _).mpr ⟨by omega, ?_⟩
      rw [show n + D - a = n - a + D by omega, Nat.add_mod_right, hn]
    rcases Nat.lt_trichotomy m (n + D) with hlt | heq | hgt
    · -- both on the grid, less than a step apart
      have h : (n - a + (m - n)) % D = 0 := by
        rw [show n - a + (m - n) = m - a by omega, hm]
      rw [Nat.add_mod, hn, Nat.zero_add, Nat.mod_mod, Nat.mod_eq_of_lt (by omega)] at h
      omega
    · exact heq
    · exact absurd hnext (hno _ (by omega) hgt)

/-- A counter that adds one at the pulses of `p` and is not cleared between
cycles `a` and `b`. -/
theorem counter_eq {N : ℕ} {c : ℕ → BitVec N} {a b : ℕ} (hab : a ≤ b)
    (hc : ∀ u, a ≤ u → u < b → c (u + 1) = if p u then c u + 1 else c u) :
    c b = c a + BitVec.ofNat N (pulses p a b) := by
  induction b, hab using Nat.le_induction with
  | base => simp
  | succ b hab ih =>
      rw [hc b hab (by omega), pulses_succ hab, ih (fun u hau hub => hc u hau (by omega))]
      split
      · rw [BitVec.add_assoc, BitVec.ofNat_add]
        rfl
      · rw [Nat.add_zero]

/-! ## The last pulse -/

/-- Cycle `k` is the last one before `n` at which `p` holds. -/
structure Dernier (p : ℕ → Prop) (n k : ℕ) : Prop where
  avant : k < n
  pulse : p k
  silence : ∀ j, k < j → j < n → ¬ p j

theorem Dernier.succ {p : ℕ → Prop} {n k : ℕ} (h : Dernier p n k) (hn : ¬ p n) :
    Dernier p (n + 1) k where
  avant := Nat.lt_succ_of_lt h.avant
  pulse := h.pulse
  silence := by
    intro j hj hjn
    rcases Nat.lt_succ_iff_lt_or_eq.mp hjn with hlt | rfl
    · exact h.silence j hj hlt
    · exact hn

theorem dernier_succ_self {p : ℕ → Prop} {n : ℕ} (hn : p n) : Dernier p (n + 1) n :=
  ⟨n.lt_succ_self, hn, fun _ hj hjn => absurd hjn (Nat.not_lt.mpr hj)⟩

/-- A flag that some cycles raise and others take back is up iff one has raised it and
none has taken it back since. -/
theorem drapeau_iff {b leve baisse : ℕ → Prop} (h0 : ¬ b 0)
    (hb : ∀ k, b (k + 1) ↔ leve k ∨ b k ∧ ¬ baisse k) (n : ℕ) :
    b n ↔ ∃ k, k < n ∧ leve k ∧ ∀ i, k < i → i < n → ¬ baisse i := by
  induction n with
  | zero => exact iff_of_false h0 fun ⟨k, hk, _⟩ => absurd hk (Nat.not_lt_zero k)
  | succ n ih =>
      rw [hb, ih]
      constructor
      · rintro (hn | ⟨⟨k, hk, hl, hno⟩, hn⟩)
        · exact ⟨n, n.lt_succ_self, hn, fun i hi hin => absurd hin (Nat.not_lt.mpr hi)⟩
        · refine ⟨k, Nat.lt_succ_of_lt hk, hl, fun i hi hin => ?_⟩
          rcases Nat.lt_succ_iff_lt_or_eq.mp hin with hlt | rfl
          · exact hno i hi hlt
          · exact hn
      · rintro ⟨k, hk, hl, hno⟩
        rcases Nat.lt_succ_iff_lt_or_eq.mp hk with hlt | rfl
        · exact Or.inr ⟨⟨k, hlt, hl, fun i hi hin => hno i hi (Nat.lt_succ_of_lt hin)⟩,
            hno n hlt n.lt_succ_self⟩
        · exact Or.inl hl

/-- Up to cycle `n` there is a last pulse or there is none. -/
theorem dernier_ou_aucun (p : ℕ → Prop) (n : ℕ) :
    (∀ k, k < n → ¬ p k) ∨ ∃ k, Dernier p n k := by
  induction n with
  | zero => exact Or.inl fun k hk => absurd hk (Nat.not_lt_zero k)
  | succ n ih =>
      by_cases hn : p n
      · exact Or.inr ⟨n, dernier_succ_self hn⟩
      · rcases ih with hno | ⟨k, hk⟩
        · left
          intro k hk
          rcases Nat.lt_succ_iff_lt_or_eq.mp hk with hlt | rfl
          · exact hno k hlt
          · exact hn
        · exact Or.inr ⟨k, hk.succ hn⟩

/-- A register that loads `v` at the pulses of `p` holds what the last one
loaded. -/
theorem registre_dernier {α : Type*} {p : ℕ → Prop} {c v : ℕ → α}
    (hcharge : ∀ u, p u → c (u + 1) = v u) (htient : ∀ u, ¬ p u → c (u + 1) = c u) {n k : ℕ}
    (h : Dernier p n k) : c n = v k := by
  obtain ⟨hkn, hk, hno⟩ := h
  induction n, hkn using Nat.le_induction with
  | base => exact hcharge k hk
  | succ n hkn ih =>
      rw [htient n (hno n hkn n.lt_succ_self)]
      exact ih fun j hj hjn => hno j hj (Nat.lt_succ_of_lt hjn)

/-- Before the first pulse it holds what it started from. -/
theorem registre_neuf {α : Type*} {p : ℕ → Prop} {c : ℕ → α}
    (htient : ∀ u, ¬ p u → c (u + 1) = c u) {n : ℕ} (h : ∀ k, k < n → ¬ p k) : c n = c 0 := by
  induction n with
  | zero => rfl
  | succ n ih =>
      rw [htient n (h n n.lt_succ_self)]
      exact ih fun k hk => h k (Nat.lt_succ_of_lt hk)

theorem registre_eq {α : Type*} {p : ℕ → Prop} {c v : ℕ → α}
    (hcharge : ∀ u, p u → c (u + 1) = v u) (htient : ∀ u, ¬ p u → c (u + 1) = c u) (n : ℕ) :
    (∃ k, Dernier p n k ∧ c n = v k) ∨ ((∀ k, k < n → ¬ p k) ∧ c n = c 0) := by
  rcases dernier_ou_aucun p n with hno | ⟨k, hk⟩
  · exact Or.inr ⟨hno, registre_neuf htient hno⟩
  · exact Or.inl ⟨k, hk, registre_dernier hcharge htient hk⟩

/-! ## Intervals -/

/-- From cycle `a` on and before cycle `b`, the level is up on one interval. -/
def UnCreneau (p : ℕ → Prop) (a b : ℕ) : Prop :=
  ∃ i j, a ≤ i ∧ i < j ∧ j ≤ b ∧ ∀ k, a ≤ k → k < b → (p k ↔ i ≤ k ∧ k < j)

/-- On two, with a gap between them. -/
def DeuxCreneaux (p : ℕ → Prop) (a b : ℕ) : Prop :=
  ∃ i j i' j', a ≤ i ∧ i < j ∧ j < i' ∧ i' < j' ∧ j' ≤ b ∧
    ∀ k, a ≤ k → k < b → (p k ↔ (i ≤ k ∧ k < j) ∨ (i' ≤ k ∧ k < j'))

/-- A single interval has no gap. -/
theorem UnCreneau.entre {p : ℕ → Prop} {a b x y z : ℕ} (h : UnCreneau p a b) (hax : a ≤ x)
    (hxy : x ≤ y) (hyz : y ≤ z) (hzb : z < b) (hx : p x) (hz : p z) : p y := by
  obtain ⟨i, j, -, -, -, hp⟩ := h
  have hix := ((hp x hax (by omega)).mp hx).1
  have hzj := ((hp z (by omega) hzb).mp hz).2
  exact (hp y (by omega) (by omega)).mpr ⟨by omega, by omega⟩

end Synchrone
