/-
# `AvalonReset` — what a reset of the slave forgets

One edge under `Reset` clears `sReg` and the two counters, and `dRead` then
holds the `Read` of that edge.  `sRegByteEnable` is assigned in the same process
as `sReg` and is missing from its reset branch: it comes through any reset
unchanged, and what was written at address 1 before can be read after.

So two runs are told apart after a common reset iff they differ in that register
before it (`indistincts_iff`), and nothing written before can be read back iff
it was 0 in both (`independance_iff`).
-/
import BarreFranche.AvalonOctets

namespace BarreFranche.AvalonSlave

open Synchrone

/-- At any moment of the cycle, whatever it presents, the master sees the same. -/
def Indistincts (s t : AvalonSlave) : Prop :=
  ∀ (l : List Bool) (e : AvalonEntrees),
    readData e (l.foldl asynchrone s) = readData e (l.foldl asynchrone t) ∧
      waitRequest e (l.foldl asynchrone s) = waitRequest e (l.foldl asynchrone t)

/-- From cycle `r` on the master sees what it would see had all registers been 0
at the start: no value from before is read back. -/
def Oublie (r : ℕ) (s : AvalonSlave) (w : ℕ → AvalonEntrees) : Prop :=
  ∀ n, r ≤ n → Indistincts (cycle s w n) (cycle auDepart w n)

/-- From cycle `r` on two runs look the same, and neither gives anything back
of what it held before. -/
structure Independants (r : ℕ) (s t : AvalonSlave) (w x : ℕ → AvalonEntrees) : Prop where
  semblables : ∀ n, r ≤ n → Indistincts (cycle s w n) (cycle t x n)
  oubli : Oublie r s w ∧ Oublie r t x

/-- Two streams with `Reset` at '1' and the same `Read` at the first `r` edges,
and the same cycles from there on. -/
structure ResetCommun (r : ℕ) (w x : ℕ → AvalonEntrees) : Prop where
  reset : ∀ k, k < r → (w k).reset = true ∧ (x k).reset = true
  read : ∀ k, k < r → (w k).read = (x k).read
  suite : ∀ k, r ≤ k → w k = x k

section
variable {e : AvalonEntrees} {s t : AvalonSlave} {w x : ℕ → AvalonEntrees} {r : ℕ}

theorem etape_reset (h : e.reset = true) : etape e s =
    { sReg := 0
      sRegByteEnable := s.sRegByteEnable
      sReadCount := 0
      sReadCountPipelined := 0
      dRead := .ofBool e.read } := by
  simp only [etape, front, if_pos h, foldl_sRegByteEnable]

theorem sRegByteEnable_reset (hreset : ∀ k, k < r → (w k).reset = true) :
    ∀ k, k ≤ r → (cycle s w k).sRegByteEnable = s.sRegByteEnable := by
  intro k
  induction k with
  | zero => exact fun _ => rfl
  | succ k ih =>
      intro hk
      rw [cycle_succ, etape_reset (hreset k hk)]
      exact ih (Nat.le_of_succ_le hk)

/-- The contents a reset of at least one edge leaves. -/
theorem cycle_reset (hreset : ∀ k, k < r + 1 → (w k).reset = true) : cycle s w (r + 1) =
    { sReg := 0
      sRegByteEnable := s.sRegByteEnable
      sReadCount := 0
      sReadCountPipelined := 0
      dRead := .ofBool (w r).read } := by
  rw [cycle_succ, etape_reset (hreset r r.lt_succ_self),
    sRegByteEnable_reset hreset r r.le_succ]

/-- The same cycles from the same contents on. -/
theorem cycle_commun (hsuite : ∀ k, r ≤ k → w k = x k) (hr : cycle s w r = cycle t x r) :
    ∀ n, r ≤ n → cycle s w n = cycle t x n := by
  intro n hn
  obtain ⟨d, rfl⟩ := Nat.exists_eq_add_of_le hn
  exact run_congr hr d fun k _ => hsuite _ (Nat.le_add_right r k)

end

section
variable (s t : AvalonSlave) (w x : ℕ → AvalonEntrees) (r : ℕ) (hr : 0 < r)

include hr

/-- Two runs with a common reset of at least one edge and the same cycles after
it show the master the same from its end on iff the bytes of address 1 were the
same before. -/
theorem indistincts_iff (h : ResetCommun r w x) :
    (∀ n, r ≤ n → Indistincts (cycle s w n) (cycle t x n)) ↔
      s.sRegByteEnable = t.sRegByteEnable := by
  obtain ⟨r, rfl⟩ : ∃ m, r = m + 1 := Nat.exists_eq_succ_of_ne_zero hr.ne'
  have hs := cycle_reset (s := s) fun k hk => (h.reset k hk).1
  have ht := cycle_reset (s := t) fun k hk => (h.reset k hk).2
  constructor
  · intro hsame
    -- the read of address 1 at the end of the reset
    have hlu := (hsame (r + 1) le_rfl [] { w r with address := 1 }).1
    rwa [readData_un rfl, readData_un rfl, foldl_sRegByteEnable, foldl_sRegByteEnable, hs, ht]
      at hlu
  · intro hoctets n hn l e
    have heq : cycle s w (r + 1) = cycle t x (r + 1) := by
      rw [hs, ht, hoctets, h.read r r.lt_succ_self]
    rw [cycle_commun h.suite heq n hn]
    exact ⟨rfl, rfl⟩

/-- A reset forgets everything iff there was nothing at address 1. -/
theorem oublie_iff (hreset : ∀ k, k < r → (w k).reset = true) :
    Oublie r s w ↔ s.sRegByteEnable = 0 :=
  indistincts_iff s auDepart w w r hr
    ⟨fun k hk => ⟨hreset k hk, hreset k hk⟩, fun _ _ => rfl, fun _ _ => rfl⟩

/-- **A reset makes the slave independent of its past**, so that two runs with a
common reset look the same after it and give nothing back of what was written
before, iff the bytes of address 1 were 0 in both. -/
theorem independance_iff (h : ResetCommun r w x) :
    Independants r s t w x ↔ s.sRegByteEnable = 0 ∧ t.sRegByteEnable = 0 := by
  have hs := oublie_iff s w r hr fun k hk => (h.reset k hk).1
  have ht := oublie_iff t x r hr fun k hk => (h.reset k hk).2
  constructor
  · intro hind
    exact ⟨hs.mp hind.oubli.1, ht.mp hind.oubli.2⟩
  · rintro ⟨h1, h2⟩
    exact ⟨(indistincts_iff s t w x r hr h).mpr (h1.trans h2.symm), hs.mpr h1, ht.mpr h2⟩

end

/-- A master at rest, with `Reset` at '1' for the first `r` edges. -/
def coupure (r k : ℕ) : AvalonEntrees :=
  { niveaux := []
    reset := decide (k < r)
    address := 1
    write := false
    writeData := 0
    read := false
    byteEnable := 0 }

theorem coupure_commune (r : ℕ) : ResetCommun r (coupure r) (coupure r) where
  reset := fun _ hk => ⟨decide_eq_true hk, decide_eq_true hk⟩
  read := fun _ _ => rfl
  suite := fun _ _ => rfl

/-- The other four registers are forgotten. -/
theorem independance_iff_temoin :
    ResetCommun 2 (coupure 2) (coupure 2) ∧
      Independants 2 auDepart
        { sReg := 1, sRegByteEnable := 0, sReadCount := 2, sReadCountPipelined := 3, dRead := .U }
        (coupure 2) (coupure 2) :=
  ⟨coupure_commune 2,
    (independance_iff _ _ (coupure 2) (coupure 2) 2 (by decide) (coupure_commune 2)).mpr
      ⟨rfl, rfl⟩⟩

/-- The bytes written at address 1 by the edge before a reset of two edges. -/
theorem octets_conserves :
    (cycle auDepart (ecritures [(0b1111, 0xCAFE0123)]) 1).sRegByteEnable = 0xCAFE0123 ∧
      ResetCommun 2 (coupure 2) (coupure 2) ∧
      readData (coupure 2 2) (cycle (cycle auDepart (ecritures [(0b1111, 0xCAFE0123)]) 1)
        (coupure 2) 2) = 0xCAFE0123 ∧
      readData (coupure 2 2) (cycle auDepart (coupure 2) 2) = 0 ∧
      ¬ ∀ n, 2 ≤ n → Indistincts (cycle (cycle auDepart (ecritures [(0b1111, 0xCAFE0123)]) 1)
        (coupure 2) n) (cycle auDepart (coupure 2) n) := by
  refine ⟨by decide, coupure_commune 2, by decide, by decide, ?_⟩
  intro h
  have hlu := (h 2 le_rfl [] (coupure 2 2)).1
  exact absurd hlu (by decide)

end BarreFranche.AvalonSlave
