/-
# `Arbitre` — the arbitrator of the interconnect

`altera_merlin_arbitrator.sv`: the request vector is written twice in a row, so
that the search for a set bit that starts at the priority can run past the top
and come back at the bottom, and the halves of the result are put together
again (`grant_elu`).  The priority is a one-hot register, moved behind the
client served.

The ring of `Synchrone.TourDeRole` is what this is for; `Pointe p` says that the
register stands at `p`, and every edge of a pipelined arbitrator keeps it along
the ring (`Pointe.front`).

Without the pipeline the register also follows `save_top_priority`, and takes
the grant even if there is none.  With no bit left in the register nothing is
ever granted again (`mort_run`): the module rests on its users to save only while
somebody asks (`sans_pipeline`).
-/
import BarreFranche.Synchrone.PremierBit
import BarreFranche.Synchrone.TourDeRole
import BarreFranche.Synchrone.Run

namespace BarreFranche

open Synchrone

/-- `altera_merlin_arb_adder`: full adders up to 8 bits, a carry chain above. -/
def arbAdder {w : ℕ} (a b : BitVec w) : BitVec w := if w ≤ 8 then ripple a b else a + b

@[simp] theorem arbAdder_eq {w : ℕ} (a b : BitVec w) : arbAdder a b = a + b := by
  rw [arbAdder, ripple_eq, ite_self]

/-- `SCHEME`. -/
inductive Scheme where
  | roundRobin
  | fixedPriority
  | noArb
deriving DecidableEq, Repr

/-- The register of the arbitrator. -/
structure Arbitre (n : ℕ) where
  topPriorityReg : BitVec n
deriving DecidableEq, Repr

/-- The pins sampled by an edge. -/
structure ArbitreEntrees (n : ℕ) where
  request : BitVec n
  incrementTopPriority : Bool
  saveTopPriority : Bool
deriving DecidableEq, Repr

namespace Arbitre

variable {n : ℕ}

/-- While `reset` is '1'. -/
def powerOn (n : ℕ) : Arbitre n := { topPriorityReg := 1 }

def topPriority (scheme : Scheme) (s : Arbitre n) : BitVec n :=
  if scheme = .roundRobin ∧ 1 < n then s.topPriorityReg else 1

def result (request topPriority : BitVec n) : BitVec (n + n) :=
  arbAdder (~~~request ++ ~~~request) (0#n ++ topPriority)

def grant (scheme : Scheme) (request : BitVec n) (s : Arbitre n) : BitVec n :=
  match scheme with
  | .noArb => request
  | scheme =>
      let grantDoubleVector := (request ++ request) &&& result request (s.topPriority scheme)
      grantDoubleVector.extractLsb' 0 n ||| grantDoubleVector.extractLsb' n n

/-- One rising edge of `clk`. -/
def front (scheme : Scheme) (pipeline : Bool) (e : ArbitreEntrees n) (s : Arbitre n) :
    Arbitre n :=
  { topPriorityReg :=
      if pipeline then
        if e.incrementTopPriority then
          if e.request ≠ 0 then (s.grant scheme e.request).rotateLeft 1 else s.topPriorityReg
        else s.topPriorityReg
      else
        if e.incrementTopPriority then
          if e.request ≠ 0 then (s.grant scheme e.request).rotateLeft 1
          else s.topPriorityReg.rotateLeft 1
        else if e.saveTopPriority then s.grant scheme e.request
        else s.topPriorityReg }

/-! ## The decision -/

/-- Client `i` asks. -/
def Demande (request : BitVec n) (i : ℕ) : Prop := request.getLsbD i = true

/-- The priority stands at client `p`. -/
structure Pointe (p : ℕ) (s : Arbitre n) : Prop where
  lt : p < n
  topPriorityReg : s.topPriorityReg = BitVec.twoPow n p

section
variable {request : BitVec n} {p g : ℕ}

theorem not_double (request : BitVec n) :
    ~~~request ++ ~~~request = ~~~(request ++ request) := by
  refine BitVec.eq_of_getLsbD_eq fun i hi => ?_
  simp only [BitVec.getLsbD_append, BitVec.getLsbD_not, hi, decide_true, Bool.true_and]
  split_ifs with h
  · rw [decide_eq_true h, Bool.true_and]
  · rw [decide_eq_true (by omega : i - n < n), Bool.true_and]

theorem result_eq (request : BitVec n) (p : ℕ) (hp : p < n) :
    result request (BitVec.twoPow n p) =
      ~~~(request ++ request) + BitVec.twoPow (n + n) p := by
  rw [result, arbAdder_eq, not_double]
  congr 1
  refine BitVec.eq_of_getLsbD_eq fun i hi => ?_
  rw [BitVec.getLsbD_append, BitVec.getLsbD_twoPow, BitVec.getLsbD_twoPow]
  split_ifs with h
  · simp [hp, Nat.lt_add_right n hp]
  · have hne : p ≠ i := by omega
    simp [hne]

/-- In the vector written twice the bit found is the one of the client. -/
theorem double_elu (hp : p < n) (h : Elu n p (Demande request) g) :
    (∀ i, p ≤ i → i < p + ecart n p g → (request ++ request).getLsbD i = false) ∧
      (request ++ request).getLsbD (p + ecart n p g) = true := by
  have hg := h.lt
  constructor
  · intro i hpi hi
    rw [BitVec.getLsbD_append, ← Bool.not_eq_true]
    intro hbit
    split_ifs at hbit with hin
    · have := h.premier i hin hbit
      unfold ecart at this hi
      split_ifs at this hi <;> omega
    · have hin' : i - n < n := BitVec.lt_of_getLsbD hbit
      have := h.premier (i - n) hin' hbit
      unfold ecart at this hi
      split_ifs at this hi <;> omega
  · rw [BitVec.getLsbD_append]
    unfold ecart
    split_ifs with h1 h2 h2
    · rw [Nat.add_sub_cancel' h1]
      exact h.demandeur
    · omega
    · omega
    · rw [show p + (g + n - p) - n = g by omega]
      exact h.demandeur

/-- And the halves put together give it back. -/
theorem moities (hp : p < n) (hg : g < n) :
    (BitVec.twoPow (n + n) (p + ecart n p g)).extractLsb' 0 n |||
        (BitVec.twoPow (n + n) (p + ecart n p g)).extractLsb' n n = BitVec.twoPow n g := by
  refine BitVec.eq_of_getLsbD_eq fun i hi => ?_
  rw [BitVec.getLsbD_or, BitVec.getLsbD_extractLsb', BitVec.getLsbD_extractLsb',
    BitVec.getLsbD_twoPow, BitVec.getLsbD_twoPow, BitVec.getLsbD_twoPow]
  simp only [hi, hg, decide_true, Bool.true_and]
  rw [Bool.eq_iff_iff]
  simp only [Bool.or_eq_true, Bool.and_eq_true, decide_eq_true_eq]
  unfold ecart
  split_ifs <;> omega

/-- Somebody asks, or the vector is 0. -/
theorem demande_exists (h : request ≠ 0) : ∃ i, i < n ∧ Demande request i := by
  by_contra hno
  refine h (BitVec.eq_of_getLsbD_eq fun i hi => ?_)
  rw [show (0 : BitVec n).getLsbD i = false from BitVec.getLsbD_zero, ← Bool.not_eq_true]
  exact fun hd => hno ⟨i, hi, hd⟩

theorem demande_ne_zero (h : Demande request g) : request ≠ 0 := by
  rintro rfl
  exact Bool.false_ne_true (BitVec.getLsbD_zero.symm.trans h)

end

section
variable {s : Arbitre n} {request : BitVec n} {p g : ℕ}

/-- **The grant** is the first client with a request from the priority on. -/
theorem grant_elu (hn : 1 < n) (hs : Pointe p s) (h : Elu n p (Demande request) g) :
    s.grant .roundRobin request = BitVec.twoPow n g := by
  obtain ⟨havant, hbit⟩ := double_elu hs.lt h
  show ((request ++ request) &&& result request (s.topPriority .roundRobin)).extractLsb' 0 n |||
    ((request ++ request) &&& result request (s.topPriority .roundRobin)).extractLsb' n n = _
  rw [topPriority, if_pos ⟨rfl, hn⟩, hs.topPriorityReg, result_eq request p hs.lt,
    and_premier (Nat.le_add_right p _) havant hbit, moities hs.lt h.lt]

theorem grant_zero (s : Arbitre n) : s.grant .roundRobin 0 = 0 := by
  simp [grant]

theorem rotate_twoPow (hn : 1 < n) (hg : g < n) :
    (BitVec.twoPow n g).rotateLeft 1 = BitVec.twoPow n (apres n g) := by
  refine BitVec.eq_of_getLsbD_eq fun i hi => ?_
  rw [BitVec.getLsbD_rotateLeft_of_le hn, BitVec.getLsbD_twoPow, BitVec.getLsbD_twoPow,
    BitVec.getLsbD_twoPow, Bool.eq_iff_iff]
  have ha := apres_lt hg
  unfold apres at ha ⊢
  by_cases h0 : i < 1
  · simp only [h0, decide_true, cond_true, Bool.and_eq_true, decide_eq_true_eq]
    split_ifs at ha ⊢ <;> omega
  · simp only [h0, decide_false, cond_false, Bool.and_eq_true, decide_eq_true_eq]
    split_ifs at ha ⊢ <;> omega

theorem pointe_inj {p' : ℕ} (h : Pointe p s) (h' : Pointe p' s) : p = p' := by
  have hbit : (BitVec.twoPow n p').getLsbD p = true := by
    rw [← h'.topPriorityReg, h.topPriorityReg, BitVec.getLsbD_twoPow]
    simpa using h.lt
  rw [BitVec.getLsbD_twoPow] at hbit
  simp only [Bool.and_eq_true, decide_eq_true_eq] at hbit
  exact hbit.2.symm

theorem pointe_powerOn (hn : 1 < n) : Pointe 0 (powerOn n) :=
  ⟨Nat.lt_of_succ_lt hn, BitVec.twoPow_zero.symm⟩

/-! ## One edge -/

variable {pipeline : Bool} {e : ArbitreEntrees n}

/-- Behind the client served, whatever the pipeline. -/
theorem Pointe.tourne (hn : 1 < n) (hs : Pointe p s) (hi : e.incrementTopPriority = true)
    (h : Elu n p (Demande e.request) g) :
    Pointe (apres n g) (front .roundRobin pipeline e s) := by
  refine ⟨apres_lt h.lt, ?_⟩
  have hr : e.request ≠ 0 := demande_ne_zero h.demandeur
  rw [← rotate_twoPow hn h.lt, ← grant_elu hn hs h]
  cases pipeline <;> simp only [front, hi, if_pos hr, if_true, ite_self]

/-- With the pipeline no other edge moves the priority. -/
theorem Pointe.tient (hs : Pointe p s) (h : ¬ (e.incrementTopPriority = true ∧ e.request ≠ 0)) :
    Pointe p (front .roundRobin true e s) := by
  refine ⟨hs.lt, ?_⟩
  rw [← hs.topPriorityReg]
  simp only [front, if_true]
  split_ifs with hi hr
  · exact absurd ⟨hi, hr⟩ h
  · rfl
  · rfl

/-- Without it, every edge keeps a priority, unless it saves no grant. -/
theorem Pointe.front (hn : 1 < n) (hs : Pointe p s)
    (h : e.incrementTopPriority = false → e.saveTopPriority = true → e.request ≠ 0) :
    ∃ p', Pointe p' (Arbitre.front .roundRobin false e s) := by
  have helu : e.request ≠ 0 → ∃ g, Elu n p (Demande e.request) g := fun hr =>
    let ⟨_, hi, hd⟩ := demande_exists hr
    elu_exists hi hd
  cases hi : e.incrementTopPriority with
  | true =>
      by_cases hr : e.request = 0
      · refine ⟨apres n p, apres_lt hs.lt, ?_⟩
        rw [← rotate_twoPow hn hs.lt, ← hs.topPriorityReg]
        simp [Arbitre.front, hi, hr]
      · obtain ⟨g, hg⟩ := helu hr
        exact ⟨_, hs.tourne hn hi hg⟩
  | false =>
      cases hsave : e.saveTopPriority with
      | true =>
          obtain ⟨g, hg⟩ := helu (h hi hsave)
          refine ⟨g, hg.lt, ?_⟩
          rw [← grant_elu hn hs hg]
          simp [Arbitre.front, hi, hsave]
      | false =>
          refine ⟨p, hs.lt, ?_⟩
          rw [← hs.topPriorityReg]
          simp [Arbitre.front, hi, hsave]

/-- With no bit in the register there is no grant. -/
theorem grant_mort (hn : 1 < n) (h : s.topPriorityReg = 0) : s.grant .roundRobin request = 0 := by
  have hzero : 0#n ++ 0#n = 0#(n + n) := by
    refine BitVec.eq_of_getLsbD_eq fun i _ => ?_
    simp
  have hres : (request ++ request) &&& result request 0 = 0 := by
    rw [result, arbAdder_eq, not_double, show (0 : BitVec n) = 0#n from rfl, hzero,
      BitVec.add_zero]
    exact BitVec.and_not_self _
  show ((request ++ request) &&& result request (s.topPriority .roundRobin)).extractLsb' 0 n |||
    ((request ++ request) &&& result request (s.topPriority .roundRobin)).extractLsb' n n = _
  rw [topPriority, if_pos ⟨rfl, hn⟩, h, hres]
  simp

theorem front_mort (hn : 1 < n) (h : s.topPriorityReg = 0) :
    (front .roundRobin pipeline e s).topPriorityReg = 0 := by
  have hrot : (0 : BitVec n).rotateLeft 1 = 0 := by
    refine BitVec.eq_of_getLsbD_eq fun i _ => ?_
    simp [BitVec.getLsbD_rotateLeft_of_le hn]
  simp only [front, grant_mort hn h, h, hrot, ite_self]

end

/-! ## Runs -/

/-- The register at cycle `k`, since the last reset. -/
def cycle (pipeline : Bool) (w : ℕ → ArbitreEntrees n) (k : ℕ) : Arbitre n :=
  run (front .roundRobin pipeline) (powerOn n) w k

/-- Edge `k` serves somebody and moves the priority. -/
def Tour (w : ℕ → ArbitreEntrees n) (k : ℕ) : Prop :=
  (w k).incrementTopPriority = true ∧ (w k).request ≠ 0

instance (w : ℕ → ArbitreEntrees n) : DecidablePred (Tour w) :=
  fun _ => inferInstanceAs (Decidable (_ ∧ _))

section
variable {w : ℕ → ArbitreEntrees n}

theorem cycle_succ (pipeline : Bool) (k : ℕ) : cycle pipeline w (k + 1) =
    front .roundRobin pipeline (w k) (cycle pipeline w k) := run_succ k

theorem pointe_cycle (hn : 1 < n) (k : ℕ) : ∃ p, Pointe p (cycle true w k) := by
  refine run_invariant (I := fun s => ∃ p, Pointe p s) ⟨0, pointe_powerOn hn⟩ ?_ k
  rintro e s ⟨p, hp⟩
  by_cases h : e.incrementTopPriority = true ∧ e.request ≠ 0
  · obtain ⟨i, hi, hd⟩ := demande_exists h.2
    obtain ⟨g, hg⟩ := elu_exists (p := p) hi hd
    exact ⟨_, hp.tourne hn h.1 hg⟩
  · exact ⟨p, hp.tient h⟩

/-- An edge that serves moves the pointer behind the client served. -/
theorem pointe_tourne (hn : 1 < n) {k p q g : ℕ} (hp : Pointe p (cycle true w k))
    (hq : Pointe q (cycle true w (k + 1))) (ht : Tour w k)
    (hg : Elu n p (Demande (w k).request) g) : q = apres n g := by
  rw [cycle_succ] at hq
  exact pointe_inj hq (hp.tourne hn ht.1 hg)

/-- No other edge moves it. -/
theorem pointe_tient {k p q : ℕ} (hp : Pointe p (cycle true w k))
    (hq : Pointe q (cycle true w (k + 1))) (ht : ¬ Tour w k) : q = p := by
  rw [cycle_succ] at hq
  exact pointe_inj hq (hp.tient ht)

/-- **The pipelined arbitrator serves in turn.**  In every run since a reset it
has a pointer, at client 0 first: whoever asks first from there on has the grant,
alone; an edge that serves moves the pointer behind the client served, and no
other edge moves it. -/
theorem anneau (hn : 1 < n) : ∃ p : ℕ → ℕ, p 0 = 0 ∧ ∀ k, p k < n ∧
    ((w k).request = 0 → (cycle true w k).grant .roundRobin (w k).request = 0) ∧
    (∀ g, Elu n (p k) (Demande (w k).request) g →
      (cycle true w k).grant .roundRobin (w k).request = BitVec.twoPow n g ∧
        (Tour w k → p (k + 1) = apres n g)) ∧
    (¬ Tour w k → p (k + 1) = p k) := by
  choose p hp using pointe_cycle (w := w) hn
  refine ⟨p, pointe_inj (hp 0) (pointe_powerOn hn), fun k => ⟨(hp k).lt, ?_, ?_, ?_⟩⟩
  · intro h
    rw [h]
    exact grant_zero _
  · intro g hg
    exact ⟨grant_elu hn (hp k) hg, fun ht => pointe_tourne hn (hp k) (hp (k + 1)) ht hg⟩
  · intro ht
    exact pointe_tient (hp k) (hp (k + 1)) ht

/-- **Nobody starves.**  A client that asks at every edge that serves is served
at one of `n` of them. -/
theorem equitable (hn : 1 < n) {i a b : ℕ} (hi : i < n) (hab : a ≤ b)
    (hd : ∀ k, a ≤ k → k < b → Tour w k → Demande (w k).request i)
    (hp : n ≤ pulses (Tour w) a b) : ∃ k, a ≤ k ∧ k < b ∧ Tour w k ∧
      (cycle true w k).grant .roundRobin (w k).request = BitVec.twoPow n i := by
  choose p hpt using pointe_cycle (w := w) hn
  have hserv : ∃ k, a ≤ k ∧ k < b ∧ Tour w k ∧ Elu n (p k) (Demande (w k).request) i :=
    servi (fun k => (hpt k).lt) hi hab (fun k => pointe_tient (hpt k) (hpt (k + 1)))
      (fun k _ => pointe_tourne hn (hpt k) (hpt (k + 1))) hd hp
  obtain ⟨k, hak, hkb, ht, hk⟩ := hserv
  exact ⟨k, hak, hkb, ht, grant_elu hn (hpt k) hk⟩

/-- Two clients that ask all the time. -/
def presses : ℕ → ArbitreEntrees 2 := fun _ => ⟨3, true, false⟩

theorem anneau_temoin : ∃ p : ℕ → ℕ, p 0 = 0 ∧ ∀ k, p k < 2 ∧
    ((presses k).request = 0 → (cycle true presses k).grant .roundRobin (presses k).request = 0) ∧
    (∀ g, Elu 2 (p k) (Demande (presses k).request) g →
      (cycle true presses k).grant .roundRobin (presses k).request = BitVec.twoPow 2 g ∧
        (Tour presses k → p (k + 1) = apres 2 g)) ∧
    (¬ Tour presses k → p (k + 1) = p k) :=
  anneau (by decide)

theorem equitable_temoin : ∃ k, 0 ≤ k ∧ k < 2 ∧ Tour presses k ∧
    (cycle true presses k).grant .roundRobin (presses k).request = BitVec.twoPow 2 1 :=
  equitable (by decide) (by decide) (by decide)
    (fun _ _ _ _ => (by decide : (3 : BitVec 2).getLsbD 1 = true)) (by decide)

theorem mort_run (hn : 1 < n) {pipeline : Bool} {a : ℕ}
    (ha : (cycle pipeline w a).topPriorityReg = 0) (d : ℕ) :
    (cycle pipeline w (a + d)).topPriorityReg = 0 := by
  induction d with
  | zero => exact ha
  | succ d ih =>
      rw [← Nat.add_assoc, cycle_succ]
      exact front_mort hn ih

/-- Edge `k` saves the grant while nobody asks. -/
def SauveRien (w : ℕ → ArbitreEntrees n) (k : ℕ) : Prop :=
  (w k).incrementTopPriority = false ∧ (w k).saveTopPriority = true ∧ (w k).request = 0

/-- **The arbitrator without a pipeline** has a priority at every cycle of a run iff
no edge saves the grant while nobody asks; after one that does, nobody is ever
granted anything. -/
theorem sans_pipeline (hn : 1 < n) :
    ((∀ k, ∃ p, Pointe p (cycle false w k)) ↔ ∀ k, ¬ SauveRien w k) ∧
      ∀ k, SauveRien w k → ∀ d request,
        (cycle false w (k + 1 + d)).grant .roundRobin request = 0 := by
  have hmort : ∀ k, SauveRien w k → (cycle false w (k + 1)).topPriorityReg = 0 := by
    rintro k ⟨hi, hs, hr⟩
    rw [cycle_succ, ← grant_zero (cycle false w k), ← hr]
    simp [front, hi, hs]
  refine ⟨⟨fun h k hk => ?_, fun h k => ?_⟩, fun k hk d request => ?_⟩
  · obtain ⟨p, hp⟩ := h (k + 1)
    have hbit : (BitVec.twoPow n p).getLsbD p = true := by
      rw [BitVec.getLsbD_twoPow]
      simpa using hp.lt
    rw [← hp.topPriorityReg, hmort k hk] at hbit
    exact Bool.false_ne_true (BitVec.getLsbD_zero.symm.trans hbit)
  · induction k with
    | zero => exact ⟨0, pointe_powerOn hn⟩
    | succ k ih =>
        obtain ⟨p, hp⟩ := ih
        rw [cycle_succ]
        exact hp.front hn fun hi hs hr => h k ⟨hi, hs, hr⟩
  · exact grant_mort hn (mort_run hn (hmort k hk) d)

/-- Saved once with nobody asking. -/
theorem sans_pipeline_temoin : (cycle false (fun k => ⟨if k = 0 then 0 else 3, false, true⟩)
    (0 + 1 + 4)).grant .roundRobin 3 = (0 : BitVec 2) :=
  (sans_pipeline (by decide)).2 0 ⟨rfl, rfl, rfl⟩ 4 3

end

end Arbitre

end BarreFranche
