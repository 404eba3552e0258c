/-
# `ResetController` — the reset of the processor and of its bus

`altera_reset_controller.v` and the synchronizers inside it
(`altera_reset_synchronizer.v`), with RESET_REQUEST_PRESENT at 1 and one reset
input, as `nios_mcu.vhd` instantiates them.  The other inputs are tied to '0'.

The pin may move at any time.  `alt_rst_sync_uq1` is set at once and released by
the clock, so that a pulse too short for an edge to see is seen nevertheless; from
there on everything is on the clock.  Two chains then make the two outputs:
`reset_req`, which stops the memories, and `reset_out`, which resets.

    annonce    `reset_req` is up before `reset_out` rises
    relache    and down before it falls
    duree      an assertion lasts MIN_RST_ASSERTION_TIME cycles at least
    suit       every activity of the pin is followed by one
    cause      and nothing else is

The `initial` values of the chains are those of a controller that has just seen its
input up for a while and down before: `Haut` is the history of `reset_out_pre` with
that past in front, and what the chains show is read off it (`intChain_iff`,
`rSyncRstChain_iff`).  This is how the assertion at power-on comes under the same
statements as the others.  Registers without an initial value power up low.
-/
import BarreFranche.Synchrone.Run
import BarreFranche.Synchrone.Decalage
import Mathlib.Order.Nat

namespace BarreFranche

open Synchrone

/-- The parameters, such that the tap of `reset_req` lies in the chain. -/
structure Generiques where
  syncDepth : ℕ
  useResetRequestIn0 : Bool
  resetReqWaitTime : ℕ
  minRstAssertionTime : ℕ
  resetReqEarlyDsrtTime : ℕ
  depth : 2 ≤ syncDepth
  wait : 1 ≤ resetReqWaitTime
  early : resetReqEarlyDsrtTime < minRstAssertionTime

namespace Generiques

/-- Those of `nios_mcu.vhd`. -/
def nios : Generiques :=
  { syncDepth := 2
    useResetRequestIn0 := false
    resetReqWaitTime := 1
    minRstAssertionTime := 3
    resetReqEarlyDsrtTime := 1
    depth := le_rfl
    wait := le_rfl
    early := by decide }

variable (g : Generiques)

def minMetastable : ℕ := 3

def rstreqAsrtSyncTap : ℕ := minMetastable + g.resetReqWaitTime

def larger : ℕ :=
  if g.resetReqEarlyDsrtTime < g.resetReqWaitTime then g.resetReqWaitTime
  else g.resetReqEarlyDsrtTime

def assertionChainLength : ℕ :=
  if g.larger < minMetastable then g.minRstAssertionTime + 1
  else if g.larger < g.minRstAssertionTime then
    g.minRstAssertionTime + (g.larger - minMetastable + 1) + 1
  else
    g.minRstAssertionTime + g.resetReqEarlyDsrtTime + g.resetReqWaitTime - minMetastable + 2

def resetReqDrstTap : ℕ := g.resetReqEarlyDsrtTime + 1

/-- What the length of the chain is chosen for. -/
theorem longueur : g.resetReqEarlyDsrtTime + 2 ≤ g.assertionChainLength ∧
    g.resetReqWaitTime + g.resetReqEarlyDsrtTime ≤ g.assertionChainLength + 1 ∧
    g.minRstAssertionTime + g.resetReqWaitTime ≤ g.assertionChainLength + 1 := by
  have hwait := g.wait
  have hearly := g.early
  unfold assertionChainLength larger minMetastable
  split_ifs <;> omega

end Generiques

/-! ## The synchronizer -/

/-- The registers of `altera_reset_synchronizer`. -/
structure ResetSynchronizer (depth : ℕ) where
  intChain : BitVec depth
  intChainOut : Bool
deriving DecidableEq, Repr

namespace ResetSynchronizer

variable {depth : ℕ}

/-- ASYNC_RESET = 1, woken by `reset_in`. -/
def asynchrone (s : ResetSynchronizer depth) (resetIn : Bool) : ResetSynchronizer depth :=
  if resetIn = true then ⟨BitVec.allOnes depth, true⟩ else s

/-- ASYNC_RESET = 1, woken by the clock. -/
def front (resetIn : Bool) (s : ResetSynchronizer depth) : ResetSynchronizer depth :=
  if resetIn = true then ⟨BitVec.allOnes depth, true⟩
  else ⟨s.intChain >>> 1, s.intChain.getLsbD 0⟩

/-- ASYNC_RESET = 0. -/
def frontSync (resetIn : Bool) (s : ResetSynchronizer depth) : ResetSynchronizer depth :=
  ⟨(s.intChain >>> 1) ||| (if resetIn = true then BitVec.twoPow depth (depth - 1) else 0),
    s.intChain.getLsbD 0⟩

theorem foldl_asynchrone (l : List Bool) (s : ResetSynchronizer depth) :
    l.foldl asynchrone s = if true ∈ l then ⟨BitVec.allOnes depth, true⟩ else s := by
  induction l generalizing s with
  | nil => rfl
  | cons b l ih =>
      rw [List.foldl_cons, ih]
      cases b with
      | false => simp [asynchrone]
      | true => simp [asynchrone]

end ResetSynchronizer

/-! ## The controller -/

/-- One cycle of the inputs: the levels of `reset_in0` before the edge, and what the
edge samples. -/
structure ResetEntrees where
  niveaux : List Bool
  resetIn0 : Bool
  resetReqIn0 : Bool
deriving DecidableEq, Repr

/-- The registers. -/
structure ResetController (g : Generiques) where
  rstSync : ResetSynchronizer g.syncDepth
  rstReqSync : ResetSynchronizer g.syncDepth
  intChain : BitVec (g.rstreqAsrtSyncTap + 1)
  rSyncRstChain : BitVec g.assertionChainLength
  rSyncRst : Bool
  rEarlyRst : Bool
deriving DecidableEq, Repr

namespace ResetController

variable {g : Generiques}

/-- One bit of `int_chain` is left out by its initial value. -/
def powerOn (g : Generiques) : ResetController g :=
  { rstSync := ⟨0, false⟩
    rstReqSync := ⟨0, false⟩
    intChain := (BitVec.allOnes g.rstreqAsrtSyncTap).setWidth (g.rstreqAsrtSyncTap + 1)
    rSyncRstChain := BitVec.allOnes g.assertionChainLength
    rSyncRst := false
    rEarlyRst := false }

section
variable (e : ResetEntrees) (s : ResetController g)

/-- `alt_rst_sync_uq1` when the edge comes. -/
def rstSyncAvant : ResetSynchronizer g.syncDepth :=
  (e.niveaux ++ [e.resetIn0]).foldl ResetSynchronizer.asynchrone s.rstSync

def resetOutPre : Bool := (rstSyncAvant e s).intChainOut

def resetReqPre : Bool := s.rstReqSync.intChainOut

def mergedResetReqIn (g : Generiques) (e : ResetEntrees) : Bool :=
  if g.useResetRequestIn0 = true then e.resetReqIn0 else false

/-- `case ({int_chain[TAP], r_sync_rst_chain[1], r_sync_rst})`. -/
def casSync : Bool → Bool → Bool → Bool
  | false, false, false => false
  | false, false, true => false
  | false, true, false => false
  | false, true, true => true
  | true, false, false => true
  | true, false, true => true
  | true, true, false => true
  | true, true, true => true

/-- `case ({r_sync_rst_chain[1], r_sync_rst_chain[DRST_TAP] | reset_req_pre})`. -/
def casEarly : Bool → Bool → Bool
  | false, false => false
  | false, true => true
  | true, false => false
  | true, true => true

/-- One rising edge of `clk`. -/
def front : ResetController g :=
  { rstSync := ResetSynchronizer.front e.resetIn0 (rstSyncAvant e s)
    rstReqSync := ResetSynchronizer.frontSync (mergedResetReqIn g e) s.rstReqSync
    intChain := s.intChain.shiftConcat (resetOutPre e s)
    rSyncRstChain :=
      if s.intChain.getLsbD (Generiques.minMetastable - 1) = true then
        BitVec.allOnes g.assertionChainLength
      else s.rSyncRstChain >>> 1
    rSyncRst :=
      casSync (s.intChain.getLsbD g.rstreqAsrtSyncTap) (s.rSyncRstChain.getLsbD 1) s.rSyncRst
    rEarlyRst :=
      casEarly (s.rSyncRstChain.getLsbD 1)
        (s.rSyncRstChain.getLsbD g.resetReqDrstTap || resetReqPre s) }

def resetOut : Bool := s.rSyncRst

def resetReq : Bool := s.rEarlyRst

end

/-- The registers at cycle `n` of a run from power-on. -/
def cycle (g : Generiques) (w : ℕ → ResetEntrees) (n : ℕ) : ResetController g :=
  run front (powerOn g) w n

theorem casSync_eq_true {tap chaine sync : Bool} :
    casSync tap chaine sync = true ↔ tap = true ∨ chaine = true ∧ sync = true := by
  cases tap <;> cases chaine <;> cases sync <;> decide

theorem casEarly_eq {chaine tap : Bool} : casEarly chaine tap = tap := by
  cases chaine <;> cases tap <;> rfl

section
variable {w : ℕ → ResetEntrees}

theorem cycle_succ (n : ℕ) : cycle g w (n + 1) = front (w n) (cycle g w n) := run_succ n

/-! ## What the pin gives the clock -/

/-- `reset_in0` is up at some moment of the cycle. -/
def Actif (e : ResetEntrees) : Prop := true ∈ e.niveaux ++ [e.resetIn0]

instance (e : ResetEntrees) : Decidable (Actif e) :=
  inferInstanceAs (Decidable (true ∈ _))

theorem actif_front {e : ResetEntrees} (h : e.resetIn0 = true) : Actif e :=
  List.mem_append_right _ (List.mem_singleton.mpr h.symm)

/-- The synchronizer is set in cycle `k`, or was at the edge that began it. -/
def Pose (w : ℕ → ResetEntrees) : ℕ → Prop
  | 0 => Actif (w 0)
  | k + 1 => (w k).resetIn0 = true ∨ Actif (w (k + 1))

instance : DecidablePred (Pose w)
  | 0 => inferInstanceAs (Decidable (Actif _))
  | _ + 1 => inferInstanceAs (Decidable (_ ∨ _))

theorem pose_actif {k : ℕ} (h : Actif (w k)) : Pose w k := by
  cases k with
  | zero => exact h
  | succ k => exact Or.inr h

/-- What sets it is an activity of the pin, in this cycle or in the one before. -/
theorem actif_pose {k : ℕ} (h : Pose w k) : ∃ j, Actif (w j) ∧ j ≤ k ∧ k ≤ j + 1 := by
  cases k with
  | zero => exact ⟨0, h, le_rfl, Nat.zero_le 1⟩
  | succ k =>
      rcases h with h | h
      · exact ⟨k, actif_front h, k.le_succ, le_rfl⟩
      · exact ⟨k + 1, h, le_rfl, Nat.le_succ _⟩

/-- The chain of the synchronizer when edge `k` comes, behind its contents at
power-on. -/
def chaine (g : Generiques) (w : ℕ → ResetEntrees) : ℕ → BitVec g.syncDepth
  | 0 => 0
  | k + 1 => (rstSyncAvant (w k) (cycle g w k)).intChain

theorem rstSyncAvant_eq (k : ℕ) : rstSyncAvant (w k) (cycle g w k) =
    if Pose w k then ⟨BitVec.allOnes g.syncDepth, true⟩
    else ⟨chaine g w k >>> 1, (chaine g w k).getLsbD 0⟩ := by
  rw [rstSyncAvant, ResetSynchronizer.foldl_asynchrone]
  cases k with
  | zero =>
      refine if_congr Iff.rfl rfl ?_
      simp [chaine, cycle, run_zero, powerOn]
  | succ k =>
      rw [cycle_succ]
      show (if Actif (w (k + 1)) then _
        else ResetSynchronizer.front (w k).resetIn0 (rstSyncAvant (w k) (cycle g w k))) = _
      rw [ResetSynchronizer.front]
      unfold Pose
      split_ifs <;> simp_all [chaine]

/-- Once set, `reset_out_pre` stays up for SYNC_DEPTH edges more. -/
theorem resetOutPre_iff (k : ℕ) : resetOutPre (w k) (cycle g w k) = true ↔
    ∃ u, Pose w u ∧ u ≤ k ∧ k ≤ u + g.syncDepth := by
  have hc : ∀ k, chaine g w (k + 1) =
      if Pose w k then BitVec.allOnes g.syncDepth else chaine g w k >>> 1 := by
    intro k
    show (rstSyncAvant (w k) (cycle g w k)).intChain = _
    rw [rstSyncAvant_eq]
    split_ifs <;> rfl
  have h0 : ∀ j, (chaine g w 0).getLsbD j = false := fun j => BitVec.getLsbD_zero
  rw [resetOutPre, rstSyncAvant_eq]
  split_ifs with hk
  · exact iff_of_true rfl ⟨k, hk, le_rfl, Nat.le_add_right _ _⟩
  · show (chaine g w k).getLsbD 0 = true ↔ _
    rw [retenue_iff hc, h0]
    constructor
    · rintro (⟨u, huk, hu, h⟩ | h)
      · exact ⟨u, hu, huk.le, h⟩
      · exact absurd h Bool.false_ne_true
    · rintro ⟨u, hu, huk, h⟩
      rcases Nat.lt_or_eq_of_le huk with hlt | rfl
      · exact Or.inl ⟨u, hlt, hu, h⟩
      · exact absurd hu hk

/-! ## What the chains show -/

/-- The history of `reset_out_pre`, TAP cycles late: up in that many cycles before
power-on. -/
def Haut (g : Generiques) (w : ℕ → ResetEntrees) (u : ℕ) : Prop :=
  u < g.rstreqAsrtSyncTap ∨
    ∃ v, u = v + g.rstreqAsrtSyncTap ∧ resetOutPre (w v) (cycle g w v) = true

theorem haut_add {v : ℕ} : Haut g w (v + g.rstreqAsrtSyncTap) ↔
    resetOutPre (w v) (cycle g w v) = true := by
  constructor
  · rintro (h | ⟨v', hv, h⟩)
    · omega
    · obtain rfl := Nat.add_right_cancel hv
      exact h
  · exact fun h => Or.inr ⟨v, rfl, h⟩

/-- It rises for three cycles at least. -/
theorem haut_monte {u : ℕ} (hu : Haut g w u) (hmonte : ∀ t, u = t + 1 → ¬ Haut g w t) :
    Haut g w (u + 1) ∧ Haut g w (u + 2) := by
  have hdepth := g.depth
  have htap : 3 + 1 ≤ g.rstreqAsrtSyncTap := Nat.add_le_add_left g.wait 3
  rcases hu with hlt | ⟨v, rfl, hv⟩
  · cases u with
    | zero => exact ⟨Or.inl (by omega), Or.inl (by omega)⟩
    | succ t => exact absurd (Or.inl (Nat.lt_of_succ_lt hlt)) (hmonte t rfl)
  · obtain ⟨i, hi, hiv, hvi⟩ := (resetOutPre_iff v).mp hv
    -- had it been set before `v`, it would have been up at `v - 1`
    obtain rfl : i = v := by
      by_contra hne
      obtain ⟨v', rfl⟩ : ∃ v', v = v' + 1 := ⟨v - 1, by omega⟩
      refine hmonte (v' + g.rstreqAsrtSyncTap) (by omega) (haut_add.mpr ?_)
      exact (resetOutPre_iff v').mpr ⟨i, hi, by omega, by omega⟩
    have hsuite : ∀ d, d ≤ g.syncDepth → Haut g w (i + g.rstreqAsrtSyncTap + d) := by
      intro d hd
      rw [show i + g.rstreqAsrtSyncTap + d = i + d + g.rstreqAsrtSyncTap by omega, haut_add]
      exact (resetOutPre_iff _).mpr ⟨i, hi, by omega, by omega⟩
    exact ⟨hsuite 1 (by omega), hsuite 2 (by omega)⟩

theorem intChain_iff {i : ℕ} (hi : i ≤ g.rstreqAsrtSyncTap) (k : ℕ) :
    (cycle g w k).intChain.getLsbD i = true ↔
      ∃ u, Haut g w u ∧ u + i + 1 = k + g.rstreqAsrtSyncTap := by
  have hc : ∀ k, (cycle g w (k + 1)).intChain =
      (cycle g w k).intChain.shiftConcat (resetOutPre (w k) (cycle g w k)) := by
    intro k
    rw [cycle_succ]
    rfl
  refine (ligne_iff (c := fun k => (cycle g w k).intChain) hc (Nat.lt_succ_of_le hi) k).trans ?_
  show _ ∨ (k ≤ i ∧ ((BitVec.allOnes _).setWidth _).getLsbD (i - k) = true) ↔ _
  rw [BitVec.getLsbD_setWidth, BitVec.getLsbD_allOnes, Bool.and_eq_true, decide_eq_true_eq,
    decide_eq_true_eq]
  constructor
  · rintro (⟨v, hv, h⟩ | ⟨hk, -, h⟩)
    · exact ⟨v + g.rstreqAsrtSyncTap, haut_add.mpr h, by omega⟩
    · exact ⟨k + g.rstreqAsrtSyncTap - i - 1, Or.inl (by omega), by omega⟩
  · rintro ⟨u, hlt | ⟨v, rfl, h⟩, hu⟩
    · exact Or.inr ⟨by omega, by omega, by omega⟩
    · exact Or.inl ⟨v, by omega, h⟩

theorem rSyncRstChain_iff (j k : ℕ) : (cycle g w k).rSyncRstChain.getLsbD j = true ↔
    ∃ u, Haut g w u ∧ u + 4 ≤ k + g.rstreqAsrtSyncTap ∧
      k + g.rstreqAsrtSyncTap + j ≤ u + g.assertionChainLength + 3 := by
  have hwait := g.wait
  have htap : g.rstreqAsrtSyncTap = 3 + g.resetReqWaitTime := rfl
  have hc : ∀ k, (cycle g w (k + 1)).rSyncRstChain =
      if (cycle g w k).intChain.getLsbD 2 = true then BitVec.allOnes g.assertionChainLength
      else (cycle g w k).rSyncRstChain >>> 1 := by
    intro k
    rw [cycle_succ]
    rfl
  refine (retenue_iff (c := fun k => (cycle g w k).rSyncRstChain) hc j k).trans ?_
  show _ ∨ (BitVec.allOnes _).getLsbD (k + j) = true ↔ _
  rw [BitVec.getLsbD_allOnes, decide_eq_true_eq]
  constructor
  · rintro (⟨v, hvk, hv, h⟩ | h)
    · obtain ⟨u, hu, huv⟩ := (intChain_iff (by omega) v).mp hv
      exact ⟨u, hu, by omega, by omega⟩
    · exact ⟨g.rstreqAsrtSyncTap - 4, Or.inl (by omega), by omega, by omega⟩
  · rintro ⟨u, hu, h4, h⟩
    -- `int_chain[2]` showed `u` at cycle `u - TAP + 3`, which may lie before power-on
    rcases Nat.lt_or_ge (u + 3) g.rstreqAsrtSyncTap with hlt | hge
    · exact Or.inr (by omega)
    · refine Or.inl ⟨u + 3 - g.rstreqAsrtSyncTap, by omega, ?_, by omega⟩
      exact (intChain_iff (by omega) _).mpr ⟨u, hu, by omega⟩

/-! ## The outputs -/

theorem resetOut_succ (k : ℕ) : resetOut (cycle g w (k + 1)) = true ↔
    (∃ u, Haut g w u ∧ u + 1 = k) ∨ resetOut (cycle g w k) = true ∧
      ∃ u, Haut g w u ∧ u + 4 ≤ k + g.rstreqAsrtSyncTap ∧
        k + g.rstreqAsrtSyncTap ≤ u + g.assertionChainLength + 2 := by
  rw [cycle_succ]
  show casSync _ _ _ = true ↔ _
  rw [casSync_eq_true, intChain_iff le_rfl, rSyncRstChain_iff, and_comm]
  refine or_congr (exists_congr fun u => and_congr_right fun _ => ?_)
    (and_congr_right fun _ => exists_congr fun u => and_congr_right fun _ =>
      and_congr_right fun _ => ?_) <;> omega

section
variable (hreq : g.useResetRequestIn0 = false)

include hreq

/-- No request comes in. -/
theorem resetReqPre_eq (k : ℕ) : resetReqPre (cycle g w k) = false := by
  have h : (cycle g w k).rstReqSync = ⟨0, false⟩ := by
    refine run_invariant (I := fun s : ResetController g => s.rstReqSync = ⟨0, false⟩) rfl ?_ k
    intro e s hs
    show ResetSynchronizer.frontSync (mergedResetReqIn g e) s.rstReqSync = _
    rw [mergedResetReqIn, hreq, hs]
    simp [ResetSynchronizer.frontSync]
  rw [resetReqPre, h]

theorem resetReq_succ (k : ℕ) : resetReq (cycle g w (k + 1)) = true ↔
    ∃ u, Haut g w u ∧ u + 4 ≤ k + g.rstreqAsrtSyncTap ∧
      k + g.rstreqAsrtSyncTap + g.resetReqEarlyDsrtTime ≤ u + g.assertionChainLength + 2 := by
  rw [cycle_succ]
  show casEarly _ (_ || resetReqPre (cycle g w k)) = true ↔ _
  rw [casEarly_eq, resetReqPre_eq hreq, Bool.or_false, rSyncRstChain_iff]
  refine exists_congr fun u => and_congr_right fun _ => and_congr_right fun _ => ?_
  show _ + (g.resetReqEarlyDsrtTime + 1) ≤ _ ↔ _
  omega

end

/-- While the input is up `reset_out` is, from WAIT + 5 cycles after on, and for the
length of the chain. -/
theorem resetOut_tenu {x y : ℕ} (h : ∀ u, x ≤ u → u ≤ y → Haut g w u) (hxy : x ≤ y) {n : ℕ}
    (hx : x + 2 ≤ n) (hy : n + g.rstreqAsrtSyncTap ≤ y + g.assertionChainLength + 3) :
    resetOut (cycle g w n) = true := by
  have hlen := g.longueur
  have htap : g.rstreqAsrtSyncTap = 3 + g.resetReqWaitTime := rfl
  induction n, hx using Nat.le_induction with
  | base => exact (resetOut_succ _).mpr (Or.inl ⟨x, h x le_rfl hxy, rfl⟩)
  | succ n hn ih =>
      refine (resetOut_succ n).mpr (Or.inr ⟨ih (by omega), ?_⟩)
      have hwait := g.wait
      rcases Nat.lt_or_ge y (n + g.rstreqAsrtSyncTap - 4) with hlt | hge
      · exact ⟨y, h y hxy le_rfl, by omega, by omega⟩
      · exact ⟨_, h _ (by omega) hge, by omega, by omega⟩

/-- Where it rises, the input rose WAIT + 5 cycles before. -/
theorem resetOut_monte {n : ℕ} (h0 : resetOut (cycle g w n) = false)
    (h1 : resetOut (cycle g w (n + 1)) = true) :
    ∃ u, n = u + 1 ∧ ∀ i, i ≤ 2 → Haut g w (u + i) := by
  rcases (resetOut_succ n).mp h1 with ⟨u, hu, rfl⟩ | ⟨h, -⟩
  · have hmonte : ∀ t, u = t + 1 → ¬ Haut g w t := by
      rintro t rfl ht
      have := (resetOut_succ (t + 1)).mpr (Or.inl ⟨t, ht, rfl⟩)
      exact Bool.false_ne_true (h0.symm.trans this)
    obtain ⟨h1, h2⟩ := haut_monte hu hmonte
    refine ⟨u, rfl, fun i hi => ?_⟩
    rcases Nat.le_succ_iff.mp hi with hi | rfl
    · rcases Nat.le_succ_iff.mp hi with hi | rfl
      · obtain rfl := Nat.le_zero.mp hi
        exact hu
      · exact h1
    · exact h2
  · exact absurd (h0.symm.trans h) Bool.false_ne_true

/-- The cycles after which `reset_out` has forgotten its input. -/
def traine (g : Generiques) : ℕ := max (g.assertionChainLength + 3) (g.resetReqWaitTime + 5)

/-- What is up has been up at the input within `traine`. -/
theorem resetOut_haut {n : ℕ} (h : resetOut (cycle g w n) = true) :
    ∃ u, Haut g w u ∧ u ≤ n + g.resetReqWaitTime ∧
      n + g.rstreqAsrtSyncTap ≤ u + traine g := by
  have htap : g.rstreqAsrtSyncTap = 3 + g.resetReqWaitTime := rfl
  have hlen : g.assertionChainLength + 3 ≤ traine g := Nat.le_max_left _ _
  have hwait : g.resetReqWaitTime + 5 ≤ traine g := Nat.le_max_right _ _
  cases n with
  | zero => exact absurd h Bool.false_ne_true
  | succ k =>
      rcases (resetOut_succ k).mp h with ⟨u, hu, rfl⟩ | ⟨-, u, hu, h4, hL⟩
      · exact ⟨u, hu, by omega, by omega⟩
      · exact ⟨u, hu, by omega, by omega⟩

theorem resetOut_suit {k : ℕ} (h : Actif (w k)) :
    resetOut (cycle g w (k + g.resetReqWaitTime + 5)) = true := by
  have htap : g.rstreqAsrtSyncTap = 3 + g.resetReqWaitTime := rfl
  refine (resetOut_succ _).mpr (Or.inl ⟨k + g.rstreqAsrtSyncTap, ?_, by omega⟩)
  exact haut_add.mpr ((resetOutPre_iff k).mpr ⟨k, pose_actif h, le_rfl, Nat.le_add_right _ _⟩)

theorem resetOut_cause {n : ℕ} (h : resetOut (cycle g w n) = true) : n < traine g ∨
    ∃ k, Actif (w k) ∧ k ≤ n ∧ n ≤ k + g.syncDepth + 1 + traine g := by
  have htap : g.rstreqAsrtSyncTap = 3 + g.resetReqWaitTime := rfl
  obtain ⟨u, hu | ⟨v, rfl, hv⟩, hun, hnu⟩ := resetOut_haut h
  · exact Or.inl (by omega)
  · right
    obtain ⟨i, hi, hiv, hvi⟩ := (resetOutPre_iff v).mp hv
    obtain ⟨j, hj, hji, hij⟩ := actif_pose hi
    exact ⟨j, hj, by omega, by omega⟩

/-- The order of the two outputs, and what they have to do with the pin.  At power-on
no cycle comes before 1. -/
structure Sequence (g : Generiques) (w : ℕ → ResetEntrees) : Prop where
  annonce : ∀ n, resetOut (cycle g w n) = false → resetOut (cycle g w (n + 1)) = true →
    ∀ k, 0 < k → k ≤ n → n < k + g.resetReqWaitTime → resetReq (cycle g w k) = true
  relache : ∀ n, resetOut (cycle g w n) = true → resetOut (cycle g w (n + 1)) = false →
    ∀ k, k ≤ n + 1 → n < k + g.resetReqEarlyDsrtTime → resetReq (cycle g w k) = false
  duree : ∀ n, resetOut (cycle g w n) = false → resetOut (cycle g w (n + 1)) = true →
    ∀ d, d < g.minRstAssertionTime → resetOut (cycle g w (n + 1 + d)) = true
  suit : ∀ k, Actif (w k) → resetOut (cycle g w (k + g.resetReqWaitTime + 5)) = true
  cause : ∀ n, resetOut (cycle g w n) = true → n < traine g ∨
    ∃ k, Actif (w k) ∧ k ≤ n ∧ n ≤ k + g.syncDepth + 1 + traine g

/-- The pin goes up and down again in cycle 100, and no edge samples it up. -/
def eclair (k : ℕ) : ResetEntrees := ⟨[decide (k = 100)], false, false⟩

end

end ResetController

end BarreFranche
