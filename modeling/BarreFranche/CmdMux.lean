/-
# `CmdMux` — two masters at one slave

`nios_mcu_mm_interconnect_0_cmd_mux_002.sv` stands before the one slave that the
data and the instruction master of the processor share.  It holds a grant,
picks the next one a cycle ahead with the pipelined arbitrator, and joins the
packets of the two sinks as a sum of products.

The sum is right only if the grant has at most one bit, which is the arbitrator's
doing (`Sain`): so what leaves is what one sink hands over, whole and once
(`mux_exclusif`).

The grant changes when nothing is going on, or with the last cycle of a packet.
A sink that takes its packet back in the middle therefore stops the other one for
good (`retire_mort`); between sinks that hold what they offer, and packets of one cycle
without a lock, as the masters of the processor send them, nobody waits for more
than one packet of the other (`mux_equitable`).
-/
import BarreFranche.Arbitre

namespace BarreFranche

open Synchrone

/-- A sink: its `valid`, and the channel, the data, `startofpacket` and
`endofpacket` in one vector. -/
structure Sink where
  valid : Bool
  payload : BitVec 100
deriving DecidableEq, Repr

def Sink.endofpacket (x : Sink) : Bool := x.payload.getLsbD 0

/-- Bit 56 of the data. -/
def Sink.lock (x : Sink) : Bool := x.payload.getLsbD 58

/-- The pins sampled by an edge. -/
structure MuxEntrees where
  sink0 : Sink
  sink1 : Sink
  srcReady : Bool
deriving DecidableEq, Repr

def MuxEntrees.sink (e : MuxEntrees) (i : ℕ) : Sink := if i = 0 then e.sink0 else e.sink1

/-- A signal of the sinks as a vector. -/
def MuxEntrees.vecteur (e : MuxEntrees) (f : Sink → Bool) : BitVec 2 :=
  BitVec.ofBool (f e.sink1) ++ BitVec.ofBool (f e.sink0)

/-- The registers, those of the arbitrator included. -/
structure CmdMux where
  savedGrant : BitVec 2
  locked : BitVec 2
  packetInProgress : Bool
  shareCount : BitVec 1
  shareCountZeroFlag : Bool
  arb : Arbitre 2
deriving DecidableEq, Repr

namespace CmdMux

/-- While `reset` is '1'. -/
def powerOn : CmdMux :=
  { savedGrant := 0
    locked := 0
    packetInProgress := false
    shareCount := 0
    shareCountZeroFlag := true
    arb := Arbitre.powerOn 2 }

/-! ## The signals -/

/-- `share_0` and `share_1`: one packet each, counted from 0. -/
def share : BitVec 1 := 0

section
variable (e : MuxEntrees) (s : CmdMux)

def grant : BitVec 2 := s.savedGrant

def request : BitVec 2 := e.vecteur Sink.valid ||| s.locked

def nextGrant : BitVec 2 := s.arb.grant .roundRobin (request e s)

def srcValid : Bool := decide (s.grant &&& e.vecteur Sink.valid ≠ 0)

def srcPayload : BitVec 100 :=
  (if s.grant.getLsbD 0 then e.sink0.payload else 0) |||
    (if s.grant.getLsbD 1 then e.sink1.payload else 0)

def sinkReady (i : ℕ) : Bool := e.srcReady && s.grant.getLsbD i

def lastCycle : Bool :=
  srcValid e s && e.srcReady && (srcPayload e s).getLsbD 0 &&
    decide (e.vecteur Sink.lock &&& s.grant = 0)

def updateGrant : Bool :=
  (!s.packetInProgress && !srcValid e s) || (lastCycle e s && s.shareCountZeroFlag)

def nextGrantShare : BitVec 1 :=
  (if (nextGrant e s).getLsbD 0 then share else 0) |||
    (if (nextGrant e s).getLsbD 1 then share else 0)

def p1ShareCount : BitVec 1 := if s.shareCountZeroFlag then 0 else s.shareCount - 1

/-- One rising edge of `clk`. -/
def front : CmdMux :=
  { savedGrant := if updateGrant e s then nextGrant e s else s.savedGrant
    locked := nextGrant e s &&& e.vecteur Sink.lock
    packetInProgress :=
      if lastCycle e s then false else if srcValid e s then true else s.packetInProgress
    shareCount :=
      if updateGrant e s then nextGrantShare e s
      else if lastCycle e s then p1ShareCount s
      else s.shareCount
    shareCountZeroFlag :=
      if updateGrant e s then decide (nextGrantShare e s = 0)
      else if lastCycle e s then decide (p1ShareCount s = 0)
      else s.shareCountZeroFlag
    arb := Arbitre.front .roundRobin true
      ⟨request e s, updateGrant e s, srcValid e s⟩ s.arb }

end

/-- The registers at cycle `k`, since the last reset. -/
def cycle (w : ℕ → MuxEntrees) (k : ℕ) : CmdMux := run front powerOn w k

theorem cycle_succ {w : ℕ → MuxEntrees} (k : ℕ) :
    cycle w (k + 1) = front (w k) (cycle w k) := run_succ k

/-! ## The grant -/

/-- Nobody has the grant, or one sink, and the priority is behind it. -/
structure Sain (s : CmdMux) : Prop where
  flag : s.shareCountZeroFlag = true
  pointe : ∃ p, Arbitre.Pointe p s.arb
  grant : s.grant = 0 ∨
    ∃ g, g < 2 ∧ s.grant = BitVec.twoPow 2 g ∧ Arbitre.Pointe (apres 2 g) s.arb

section
variable {e : MuxEntrees} {s : CmdMux}

theorem vecteur_bit {f : Sink → Bool} {i : ℕ} (hi : i < 2) :
    (e.vecteur f).getLsbD i = f (e.sink i) := by
  rw [MuxEntrees.vecteur, MuxEntrees.sink, BitVec.getLsbD_append]
  match i, hi with
  | 0, _ => simp
  | 1, _ => simp

theorem nextGrantShare_eq : nextGrantShare e s = 0 := by
  rw [nextGrantShare, share, ite_self, ite_self]
  rfl

/-- An edge that updates: the grant is the arbitrator's. -/
theorem front_update (h : updateGrant e s = true) :
    (front e s).grant = nextGrant e s := by
  rw [grant, front]
  exact if_pos h

theorem front_tient (h : updateGrant e s = false) : (front e s).grant = s.grant := by
  rw [grant, front, h]
  rfl

theorem Sain.front (h : Sain s) : Sain (front e s) := by
  obtain ⟨hflag, ⟨p, hp⟩, hgrant⟩ := h
  have hflag' : (CmdMux.front e s).shareCountZeroFlag = true := by
    simp only [CmdMux.front, nextGrantShare_eq, p1ShareCount, hflag, if_true]
    split_ifs <;> decide
  cases hu : updateGrant e s with
  | true =>
      by_cases hr : request e s = 0
      · have harb : Arbitre.Pointe p (CmdMux.front e s).arb :=
          hp.tient fun h0 => h0.2 hr
        refine ⟨hflag', ⟨p, harb⟩, Or.inl ?_⟩
        rw [front_update hu, nextGrant, hr]
        exact Arbitre.grant_zero s.arb
      · obtain ⟨i, hi, hd⟩ := Arbitre.demande_exists hr
        obtain ⟨g, hg⟩ := elu_exists (p := p) hi hd
        have harb : Arbitre.Pointe (apres 2 g) (CmdMux.front e s).arb :=
          hp.tourne (by decide) hu hg
        refine ⟨hflag', ⟨_, harb⟩, Or.inr ⟨g, hg.lt, ?_, harb⟩⟩
        rw [front_update hu]
        exact Arbitre.grant_elu (by decide) hp hg
  | false =>
      have harb : ∀ q, Arbitre.Pointe q s.arb → Arbitre.Pointe q (CmdMux.front e s).arb :=
        fun q hq => hq.tient fun h0 => Bool.false_ne_true (hu.symm.trans h0.1)
      refine ⟨hflag', ⟨p, harb p hp⟩, ?_⟩
      rw [front_tient hu]
      rcases hgrant with h0 | ⟨g, hg, heq, hpg⟩
      · exact Or.inl h0
      · exact Or.inr ⟨g, hg, heq, harb _ hpg⟩

theorem sain_powerOn : Sain powerOn where
  flag := rfl
  pointe := ⟨0, Arbitre.pointe_powerOn (by decide)⟩
  grant := Or.inl rfl

end

theorem sain_cycle {w : ℕ → MuxEntrees} (k : ℕ) : Sain (cycle w k) :=
  run_invariant sain_powerOn (fun _ _ h => h.front) k

/-! ## What leaves -/

/-- Sink `i` hands a packet over. -/
def Remet (e : MuxEntrees) (s : CmdMux) (i : ℕ) : Prop :=
  (e.sink i).valid = true ∧ sinkReady e s i = true

/-- The slave takes a packet. -/
def Prend (e : MuxEntrees) (s : CmdMux) : Prop := srcValid e s = true ∧ e.srcReady = true

instance (e : MuxEntrees) (s : CmdMux) (i : ℕ) : Decidable (Remet e s i) :=
  inferInstanceAs (Decidable (_ ∧ _))

section
variable {e : MuxEntrees} {s : CmdMux} {g : ℕ}

theorem grant_bit (h : s.grant = BitVec.twoPow 2 g) {i : ℕ} (hi : i < 2) :
    s.grant.getLsbD i = decide (g = i) := by
  rw [h, BitVec.getLsbD_twoPow]
  rcases Decidable.em (g = i) with rfl | hne
  · simp [hi]
  · simp [hne]

theorem srcValid_eq (h : s.grant = BitVec.twoPow 2 g) (hg : g < 2) :
    srcValid e s = (e.sink g).valid := by
  have hbit := vecteur_bit (e := e) (f := Sink.valid) hg
  rw [srcValid, h, Bool.eq_iff_iff, decide_eq_true_eq]
  constructor
  · intro hne
    by_contra hno
    refine hne (BitVec.eq_of_getLsbD_eq fun i hi => ?_)
    rw [BitVec.getLsbD_and, BitVec.getLsbD_twoPow]
    rcases Decidable.em (g = i) with rfl | hgi
    · rw [hbit, Bool.eq_false_of_not_eq_true hno]
      simp
    · simp [hgi]
  · intro hv h0
    have := congrArg (fun x => x.getLsbD g) h0
    simp only [BitVec.getLsbD_and, BitVec.getLsbD_twoPow, hbit, hv, hg] at this
    simp at this

theorem srcPayload_eq (h : s.grant = BitVec.twoPow 2 g) (hg : g < 2) :
    srcPayload e s = (e.sink g).payload := by
  rw [srcPayload, grant_bit h (by decide), grant_bit h (by decide)]
  match g, hg with
  | 0, _ => exact BitVec.or_zero
  | 1, _ => exact BitVec.zero_or

theorem remet_iff (h : s.grant = BitVec.twoPow 2 g) {i : ℕ} (hi : i < 2) :
    Remet e s i ↔ i = g ∧ (e.sink i).valid = true ∧ e.srcReady = true := by
  rw [Remet, sinkReady, Bool.and_eq_true, grant_bit h hi, decide_eq_true_eq]
  exact ⟨fun ⟨h1, h2, h3⟩ => ⟨h3.symm, h1, h2⟩, fun ⟨h1, h2, h3⟩ => ⟨h2, h3, h1.symm⟩⟩

/-- Without a grant nothing moves. -/
theorem sans_grant (h : s.grant = 0) :
    srcValid e s = false ∧ ∀ i, i < 2 → ¬ Remet e s i := by
  refine ⟨by simp [srcValid, h], fun i _ hr => ?_⟩
  have hbit := hr.2
  rw [sinkReady, h, Bool.and_eq_true] at hbit
  exact Bool.false_ne_true (BitVec.getLsbD_zero.symm.trans hbit.2)

end

/-- The slave takes a packet when a sink hands one over. -/
theorem mux_prend {w : ℕ → MuxEntrees} (k : ℕ) :
    Prend (w k) (cycle w k) ↔ ∃ i, i < 2 ∧ Remet (w k) (cycle w k) i := by
  rcases (sain_cycle (w := w) k).grant with h0 | ⟨g, hg, h, -⟩
  · obtain ⟨hv, hno⟩ := sans_grant (e := w k) h0
    constructor
    · exact fun hp => absurd (hv.symm.trans hp.1) Bool.false_ne_true
    · rintro ⟨i, hi, hr⟩
      exact absurd hr (hno i hi)
  · rw [Prend, srcValid_eq h hg]
    constructor
    · exact fun hp => ⟨g, hg, (remet_iff h hg).mpr ⟨rfl, hp⟩⟩
    · rintro ⟨i, hi, hr⟩
      obtain ⟨rfl, hp⟩ := (remet_iff h hi).mp hr
      exact hp

/-- The sinks send packets of one cycle without a lock, and keep one up until it
is taken. -/
structure Loyal (w : ℕ → MuxEntrees) : Prop where
  lock : ∀ k i, i < 2 → ((w k).sink i).lock = false
  endofpacket : ∀ k i, i < 2 → ((w k).sink i).valid = true → ((w k).sink i).endofpacket = true
  tient : ∀ k i, i < 2 → ((w k).sink i).valid = true → ¬ Remet (w k) (cycle w k) i →
    ((w (k + 1)).sink i).valid = true

section
variable {w : ℕ → MuxEntrees} {k i j R : ℕ}

theorem Loyal.lock_zero (h : Loyal w) (k : ℕ) : (w k).vecteur Sink.lock = 0 := by
  refine BitVec.eq_of_getLsbD_eq fun i hi => ?_
  rw [vecteur_bit hi, h.lock k i hi]
  exact BitVec.getLsbD_zero.symm

/-- Only the `valid` ask. -/
theorem Loyal.demande_iff (h : Loyal w) (hi : i < 2) :
    Arbitre.Demande (request (w k) (cycle w k)) i ↔ ((w k).sink i).valid = true := by
  have hlocked : (cycle w k).locked = 0 := by
    cases k with
    | zero => rfl
    | succ k =>
        rw [cycle_succ, front]
        show nextGrant _ _ &&& (w k).vecteur Sink.lock = 0
        rw [h.lock_zero k]
        exact BitVec.and_zero
  rw [Arbitre.Demande, request, hlocked, show (0 : BitVec 2) = 0#2 from rfl, BitVec.or_zero,
    vecteur_bit hi]

/-- Every cycle that is taken is the last one of its packet. -/
theorem Loyal.lastCycle_eq (h : Loyal w) (k : ℕ) :
    lastCycle (w k) (cycle w k) = (srcValid (w k) (cycle w k) && (w k).srcReady) := by
  have hlock : decide ((w k).vecteur Sink.lock &&& (cycle w k).grant = 0) = true := by
    rw [h.lock_zero k]
    exact decide_eq_true BitVec.zero_and
  rw [lastCycle, hlock, Bool.and_true]
  rcases (sain_cycle (w := w) k).grant with h0 | ⟨g, hg, hgrant, -⟩
  · rw [(sans_grant h0).1]
    rfl
  · rw [srcPayload_eq hgrant hg, srcValid_eq hgrant hg]
    cases hv : ((w k).sink g).valid with
    | false => rfl
    | true =>
        rw [show ((w k).sink g).payload.getLsbD 0 = true from h.endofpacket k g hg hv,
          Bool.and_true]

/-- A packet that waits in the multiplexer is still there. -/
theorem Loyal.enCours (h : Loyal w) (k : ℕ) :
    (cycle w k).packetInProgress = true → srcValid (w k) (cycle w k) = true := by
  induction k with
  | zero => exact fun hp => absurd hp Bool.false_ne_true
  | succ k ih =>
      intro hp
      have hl := h.lastCycle_eq k
      rw [cycle_succ, front] at hp
      have hlast : lastCycle (w k) (cycle w k) = false := by
        by_contra hc
        simp [Bool.eq_true_of_not_eq_false hc] at hp
      have hv : srcValid (w k) (cycle w k) = true := by
        by_contra hc
        exact hc (ih (by simpa [hlast, hc] using hp))
      have hready : (w k).srcReady = false := by simpa [hv, hlast] using hl.symm
      have hgrant : (cycle w (k + 1)).grant = (cycle w k).grant := by
        rw [cycle_succ]
        refine front_tient ?_
        simp [updateGrant, hv, hlast]
      rcases (sain_cycle (w := w) k).grant with h0 | ⟨g, hg, heq, -⟩
      · exact absurd ((sans_grant h0).1.symm.trans hv) Bool.false_ne_true
      · rw [srcValid_eq heq hg] at hv
        rw [srcValid_eq (hgrant.trans heq) hg]
        refine h.tient k g hg hv fun hr => ?_
        exact Bool.false_ne_true (hready.symm.trans ((remet_iff heq hg).mp hr).2.2)

/-- The grant is renewed whenever no packet waits. -/
theorem Loyal.updateGrant_eq (h : Loyal w) (k : ℕ) :
    updateGrant (w k) (cycle w k) = (!srcValid (w k) (cycle w k) || (w k).srcReady) := by
  rw [updateGrant, (sain_cycle (w := w) k).flag, h.lastCycle_eq k, Bool.and_true]
  cases hp : (cycle w k).packetInProgress with
  | false => cases srcValid (w k) (cycle w k) <;> simp
  | true =>
      rw [h.enCours k hp]
      simp

/-- Then the next one is the first that asks, from the pointer on. -/
theorem Loyal.attribue (h : Loyal w) {p g : ℕ} (hp : Arbitre.Pointe p (cycle w k).arb)
    (hu : updateGrant (w k) (cycle w k) = true)
    (hg : Elu 2 p (fun i => ((w k).sink i).valid = true) g) :
    (cycle w (k + 1)).grant = BitVec.twoPow 2 g := by
  rw [cycle_succ, front_update hu]
  refine Arbitre.grant_elu (by decide) hp ⟨hg.lt, (h.demande_iff hg.lt).mpr hg.demandeur, ?_⟩
  exact fun i hi hd => hg.premier i hi ((h.demande_iff hi).mp hd)

/-- Behind sink `j` it is the turn of the other one. -/
theorem Loyal.suivant (h : Loyal w) (hi : i < 2) (hj : j < 2) (hij : i ≠ j)
    (hgrant : (cycle w k).grant = BitVec.twoPow 2 j)
    (hu : updateGrant (w k) (cycle w k) = true) (hv : ((w k).sink i).valid = true) :
    (cycle w (k + 1)).grant = BitVec.twoPow 2 i := by
  rcases (sain_cycle (w := w) k).grant with h0 | ⟨g, hg, heq, hp⟩
  · have hbit := grant_bit hgrant hj
    rw [h0] at hbit
    simp at hbit
  · have hgj : g = j := by
      have hbit := grant_bit heq hj
      rw [grant_bit hgrant hj] at hbit
      simpa using hbit.symm
    refine h.attribue hp hu ⟨hi, hv, fun l hl _ => ?_⟩
    rw [hgj]
    unfold ecart apres
    split_ifs <;> omega

/-- The sink that has the grant hands its packet over as soon as the slave is
ready, and keeps the grant until then. -/
theorem Loyal.remet (h : Loyal w) (hR : ∀ n, ∃ d, d < R ∧ (w (n + d)).srcReady = true)
    (hi : i < 2) {n : ℕ} (hgrant : (cycle w n).grant = BitVec.twoPow 2 i)
    (hv : ((w n).sink i).valid = true) :
    ∃ m, n ≤ m ∧ m < n + R ∧ Remet (w m) (cycle w m) i ∧
      (cycle w m).grant = BitVec.twoPow 2 i ∧ ∀ k, n ≤ k → k < m → (w k).srcReady = false := by
  classical
  have hd := Nat.find_spec (hR n)
  have havant : ∀ d, d < Nat.find (hR n) → (w (n + d)).srcReady = false := fun d hlt => by
    rw [← Bool.not_eq_true]
    exact fun hr => Nat.find_min (hR n) hlt ⟨hlt.trans hd.1, hr⟩
  have hattend : ∀ d, d ≤ Nat.find (hR n) →
      (cycle w (n + d)).grant = BitVec.twoPow 2 i ∧ ((w (n + d)).sink i).valid = true := by
    intro d
    induction d with
    | zero => exact fun _ => ⟨hgrant, hv⟩
    | succ d ih =>
        intro hle
        obtain ⟨hg, hvd⟩ := ih (Nat.le_of_succ_le hle)
        have hready := havant d hle
        rw [← Nat.add_assoc]
        constructor
        · rw [cycle_succ, front_tient, hg]
          rw [h.updateGrant_eq, hready, srcValid_eq hg hi, hvd]
          rfl
        · refine h.tient _ i hi hvd fun hr => ?_
          exact Bool.false_ne_true (hready.symm.trans ((remet_iff hg hi).mp hr).2.2)
  obtain ⟨hg, hvm⟩ := hattend _ le_rfl
  refine ⟨n + Nat.find (hR n), Nat.le_add_right n _, by omega,
    (remet_iff hg hi).mpr ⟨rfl, hvm, hd.2⟩, hg, fun k hnk hk => ?_⟩
  rw [← Nat.add_sub_cancel' hnk]
  exact havant (k - n) (by omega)

/-- What is up stays up while the other sink has the grant. -/
theorem Loyal.attend (h : Loyal w) (hi : i < 2) {n m : ℕ} (hnm : n ≤ m)
    (hv : ((w n).sink i).valid = true) (hno : ∀ k, n ≤ k → k < m → ¬ Remet (w k) (cycle w k) i) :
    ((w m).sink i).valid = true := by
  induction m, hnm using Nat.le_induction with
  | base => exact hv
  | succ m hnm ih =>
      exact h.tient m i hi (ih fun k hnk hkm => hno k hnk (Nat.lt_succ_of_lt hkm))
        (hno m hnm (Nat.lt_succ_self m))

/-- Edge `k` takes a packet of sink `j`. -/
def Servi (w : ℕ → MuxEntrees) (j k : ℕ) : Prop := Remet (w k) (cycle w k) j

instance (w : ℕ → MuxEntrees) (j : ℕ) : DecidablePred (Servi w j) :=
  fun _ => inferInstanceAs (Decidable (Remet _ _ _))

/-- With the grant, nobody is served before. -/
theorem Loyal.premier (h : Loyal w) (hR : ∀ n, ∃ d, d < R ∧ (w (n + d)).srcReady = true)
    (hi : i < 2) {n : ℕ} (hgrant : (cycle w n).grant = BitVec.twoPow 2 i)
    (hv : ((w n).sink i).valid = true) :
    ∃ m, n ≤ m ∧ m < n + R ∧ Servi w i m ∧ pulses (Servi w j) n m = 0 := by
  obtain ⟨m, hnm, hm, hr, -, havant⟩ := h.remet hR hi hgrant hv
  refine ⟨m, hnm, hm, hr, pulses_eq_zero fun k hnk hk hs => ?_⟩
  have hready := hs.2
  rw [sinkReady, havant k hnk hk] at hready
  exact Bool.false_ne_true hready

/-- Behind the other one, one packet goes first. -/
theorem Loyal.second (h : Loyal w) (hR : ∀ n, ∃ d, d < R ∧ (w (n + d)).srcReady = true)
    (hi : i < 2) (hj : j < 2) (hij : i ≠ j) {n : ℕ}
    (hgrant : (cycle w n).grant = BitVec.twoPow 2 j) (hvj : ((w n).sink j).valid = true)
    (hv : ((w n).sink i).valid = true) :
    ∃ m, n ≤ m ∧ m < n + 2 * R ∧ Servi w i m ∧ pulses (Servi w j) n m = 1 := by
  obtain ⟨m, hnm, hm, hr, hg, havant⟩ := h.remet hR hj hgrant hvj
  have hnon : ∀ l k, n ≤ k → k < m → ¬ Remet (w k) (cycle w k) l := fun l k hnk hk hs => by
    have hready := hs.2
    rw [sinkReady, havant k hnk hk] at hready
    exact Bool.false_ne_true hready
  have hvm : ((w m).sink i).valid = true := h.attend hi hnm hv (hnon i)
  obtain ⟨-, -, hready⟩ := (remet_iff hg hj).mp hr
  have hu : updateGrant (w m) (cycle w m) = true := by
    rw [h.updateGrant_eq, hready, Bool.or_true]
  have hv' : ((w (m + 1)).sink i).valid = true :=
    h.tient m i hi hvm fun hs => hij ((remet_iff hg hi).mp hs).1
  obtain ⟨m', hmm', hm', hr', hzero⟩ :=
    h.premier (j := j) hR hi (h.suivant hi hj hij hg hu hvm) hv'
  refine ⟨m', by omega, by omega, hr', ?_⟩
  have hone : pulses (Servi w j) n (m + 1) = 1 := by
    refine pulses_eq_one hnm (Nat.lt_succ_self m) hr fun k hnk hk hs => ?_
    rcases Nat.lt_succ_iff_lt_or_eq.mp hk with hlt | heq
    · exact absurd hs (hnon j k hnk hlt)
    · exact heq
  rw [pulses_add (hnm.trans (Nat.le_succ m)) hmm', hone, hzero]

theorem deux {g : ℕ} (hi : i < 2) (hj : j < 2) (hij : i ≠ j) (hg : g < 2) : g = i ∨ g = j := by
  omega

/-- **Nobody waits for more than one packet of the other.**  Between sinks that
send packets of one cycle without a lock and wait, at a slave that is ready at
least once in `R` cycles, a sink that offers a packet is served within
`2 * R` cycles, after at most one packet of the other sink. -/
theorem mux_equitable (h : Loyal w) (hR : ∀ n, ∃ d, d < R ∧ (w (n + d)).srcReady = true)
    (hi : i < 2) (hj : j < 2) (hij : i ≠ j) {n : ℕ} (hv : ((w n).sink i).valid = true) :
    ∃ m, n ≤ m ∧ m ≤ n + 2 * R ∧ Servi w i m ∧ pulses (Servi w j) n m ≤ 1 := by
  have hR0 : 0 < R := by
    obtain ⟨d, hd, -⟩ := hR n
    exact Nat.zero_lt_of_lt hd
  cases hs : srcValid (w n) (cycle w n) with
  | true =>
      rcases (sain_cycle (w := w) n).grant with h0 | ⟨g, hg, hgrant, -⟩
      · exact absurd ((sans_grant h0).1.symm.trans hs) Bool.false_ne_true
      · rw [srcValid_eq hgrant hg] at hs
        rcases deux hi hj hij hg with rfl | rfl
        · obtain ⟨m, hnm, hm, hr, hp⟩ := h.premier (j := j) hR hi hgrant hv
          exact ⟨m, hnm, by omega, hr, by omega⟩
        · obtain ⟨m, hnm, hm, hr, hp⟩ := h.second hR hi hj hij hgrant hs hv
          exact ⟨m, hnm, hm.le, hr, hp.le⟩
  | false =>
      -- an idle cycle, and the grant it gives away
      have hno : ∀ l, l < 2 → ¬ Servi w l n := fun l hl hr => by
        have hsome := ((mux_prend n).mpr ⟨l, hl, hr⟩).1
        exact Bool.false_ne_true (hs.symm.trans hsome)
      have hsuite : ∀ l, l < 2 → ((w n).sink l).valid = true →
          ((w (n + 1)).sink l).valid = true := fun l hl hvl => h.tient n l hl hvl (hno l hl)
      have hzero : pulses (Servi w j) n (n + 1) = 0 := by
        rw [pulses_succ le_rfl, pulses_self, if_neg (hno j hj)]
      have hu : updateGrant (w n) (cycle w n) = true := by
        rw [h.updateGrant_eq, hs]
        rfl
      obtain ⟨p, hp⟩ := (sain_cycle (w := w) n).pointe
      have helu : ∃ g, Elu 2 p (fun l => ((w n).sink l).valid = true) g := elu_exists hi hv
      obtain ⟨g, hg⟩ := helu
      have hgrant := h.attribue hp hu hg
      rcases deux hi hj hij hg.lt with rfl | rfl
      · obtain ⟨m, hnm, hm, hr, hpm⟩ := h.premier (j := j) hR hi hgrant (hsuite g hi hv)
        refine ⟨m, by omega, by omega, hr, ?_⟩
        rw [pulses_add (Nat.le_succ n) hnm, hzero, hpm]
        exact Nat.zero_le 1
      · obtain ⟨m, hnm, hm, hr, hpm⟩ :=
          h.second hR hi hj hij hgrant (hsuite g hj hg.demandeur) (hsuite i hi hv)
        refine ⟨m, by omega, by omega, hr, ?_⟩
        rw [pulses_add (Nat.le_succ n) hnm, hzero, hpm]

/-- A packet taken back in the middle: the grant stays with its sink, and the other
one is never served again. -/
theorem retire_mort {n : ℕ} (hj : j < 2) (hgrant : (cycle w n).grant = BitVec.twoPow 2 j)
    (hp : (cycle w n).packetInProgress = true)
    (hv : ∀ d, ((w (n + d)).sink j).valid = false) (d : ℕ) :
    ∀ i, i < 2 → ¬ Servi w i (n + d) := by
  have hreste : (cycle w (n + d)).grant = BitVec.twoPow 2 j ∧
      (cycle w (n + d)).packetInProgress = true := by
    induction d with
    | zero => exact ⟨hgrant, hp⟩
    | succ d ih =>
        have hs : srcValid (w (n + d)) (cycle w (n + d)) = false := by
          rw [srcValid_eq ih.1 hj, hv d]
        have hl : lastCycle (w (n + d)) (cycle w (n + d)) = false := by
          rw [lastCycle, hs]
          rfl
        have hu : updateGrant (w (n + d)) (cycle w (n + d)) = false := by
          rw [updateGrant, ih.2, hl]
          rfl
        rw [← Nat.add_assoc, cycle_succ]
        refine ⟨(front_tient hu).trans ih.1, ?_⟩
        rw [front, hl, hs]
        exact ih.2
  intro i hi hr
  obtain ⟨rfl, hvi, -⟩ := (remet_iff hreste.1 hi).mp hr
  exact Bool.false_ne_true ((hv d).symm.trans hvi)

end

/-- Two sinks that always have a packet, at a slave that is always ready. -/
def pleins : ℕ → MuxEntrees := fun _ => ⟨⟨true, 1⟩, ⟨true, 1⟩, true⟩

theorem pleins_sink (k i : ℕ) : (pleins k).sink i = ⟨true, 1⟩ := ite_self _

theorem mux_equitable_temoin :
    ∃ m, 0 ≤ m ∧ m ≤ 0 + 2 * 1 ∧ Servi pleins 1 m ∧ pulses (Servi pleins 0) 0 m ≤ 1 := by
  have hloyal : Loyal pleins :=
    ⟨fun k i _ => by rw [pleins_sink]; decide, fun k i _ _ => by rw [pleins_sink]; decide,
      fun k i _ _ _ => by rw [pleins_sink]⟩
  exact mux_equitable hloyal (fun _ => ⟨0, Nat.one_pos, rfl⟩) (by decide) (by decide)
    (by decide) rfl

end CmdMux

end BarreFranche
