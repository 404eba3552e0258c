/-
# `Minuterie` — the timer as a machine of positions

`Minuterie` is the abstract timer: it is being cleared, or it runs at a
position.  `Represente K A m t` says that the registers of `t` implement the
state `m`, and

    Represente K A m t →
      Represente K A (m.suivant reset enable) (t.front p)         (`Represente.front`)

holds for every edge that resets the timer, lets it run, or holds it at
position 0.  An edge that disables a timer which is under way is not a step of
the abstract machine: the divider freezes there and the position means nothing
any more.

At position 0 the delayed copy of the counter and the pending clear are not
determined: they still belong to what was cleared.  This is why a timer that
is reset while its count is not 0 raises `coUEV` once more (`reset_coUEV`),
the event the header of timer.vhd announces for a reset.

A clear that finds nothing to clear (`Vide`) makes a clean start: from there
one event comes per period and none before (`Tour`).  The time windows of the
design are right where their timers start clean.

The claim of the header, `Fpwm = Fclk / ((Autoreload+1) * (Prescaler+1))`, is
then `trajectoire_apres_reset`: the exact values of the counter and of
`coUEV` at every cycle after a reset.
-/
import BarreFranche.Trajectoire
import BarreFranche.Synchrone.Run

namespace BarreFranche

open Synchrone

variable {P K A : ℕ}

/-- The states of the abstract timer. -/
inductive Minuterie where
  | efface
  | marche (n : ℕ)
deriving DecidableEq, Repr

/-- One edge of the abstract timer. -/
def Minuterie.suivant (reset enable : Bool) : Minuterie → Minuterie
  | .efface => if reset then .efface else .marche 0
  | .marche n => if reset then .efface else if enable then .marche (n + 1) else .marche n

/-- The ports carry the constants `K` and `A`, with `K` large enough for no
divider pulse to meet the clear of the counter, and `A + 1` representable. -/
structure Reglage (K A : ℕ) (p : TimerPorts P) : Prop where
  prescaler : p.prescaler.toNat = K
  autoreload : p.autoreload.toNat = A
  three_le : 3 ≤ K
  lt_top : A + 1 < 2 ^ P

/-- The registers of `t` are those of position `n`. -/
structure Suit (K A n : ℕ) (t : Timer P) : Prop where
  div : t.div.toNat = n % (K + 1)
  compt1 : t.compt1.toNat = trajectoire K A n
  retard : 1 ≤ n → t.counterOverflowD.toNat = trajectoire K A (n - 1)
  srst : 1 ≤ n → (t.srstCompt1 = .one ↔ periode K A ≤ n ∧ n % periode K A ≤ 1)
  resetDiv : t.resetDiv ≠ .one

/-- Which timers implement which abstract state. -/
def Represente (K A : ℕ) : Minuterie → Timer P → Prop
  | .efface, t => t.resetDiv = .one ∧ t.srstCompt1 = .one
  | .marche n, t => Suit K A n t

attribute [ext] Timer

section
variable {p : TimerPorts P} {t : Timer P}

/-! ## One edge -/

/-- A reset puts any timer into the clearing state. -/
theorem efface_of_reset (hr : p.reset = .one) : Represente K A .efface (Timer.front p t) :=
  ⟨hr, Timer.front_srstCompt1 p t |>.mpr (Or.inr hr)⟩

theorem compt1_of_efface (h : Represente K A .efface t) : (Timer.front p t).compt1 = 0 :=
  Timer.front_compt1_clear h.2

theorem div_of_efface (h : Represente K A .efface t) : (Timer.front p t).div = 0 :=
  diviseur_reset h.1

/-- Four edges with `Reset` at '1' leave nothing of what a timer held. -/
theorem efface_quatre {q r s : TimerPorts P} (hp : p.reset = .one) (hq : q.reset = .one)
    (hr : r.reset = .one) (hs : s.reset = .one) :
    Timer.front s (Timer.front r (Timer.front q (Timer.front p t))) =
      { div := 0, compt1 := 0, counterOverflowD := 0, coUEV := .zero,
        srstCompt1 := .one, resetDiv := .one } := by
  have e1 : Represente 0 0 .efface (Timer.front p t) := efface_of_reset hp
  have e2 : Represente 0 0 .efface (Timer.front q (Timer.front p t)) := efface_of_reset hq
  have e3 : Represente 0 0 .efface (Timer.front r (Timer.front q (Timer.front p t))) :=
    efface_of_reset hr
  have c2 := compt1_of_efface (p := q) e1
  have c3 := compt1_of_efface (p := r) e2
  have h4 := Timer.front_srstCompt1 s (Timer.front r (Timer.front q (Timer.front p t)))
  refine Timer.ext (div_of_efface e3) (compt1_of_efface e3) c3 ?_ (h4.mpr (Or.inr hs)) hs
  change (if (Timer.front r (Timer.front q (Timer.front p t))).compt1 <
    (Timer.front q (Timer.front p t)).compt1 then StdLogic.one else .zero) = .zero
  rw [c2, c3, if_neg (BitVec.lt_irrefl _)]

/-- Leaving the clearing state: position 0. -/
theorem suit_zero_of_efface (hp : Reglage K A p) (h : Represente K A .efface t)
    (hr : p.reset ≠ .one) : Suit K A 0 (Timer.front p t) where
  div := by simp [div_of_efface h]
  compt1 := by
    have hK := hp.three_le
    rw [compt1_of_efface h, trajectoire_debut (by omega)]
    rfl
  retard := fun h0 => absurd h0 (Nat.not_succ_le_zero 0)
  srst := fun h0 => absurd h0 (Nat.not_succ_le_zero 0)
  resetDiv := hr

/-- The divider of a running timer. -/
theorem Suit.front_div {n : ℕ} (h : Suit K A n t) (hp : Reglage K A p)
    (he : p.enable = .one) : (Timer.front p t).div.toNat = (n + 1) % (K + 1) := by
  have hK := hp.three_le
  have hlt : n % (K + 1) < K + 1 := Nat.mod_lt n (Nat.add_one_pos K)
  have hpos : 1 ≤ p.prescaler.toNat := by rw [hp.prescaler]; omega
  rw [mod_succ (Nat.add_one_pos K), Timer.front_div]
  split_ifs with htop
  · rw [diviseur_wrap hpos (by rw [hp.prescaler, h.div]; omega)]
    rfl
  · rw [diviseur_incr hpos h.resetDiv (by rw [hp.prescaler, h.div]; omega) he, h.div]

/-- The counter of a running timer: cleared at the overshoot, else counting
the divider pulses.  At position 0 the pending clear is unknown, and harmless. -/
theorem Suit.front_compt1 {n : ℕ} (h : Suit K A n t) (hp : Reglage K A p) :
    (Timer.front p t).compt1.toNat = trajectoire K A (n + 1) := by
  have hK := hp.three_le
  have hpos : 1 ≤ p.prescaler.toNat := by rw [hp.prescaler]; omega
  by_cases hs : t.srstCompt1 = .one
  · rw [Timer.front_compt1_clear hs]
    rcases Nat.eq_zero_or_pos n with rfl | hn
    · rw [trajectoire_debut (by omega)]
      rfl
    · rw [trajectoire_succ hK, if_pos ((h.srst hn).mp hs)]
      rfl
  · have hnot : ¬ (periode K A ≤ n ∧ n % periode K A ≤ 1) := by
      rcases Nat.eq_zero_or_pos n with rfl | hn
      · exact fun h0 => absurd h0.1 (Nat.not_le.mpr periode_pos)
      · exact fun h0 => hs ((h.srst hn).mpr h0)
    rw [trajectoire_succ hK, if_neg hnot]
    split_ifs with hd
    · have htop : t.compt1.toNat + 1 < 2 ^ P := by
        have hle := trajectoire_le (K := K) (A := A) (n + 1)
        have hlt := hp.lt_top
        rw [trajectoire_succ hK, if_neg hnot, if_pos hd] at hle
        rw [h.compt1]
        omega
      rw [Timer.front_compt1_incr hpos (by rw [hp.prescaler, h.div]; exact hd) hs,
        toNat_incr htop, h.compt1]
    · rw [Timer.front_compt1_hold hpos (by rw [hp.prescaler, h.div]; exact hd) hs, h.compt1]

/-- A running timer goes to the next position. -/
theorem Suit.front {n : ℕ} (h : Suit K A n t) (hp : Reglage K A p) (hr : p.reset ≠ .one)
    (he : p.enable = .one) : Suit K A (n + 1) (Timer.front p t) where
  div := h.front_div hp he
  compt1 := h.front_compt1 hp
  retard := fun _ => h.compt1
  srst := fun _ => by
    rw [Timer.front_srstCompt1, hp.autoreload, h.compt1, lt_trajectoire]
    simp [hr]
  resetDiv := hr

/-- A timer disabled at position 0 stays there: the divider stands on 0. -/
theorem Suit.front_arret (h : Suit K A 0 t) (hp : Reglage K A p) (hr : p.reset ≠ .one)
    (he : p.enable ≠ .one) : Suit K A 0 (Timer.front p t) where
  div := by
    have hK := hp.three_le
    have hpos : 1 ≤ p.prescaler.toNat := by rw [hp.prescaler]; omega
    have hd : t.div.toNat = 0 := by simpa using h.div
    rw [Timer.front_div, diviseur_hold hpos h.resetDiv (by omega) he]
    exact h.div
  compt1 := by
    have hK := hp.three_le
    rw [h.front_compt1 hp, trajectoire_debut (by omega), trajectoire_debut (by omega)]
  retard := fun h0 => absurd h0 (Nat.not_succ_le_zero 0)
  srst := fun h0 => absurd h0 (Nat.not_succ_le_zero 0)
  resetDiv := hr

/-- **The timer refines the abstract machine**, as long as it is not disabled
under way. -/
theorem Represente.front {m : Minuterie} (h : Represente K A m t) (hp : Reglage K A p)
    (hm : p.enable = .one ∨ p.reset = .one ∨ m = .efface ∨ m = .marche 0) :
    Represente K A (m.suivant (p.reset = .one) (p.enable = .one)) (Timer.front p t) := by
  by_cases hr : p.reset = .one
  · have hs : m.suivant (p.reset = .one) (p.enable = .one) = .efface := by
      cases m <;> simp [Minuterie.suivant, hr]
    rw [hs]
    exact efface_of_reset hr
  · cases m with
    | efface =>
        simp only [Minuterie.suivant, hr]
        exact suit_zero_of_efface hp h hr
    | marche n =>
        by_cases he : p.enable = .one
        · simp only [Minuterie.suivant, hr, he]
          exact Suit.front h hp hr he
        · have hn : n = 0 := by simpa [hr, he] using hm
          subst hn
          simp only [Minuterie.suivant, hr, he]
          exact Suit.front_arret h hp hr he

/-! ## The event -/

/-- After position `n ≥ 1` the event is raised exactly at the end of an
overshoot, whatever the ports carry. -/
theorem Suit.front_coUEV {n : ℕ} (h : Suit K A n t) (hK : 3 ≤ K) (hn : 1 ≤ n) :
    (Timer.front p t).coUEV = .one ↔
      periode K A + 2 ≤ n + 1 ∧ (n + 1) % periode K A = 2 := by
  obtain ⟨m, rfl⟩ : ∃ m, n = m + 1 := ⟨n - 1, by omega⟩
  have hM : K + 1 ≤ periode K A := le_periode
  have h1 := mod_succ (periode_pos (K := K) (A := A)) m
  have h2 := mod_succ (periode_pos (K := K) (A := A)) (m + 1)
  rw [Timer.front_coUEV, h.compt1, h.retard hn, Nat.add_sub_cancel, trajectoire_succ_lt hK]
  split_ifs at h1 h2 <;> omega

/-- A timer cleared while its counter is not 0 raises the event again. -/
theorem reset_coUEV (h : Represente K A .efface t) (h0 : t.compt1.toNat ≠ 0)
    (q : TimerPorts P) : (Timer.front q (Timer.front p t)).coUEV = .one := by
  rw [Timer.front_coUEV, compt1_of_efface h, Timer.front_counterOverflowD]
  exact Nat.pos_of_ne_zero h0

end

/-! ## Clean starts

The event above belongs to a clear that found something to clear.  `Vide` is
the clearing state with nothing left to clear; from it the timer starts clean
(`Tour 0`), and its first event is the one of position `M + 2`. -/

/-- Counter and delayed copy are 0 and the divider is at most at `d`. -/
structure Calme (d : ℕ) (t : Timer P) : Prop where
  compt1 : t.compt1 = 0
  retard : t.counterOverflowD = 0
  div : t.div.toNat ≤ d

/-- Being cleared, with nothing left to clear. -/
structure Vide (t : Timer P) : Prop where
  efface : t.resetDiv = .one ∧ t.srstCompt1 = .one
  compt1 : t.compt1 = 0
  retard : t.counterOverflowD = 0

/-- At position `j` since a clean start: one event until the second turn ends. -/
structure Tour (K A j : ℕ) (t : Timer P) : Prop where
  suit : Suit K A j t
  retard : j = 0 → t.counterOverflowD = 0
  evenement : t.coUEV = .one ↔ j = periode K A + 2

section
variable {p : TimerPorts P} {t : Timer P} {d j : ℕ}

/-- A counter that leads its delayed copy by nothing raises no event. -/
theorem front_coUEV_of_retard (h : t.counterOverflowD = 0) :
    (Timer.front p t).coUEV ≠ .one := by
  rw [Ne, Timer.front_coUEV, h]
  simp

theorem Calme.front (h : Calme d t) (hp : Reglage K A p) (hd : d + 2 ≤ K) :
    Calme (d + 1) (Timer.front p t) where
  compt1 := by
    have hK := hp.prescaler
    have hdiv := h.div
    by_cases hs : t.srstCompt1 = .one
    · exact Timer.front_compt1_clear hs
    · rw [Timer.front_compt1_hold (by omega) (by omega) hs, h.compt1]
  retard := h.compt1
  div := (diviseur_le _ _ _ _).trans (Nat.add_le_add_right h.div 1)

/-- A reset finds nothing to clear in a timer at rest. -/
theorem Calme.front_reset (h : Calme d t) (hp : Reglage K A p) (hd : d + 2 ≤ K)
    (hr : p.reset = .one) : Vide (Timer.front p t) where
  efface := ⟨hr, (Timer.front_srstCompt1 p t).mpr (Or.inr hr)⟩
  compt1 := (h.front hp hd).compt1
  retard := h.compt1

theorem Vide.front_reset (h : Vide t) (hr : p.reset = .one) : Vide (Timer.front p t) where
  efface := ⟨hr, (Timer.front_srstCompt1 p t).mpr (Or.inr hr)⟩
  compt1 := Timer.front_compt1_clear h.efface.2
  retard := h.compt1

theorem Vide.front (h : Vide t) (hp : Reglage K A p) (hr : p.reset ≠ .one) :
    Tour K A 0 (Timer.front p t) where
  suit := suit_zero_of_efface hp h.efface hr
  retard := fun _ => h.compt1
  evenement := ⟨fun he => absurd he (front_coUEV_of_retard h.retard),
    fun h0 => absurd h0 (by omega)⟩

/-- Three positions into the second turn the counter is back at 0. -/
theorem Suit.calme (h : Suit K A (periode K A + 3) t) (hK : 4 ≤ K) : Calme 3 t := by
  have hM : K + 1 ≤ periode K A := le_periode
  have hzero : ∀ i, 2 ≤ i → i ≤ 3 → trajectoire K A (periode K A + i) = 0 := by
    intro i h2 h3
    have hmod : (periode K A + i + 1) % periode K A = i + 1 := by
      rw [Nat.add_assoc, Nat.add_mod_left, Nat.mod_eq_of_lt (by omega)]
    rw [trajectoire_of_not (by rw [hmod]; omega), hmod]
    exact Nat.div_eq_of_lt (by omega)
  refine ⟨BitVec.eq_of_toNat_eq ?_, BitVec.eq_of_toNat_eq ?_, ?_⟩
  · rw [h.compt1, hzero 3 (by omega) le_rfl]
    rfl
  · rw [h.retard (by omega), show periode K A + 3 - 1 = periode K A + 2 by omega,
      hzero 2 le_rfl (by omega)]
    rfl
  · have hdvd : periode K A % (K + 1) = 0 := Nat.mul_mod_left (A + 1) (K + 1)
    rw [h.div, Nat.add_mod, hdvd, Nat.zero_add, Nat.mod_mod]
    exact Nat.mod_le _ _

theorem Suit.compt1_zero (h : Suit K A 0 t) (hK : 3 ≤ K) : t.compt1 = 0 := by
  have h0 := h.compt1
  rw [trajectoire_debut (by omega)] at h0
  exact BitVec.eq_of_toNat_eq h0

theorem Tour.front (h : Tour K A j t) (hp : Reglage K A p) (hr : p.reset ≠ .one)
    (he : p.enable = .one) (hj : j < 2 * periode K A) : Tour K A (j + 1) (Timer.front p t) where
  suit := Suit.front h.suit hp hr he
  retard := fun h0 => absurd h0 (Nat.succ_ne_zero j)
  evenement := by
    have hK := hp.three_le
    have hM : K + 1 ≤ periode K A := le_periode
    rcases Nat.eq_zero_or_pos j with rfl | h1
    · rw [Timer.front_coUEV, h.retard rfl]
      simp
    · rw [h.suit.front_coUEV hK h1]
      constructor
      · rintro ⟨h2, h3⟩
        obtain ⟨r, hr⟩ : ∃ r, j + 1 = periode K A + r := ⟨j + 1 - periode K A, by omega⟩
        rw [hr, Nat.add_mod_left] at h3
        rcases Nat.lt_or_ge r (periode K A) with hlt | hge
        · rw [Nat.mod_eq_of_lt hlt] at h3
          omega
        · obtain rfl : r = periode K A := by omega
          rw [Nat.mod_self] at h3
          exact absurd h3 (by omega)
      · intro h2
        have h3 : (periode K A + 2) % periode K A = 2 := by
          rw [Nat.add_mod_left, Nat.mod_eq_of_lt (by omega)]
        rw [h2]
        exact ⟨le_rfl, h3⟩

/-- A timer disabled before a clean start waits for it. -/
theorem Tour.front_arret (h : Tour K A 0 t) (hp : Reglage K A p) (hr : p.reset ≠ .one)
    (he : p.enable ≠ .one) : Tour K A 0 (Timer.front p t) where
  suit := h.suit.front_arret hp hr he
  retard := fun _ => h.suit.compt1_zero hp.three_le
  evenement := ⟨fun hs => absurd hs (front_coUEV_of_retard (h.retard rfl)),
    fun h0 => absurd h0 (by omega)⟩

end

/-! ## Runs -/

section
variable {t : Timer P} {w : ℕ → TimerPorts P}

/-- Enabled edges without a reset go through the positions in order. -/
theorem suit_run {c n : ℕ} (h : Suit K A n (run Timer.front t w c))
    (hp : ∀ k, Reglage K A (w k)) {d : ℕ}
    (hrun : ∀ k, c ≤ k → k < c + d → (w k).reset ≠ .one ∧ (w k).enable = .one) :
    ∀ k, k ≤ d → Suit K A (n + k) (run Timer.front t w (c + k)) :=
  run_window (I := fun k => Suit K A (n + k)) h fun k hk hs => by
    obtain ⟨hr, he⟩ := hrun (c + k) (Nat.le_add_right c k) (Nat.add_lt_add_left hk c)
    exact hs.front (hp (c + k)) hr he

/-- A timer at power-on is at position 0, with nothing left to clear. -/
theorem suit_powerOn (u : PowerUp) (hK : 3 ≤ K) : Suit K A 0 (Timer.powerOn P u) where
  div := by simp [Timer.powerOn]
  compt1 := by
    rw [trajectoire_debut (by omega)]
    rfl
  retard := fun h0 => absurd h0 (Nat.not_succ_le_zero 0)
  srst := fun h0 => absurd h0 (Nat.not_succ_le_zero 0)
  resetDiv := by simp [Timer.powerOn]

/-- Two reset edges clear the counter and its delayed copy. -/
theorem propre_apres_reset {r : ℕ} (hr : 2 ≤ r) (hreset : ∀ k, k < r → (w k).reset = .one) :
    Represente K A .efface (run Timer.front t w r) ∧
      (run Timer.front t w r).compt1 = 0 := by
  obtain ⟨q, rfl⟩ : ∃ q, r = q + 2 := ⟨r - 2, by omega⟩
  have h1 : Represente K A .efface (run Timer.front t w (q + 1)) :=
    efface_of_reset (hreset q (by omega))
  exact ⟨efface_of_reset (hreset (q + 1) (by omega)), compt1_of_efface h1⟩

/-- **The trajectory after a reset.**  Two reset edges, then the timer runs: the
counter and the event are functions of the number of edges since, whatever the
registers held before. -/
theorem trajectoire_apres_reset (hK : 3 ≤ K) (hA : A ≤ 2 ^ P - 2)
    (hpsc : ∀ k, (w k).prescaler.toNat = K) (harr : ∀ k, (w k).autoreload.toNat = A)
    {r : ℕ} (hr : 2 ≤ r) (hreset : ∀ k, k < r → (w k).reset = .one)
    (hrun : ∀ k, r ≤ k → (w k).reset = .zero ∧ (w k).enable = .one) (n : ℕ) :
    (run Timer.front t w (r + 1 + n)).compt1.toNat =
        (if (A + 1) * (K + 1) - 1 ≤ n ∧
            ((n + 1) % ((A + 1) * (K + 1)) = 0 ∨ (n + 1) % ((A + 1) * (K + 1)) = 1)
          then A + 1 else (n + 1) % ((A + 1) * (K + 1)) / (K + 1)) ∧
      (1 ≤ n → ((run Timer.front t w (r + 1 + n)).coUEV = .one ↔
        (A + 1) * (K + 1) + 2 ≤ n ∧
          n % ((A + 1) * (K + 1)) = 2 % ((A + 1) * (K + 1)))) := by
  have hp : ∀ k, Reglage K A (w k) := fun k =>
    { prescaler := hpsc k
      autoreload := harr k
      three_le := hK
      lt_top := by
        have := (w k).prescaler.isLt
        have := hpsc k
        omega }
  have hM : K + 1 ≤ periode K A := le_periode
  have hmarche : ∀ k, r ≤ k → (w k).reset ≠ .one ∧ (w k).enable = .one := fun k hk =>
    ⟨by simp [(hrun k hk).1], (hrun k hk).2⟩
  obtain ⟨heff, hzero⟩ := propre_apres_reset (K := K) (A := A) (t := t) hr hreset
  have h0 : Suit K A 0 (run Timer.front t w (r + 1)) :=
    suit_zero_of_efface (hp r) heff (hmarche r le_rfl).1
  have hn : ∀ k, Suit K A k (run Timer.front t w (r + 1 + k)) := by
    intro k
    have := suit_run h0 hp (d := k) (fun j hj _ => hmarche j (by omega)) k le_rfl
    rwa [Nat.zero_add] at this
  constructor
  · rw [(hn n).compt1, trajectoire, periode]
    refine if_congr ?_ rfl rfl
    rw [periode] at hM
    omega
  · intro h1
    obtain ⟨m, rfl⟩ : ∃ m, n = m + 1 := ⟨n - 1, by omega⟩
    change (Timer.front _ (run Timer.front t w (r + 1 + m))).coUEV = .one ↔ _
    have h2 : 2 % ((A + 1) * (K + 1)) = 2 := Nat.mod_eq_of_lt (by rw [periode] at hM; omega)
    rw [h2]
    rcases Nat.eq_zero_or_pos m with rfl | hm
    · -- the first event comparison sees the two zeros the reset left
      have hov : (run Timer.front t w (r + 1)).counterOverflowD = 0 := hzero
      rw [Timer.front_coUEV, Nat.add_zero, hov]
      rw [periode] at hM
      simp
    · exact (hn m).front_coUEV hK hm

/-- A timer of width 4 with garbage in its registers, `K = 3`, `A = 2`. -/
theorem trajectoire_apres_reset_temoin :
    (run Timer.front
        (⟨9, 7, 12, .U, .one, .zero⟩ : Timer 4)
        (fun k => ⟨.one, if k < 2 then .one else .zero, 3, 2⟩) (2 + 1 + 11)).compt1.toNat
      = 3 :=
  (trajectoire_apres_reset (K := 3) (A := 2) (by decide) (by decide) (fun _ => rfl)
    (fun _ => rfl) (r := 2) le_rfl (fun k hk => by simp [hk])
    (fun k hk => by simp [Nat.not_lt.mpr hk]) 11).1

end

end BarreFranche
