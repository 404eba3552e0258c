/-
# `TimerFrequence` — the frequency law of the header

    Fpwm = Fclk / ((Autoreload + 1) * (Prescaler + 1))

read as a statement about consecutive events of a timer that is enabled from
power-on.  Its counter obeys a recurrence in which only the width and the two
constants occur (`Comptage`), and three closed forms solve it:

    3 ≤ K, A + 1 < 2^P    trajectoire   period (A+1)*(K+1)
    A + 1 = 2^P           plein         period (A+1)*(K+1)
    K ≤ 2, A + 1 < 2^P    court         period (A+2)*(K+1)

In the second the counter wraps by itself, so nothing is ever cleared.  In the
third a divider pulse falls into the two cycles of the clear and is lost: the
divider announces `Prescaler >= 1` and the law fails at 1 and at 2
(`frequence_iff`).
-/
import BarreFranche.TimerEvenement
import BarreFranche.Trajectoire
import BarreFranche.Synchrone.Pulse

namespace BarreFranche

open Synchrone

/-- The recurrence of the counter: it is cleared two cycles after it has passed
`A`, counts the divider pulses otherwise, and wraps at `N`. -/
structure Comptage (N K A : ℕ) (f : ℕ → ℕ) : Prop where
  debut : f 0 = 0
  pas : ∀ n, f (n + 1) =
    if 1 ≤ n ∧ A < f (n - 1) then 0
    else if n % (K + 1) + 1 = K then (f n + 1) % N
    else f n

/-! ## The three closed forms -/

/-- The counter when `Autoreload` is the largest value it can take. -/
def plein (K A n : ℕ) : ℕ := (n + 1) % periode K A / (K + 1)

/-- The period when a divider pulse is lost in each clear. -/
def periodeCourte (K A : ℕ) : ℕ := periode K A + (K + 1)

/-- The counter when a divider pulse is lost in each clear. -/
def court (K A n : ℕ) : ℕ :=
  if n % periodeCourte K A ≤ periode K A then (n % periodeCourte K A + 1) / (K + 1) else 0

section
variable {N K A : ℕ}

theorem comptage_trajectoire (hK : 3 ≤ K) (hA : A + 1 < N) :
    Comptage N K A (trajectoire K A) where
  debut := trajectoire_debut (by omega)
  pas := by
    intro n
    have hclear : (1 ≤ n ∧ A < trajectoire K A (n - 1)) ↔
        periode K A ≤ n ∧ n % periode K A ≤ 1 := by
      have hM := periode_pos (K := K) (A := A)
      rw [lt_trajectoire]
      constructor
      · rintro ⟨h1, h2⟩
        rwa [show n - 1 + 1 = n by omega] at h2
      · intro h
        rw [show n - 1 + 1 = n by omega]
        exact ⟨by omega, h⟩
    have hle := trajectoire_le (K := K) (A := A) (n + 1)
    rw [trajectoire_succ hK] at hle ⊢
    by_cases hpic : periode K A ≤ n ∧ n % periode K A ≤ 1
    · rw [if_pos hpic, if_pos (hclear.mpr hpic)]
    · rw [if_neg hpic] at hle ⊢
      rw [if_neg (mt hclear.mp hpic)]
      by_cases hd : n % (K + 1) + 1 = K
      · rw [if_pos hd] at hle ⊢
        rw [if_pos hd, Nat.mod_eq_of_lt (by omega)]
      · rw [if_neg hd, if_neg hd]

theorem plein_le (n : ℕ) : plein K A n ≤ A := by
  have hlt : (n + 1) % periode K A < (A + 1) * (K + 1) := Nat.mod_lt _ periode_pos
  exact Nat.le_of_lt_succ ((Nat.div_lt_iff_lt_mul (Nat.succ_pos K)).mpr hlt)

/-- The last position before the wrap. -/
theorem plein_fin {n : ℕ} (h : (n + 1) % periode K A + 1 = periode K A) :
    plein K A n = A ∧ plein K A (n + 1) = 0 := by
  have h2 := mod_succ (periode_pos (K := K) (A := A)) (n + 1)
  rw [if_pos h] at h2
  refine ⟨?_, ?_⟩
  · have hA : (n + 1) % periode K A = A * (K + 1) + K := by
      have hM : periode K A = A * (K + 1) + K + 1 := by unfold periode; ring
      omega
    rw [plein, hA, Nat.add_comm, Nat.add_mul_div_right _ _ (Nat.succ_pos K),
      Nat.div_eq_of_lt (Nat.lt_succ_self K), Nat.zero_add]
  · rw [plein, h2, Nat.zero_div]

/-- Elsewhere it counts the divider pulses. -/
theorem plein_succ (hK : 1 ≤ K) {n : ℕ} (h : (n + 1) % periode K A + 1 ≠ periode K A) :
    plein K A (n + 1) = if n % (K + 1) + 1 = K then plein K A n + 1 else plein K A n := by
  have h2 := mod_succ (periode_pos (K := K) (A := A)) (n + 1)
  rw [if_neg h] at h2
  have hpulse : K + 1 ∣ (n + 1) % periode K A + 1 ↔ n % (K + 1) + 1 = K :=
    dvd_succ_iff hK (mod_periode_mod (n + 1))
  rw [plein, plein, h2, Nat.succ_div]
  simp only [hpulse]
  split_ifs <;> rfl

theorem comptage_plein (hK : 1 ≤ K) (hN : A + 1 = N) : Comptage N K A (plein K A) where
  debut := by
    have hM : K + 1 ≤ periode K A := le_periode
    rcases Nat.eq_or_lt_of_le hM with heq | hlt
    · rw [plein, ← heq, Nat.zero_add]
      exact Nat.div_eq_of_lt (Nat.mod_lt _ (Nat.succ_pos K))
    · rw [plein, Nat.mod_eq_of_lt (by omega)]
      exact Nat.div_eq_of_lt (by omega)
  pas := by
    intro n
    rw [if_neg fun h => Nat.not_lt.mpr (plein_le (n - 1)) h.2]
    by_cases hfin : (n + 1) % periode K A + 1 = periode K A
    · -- the last pulse of the turn takes the counter from `A` to `N`, that is 0
      obtain ⟨hA, h0⟩ := plein_fin hfin
      have hd : n % (K + 1) + 1 = K := by
        rw [← dvd_succ_iff hK (mod_periode_mod (A := A) (n + 1)), hfin]
        exact Dvd.intro_left (A + 1) rfl
      rw [h0, if_pos hd, hA, hN, Nat.mod_self]
    · rw [plein_succ hK hfin]
      by_cases hd : n % (K + 1) + 1 = K
      · have hle := plein_le (K := K) (A := A) (n + 1)
        rw [plein_succ hK hfin, if_pos hd] at hle
        rw [if_pos hd, if_pos hd, Nat.mod_eq_of_lt (by omega)]
      · rw [if_neg hd, if_neg hd]

/-- It decreases at the wrap only. -/
theorem plein_succ_lt (hK : 1 ≤ K) (hA : 1 ≤ A) (n : ℕ) :
    plein K A (n + 1) < plein K A n ↔ (n + 2) % periode K A = 0 := by
  have h2 := mod_succ (periode_pos (K := K) (A := A)) (n + 1)
  by_cases hfin : (n + 1) % periode K A + 1 = periode K A
  · obtain ⟨hn, hn1⟩ := plein_fin hfin
    rw [if_pos hfin] at h2
    rw [hn, hn1]
    exact ⟨fun _ => h2, fun _ => hA⟩
  · rw [if_neg hfin] at h2
    rw [plein_succ hK hfin]
    constructor
    · intro h
      split_ifs at h <;> omega
    · intro h
      rw [h2] at h
      exact absurd h (Nat.succ_ne_zero _)

theorem mod_eq_iff_sub {n r L : ℕ} (hr : r < L) : n % L = r ↔ r ≤ n ∧ (n - r) % L = 0 := by
  have hself := Nat.mod_eq_of_lt hr
  constructor
  · intro h
    refine ⟨?_, Nat.sub_mod_eq_zero_of_mod_eq (h.trans hself.symm)⟩
    rw [← h]
    exact Nat.mod_le _ _
  · rintro ⟨hle, h⟩
    rw [← Nat.sub_add_cancel hle, Nat.add_mod, h, hself, Nat.zero_add, hself]

theorem lt_periodeCourte : periode K A < periodeCourte K A :=
  Nat.lt_add_of_pos_right (Nat.succ_pos K)

theorem mod_periodeCourte_mod (n : ℕ) : n % periodeCourte K A % (K + 1) = n % (K + 1) :=
  Nat.mod_mod_of_dvd n (Nat.dvd_add (Dvd.intro_left (A + 1) rfl) (Nat.dvd_refl _))

/-- The overshoot is at positions `M - 1` and `M`. -/
theorem lt_court {n : ℕ} : A < court K A n ↔
    n % periodeCourte K A = periode K A - 1 ∨ n % periodeCourte K A = periode K A := by
  have hM := periode_pos (K := K) (A := A)
  unfold court
  split_ifs with hle
  · have hdiv : A + 1 ≤ (n % periodeCourte K A + 1) / (K + 1) ↔
        periode K A ≤ n % periodeCourte K A + 1 :=
      Nat.le_div_iff_mul_le (Nat.succ_pos K)
    omega
  · omega

/-- The clear follows it by one cycle, and meets position `M`. -/
theorem court_efface (hK : 1 ≤ K) (n : ℕ) : (1 ≤ n ∧ A < court K A (n - 1)) ↔
    n % periodeCourte K A = periode K A ∨ n % periodeCourte K A = periode K A + 1 := by
  have hM : K + 1 ≤ periode K A := le_periode
  have hL : periodeCourte K A = periode K A + (K + 1) := rfl
  rw [lt_court]
  rcases Nat.eq_zero_or_pos n with rfl | hn
  · rw [Nat.zero_mod]
    omega
  · have h1 := mod_succ (lt_of_le_of_lt (Nat.zero_le _) lt_periodeCourte) (n - 1)
      (M := periodeCourte K A)
    rw [show n - 1 + 1 = n by omega] at h1
    split_ifs at h1 <;> omega

/-- One edge: the counter falls after position `M`, and the pulse of that cycle
or of the next is lost. -/
theorem court_succ (hK : 1 ≤ K) (hK2 : K ≤ 2) (n : ℕ) :
    court K A (n + 1) =
      if n % periodeCourte K A = periode K A ∨ n % periodeCourte K A = periode K A + 1 then 0
      else if n % (K + 1) + 1 = K then court K A n + 1
      else court K A n := by
  have hL : 0 < periodeCourte K A := lt_of_le_of_lt (Nat.zero_le _) lt_periodeCourte
  have hlt := Nat.mod_lt n hL
  have h1 := mod_succ hL n
  have hmod := mod_periodeCourte_mod (K := K) (A := A) n
  unfold court
  rw [← hmod]
  generalize n % periodeCourte K A = r at hlt h1 ⊢
  generalize (n + 1) % periodeCourte K A = t at h1 ⊢
  obtain rfl | rfl : K = 1 ∨ K = 2 := by omega
  · have hM : periode 1 A = 2 * (A + 1) := Nat.mul_comm _ _
    have hL : periodeCourte 1 A = periode 1 A + 2 := rfl
    split_ifs at h1 <;> split_ifs <;> omega
  · have hM : periode 2 A = 3 * (A + 1) := Nat.mul_comm _ _
    have hL : periodeCourte 2 A = periode 2 A + 3 := rfl
    split_ifs at h1 <;> split_ifs <;> omega

theorem court_succ_lt (hK : 1 ≤ K) (hK2 : K ≤ 2) (n : ℕ) :
    court K A (n + 1) < court K A n ↔ n % periodeCourte K A = periode K A := by
  rw [court_succ hK hK2]
  constructor
  · intro h
    split_ifs at h with hpic
    · rcases hpic with h0 | h0
      · exact h0
      · rw [court, h0, if_neg (by omega)] at h
        exact absurd h (Nat.not_lt_zero 0)
    · omega
    · omega
  · intro h
    rw [if_pos (Or.inl h)]
    exact Nat.zero_lt_of_lt (lt_court.mpr (Or.inr h))

theorem comptage_court (hK : 1 ≤ K) (hK2 : K ≤ 2) (hA : A + 1 < N) :
    Comptage N K A (court K A) where
  debut := by
    rw [court, Nat.zero_mod, if_pos (Nat.zero_le _)]
    exact Nat.div_eq_of_lt (by omega)
  pas := by
    intro n
    have hle : court K A (n + 1) ≤ A + 1 := by
      unfold court
      split_ifs with hr
      · have hM : (A + 2) * (K + 1) = periode K A + (K + 1) := by unfold periode; ring
        have hlt : ((n + 1) % periodeCourte K A + 1) / (K + 1) < A + 2 :=
          (Nat.div_lt_iff_lt_mul (Nat.add_one_pos K)).mpr (by omega)
        omega
      · omega
    rw [court_succ hK hK2] at hle ⊢
    rw [if_congr (court_efface hK n) rfl rfl]
    split_ifs at hle ⊢
    · rfl
    · rw [Nat.mod_eq_of_lt (by omega)]
    · rfl

end

/-! ## The timer with constant registers -/

namespace Timer

variable {P : ℕ} {u : PowerUp} {p : TimerPorts P}

/-- Enabled, not reset, and never reprogrammed. -/
structure Constant (p : TimerPorts P) : Prop where
  prescaler : 1 ≤ p.prescaler.toNat
  enable : p.enable = .one
  reset : p.reset = .zero

theorem resetDiv_constant (hp : Constant p) (n : ℕ) :
    (cycle u (fun _ => p) n).resetDiv ≠ .one := by
  cases n with
  | zero => simp [powerOn]
  | succ n =>
      rw [cycle_succ, front_resetDiv, hp.reset]
      decide

/-- The divider counts modulo `K + 1`. -/
theorem div_constant (hp : Constant p) (n : ℕ) :
    (cycle u (fun _ => p) n).div.toNat = n % (p.prescaler.toNat + 1) := by
  induction n with
  | zero => simp [powerOn]
  | succ n ih =>
      have hlt := Nat.mod_lt n (Nat.add_one_pos p.prescaler.toNat)
      rw [cycle_succ, front_div, mod_succ (Nat.add_one_pos _)]
      split_ifs with htop
      · rw [diviseur_wrap hp.prescaler (by omega)]
        rfl
      · rw [diviseur_incr hp.prescaler (resetDiv_constant hp n) (by omega) hp.enable, ih]

/-- The counter is the solution of its recurrence. -/
theorem compt1_constant (hp : Constant p) {f : ℕ → ℕ}
    (hf : Comptage (2 ^ P) p.prescaler.toNat p.autoreload.toNat f) (n : ℕ) :
    (cycle u (fun _ => p) n).compt1.toNat = f n ∧
      ((cycle u (fun _ => p) n).srstCompt1 = .one ↔
        1 ≤ n ∧ p.autoreload.toNat < f (n - 1)) := by
  induction n with
  | zero =>
      refine ⟨?_, ?_⟩
      · rw [hf.debut]
        simp [powerOn]
      · simp [powerOn]
  | succ n ih =>
      obtain ⟨hc, hs⟩ := ih
      refine ⟨?_, ?_⟩
      · rw [hf.pas, cycle_succ, if_congr hs.symm rfl rfl]
        by_cases hsrst : (cycle u (fun _ => p) n).srstCompt1 = .one
        · rw [if_pos hsrst, front_compt1_clear hsrst]
          rfl
        · rw [if_neg hsrst, ← div_constant (u := u) hp n]
          by_cases hd : (cycle u (fun _ => p) n).div.toNat + 1 = p.prescaler.toNat
          · rw [if_pos hd, front_compt1_incr hp.prescaler hd hsrst, BitVec.toNat_add, hc]
            simp
          · rw [if_neg hd, front_compt1_hold hp.prescaler hd hsrst, hc]
      · rw [cycle_succ, front_srstCompt1, hp.reset, hc]
        simp

/-- Where its values decrease from one cycle to the next, the event is raised
two cycles after the first of them. -/
theorem coUEV_constant (hp : Constant p) {f : ℕ → ℕ}
    (hf : Comptage (2 ^ P) p.prescaler.toNat p.autoreload.toNat f) {a L : ℕ} (ha : 2 ≤ a)
    (hdec : ∀ n, f (n + 1) < f n ↔ a ≤ n + 2 ∧ (n + 2 - a) % L = 0) (n : ℕ) :
    (cycle u (fun _ => p) n).coUEV = .one ↔ a ≤ n ∧ (n - a) % L = 0 := by
  by_cases hn : n ≤ 1
  · constructor
    · exact fun h => absurd h (coUEV_debut hn)
    · exact fun h => absurd h.1 (by omega)
  · obtain ⟨m, rfl⟩ : ∃ m, n = m + 2 := ⟨n - 2, by omega⟩
    rw [coUEV_decroit, (compt1_constant hp hf _).1, (compt1_constant hp hf _).1, hdec]

/-- The cycles between two events: one turn, and one divider period more where
each clear costs a pulse. -/
def periodeEvenements (p : TimerPorts P) : ℕ :=
  if 3 ≤ p.prescaler.toNat ∨ p.autoreload.toNat + 1 = 2 ^ P
  then periode p.prescaler.toNat p.autoreload.toNat
  else periodeCourte p.prescaler.toNat p.autoreload.toNat

theorem periodeEvenements_pos : 0 < periodeEvenements p := by
  unfold periodeEvenements
  split_ifs
  · exact periode_pos
  · exact lt_of_le_of_lt (Nat.zero_le _) lt_periodeCourte

/-- In each of the three cases the events form a periodic signal. -/
theorem coUEV_periodique (hp : Constant p) : ∃ a, ∀ n,
    (cycle u (fun _ => p) n).coUEV = .one ↔ a ≤ n ∧ (n - a) % periodeEvenements p = 0 := by
  have hK := hp.prescaler
  have hP := p.prescaler.isLt
  have hA := p.autoreload.isLt
  have hM : p.prescaler.toNat + 1 ≤ periode p.prescaler.toNat p.autoreload.toNat := le_periode
  unfold periodeEvenements
  by_cases hfull : p.autoreload.toNat + 1 = 2 ^ P
  · rw [if_pos (Or.inr hfull)]
    refine ⟨_, coUEV_constant (a := periode p.prescaler.toNat p.autoreload.toNat) hp
      (comptage_plein hK hfull) (by omega) ?_⟩
    intro n
    rw [plein_succ_lt hK (by omega)]
    constructor
    · intro h
      have hle := Nat.le_of_dvd (Nat.succ_pos _) (Nat.dvd_of_mod_eq_zero h)
      exact ⟨hle, by rw [← Nat.mod_eq_sub_mod hle, h]⟩
    · rintro ⟨hle, h⟩
      rw [Nat.mod_eq_sub_mod hle, h]
  · by_cases h3 : 3 ≤ p.prescaler.toNat
    · rw [if_pos (Or.inl h3)]
      refine ⟨_, coUEV_constant (a := periode p.prescaler.toNat p.autoreload.toNat + 2) hp
        (comptage_trajectoire h3 (by omega)) (by omega) ?_⟩
      intro n
      rw [trajectoire_succ_lt h3, Nat.add_sub_add_right, Nat.add_le_add_iff_right]
      refine and_congr_right ?_
      intro hle
      rw [Nat.mod_eq_sub_mod hle]
    · rw [if_neg (by omega)]
      refine ⟨_, coUEV_constant (a := periode p.prescaler.toNat p.autoreload.toNat + 2) hp
        (comptage_court hK (by omega) (by omega)) (by omega) ?_⟩
      intro n
      rw [court_succ_lt hK (by omega), Nat.add_sub_add_right, Nat.add_le_add_iff_right]
      exact mod_eq_iff_sub lt_periodeCourte

/-- **The frequency law.**  From power-on, enabled and not reset: consecutive
events are `(Autoreload+1) * (Prescaler+1)` cycles apart iff the prescaler is
at least 3 or the reload value is the largest of its width. -/
theorem frequence_iff (hK : 1 ≤ p.prescaler.toNat) (he : p.enable = .one)
    (hr : p.reset = .zero) :
    (∀ n m, n < m → (cycle u (fun _ => p) n).coUEV = .one →
        (cycle u (fun _ => p) m).coUEV = .one →
        (∀ k, n < k → k < m → (cycle u (fun _ => p) k).coUEV ≠ .one) →
        m = n + (p.autoreload.toNat + 1) * (p.prescaler.toNat + 1)) ↔
      3 ≤ p.prescaler.toNat ∨ p.autoreload.toNat = 2 ^ P - 1 := by
  obtain ⟨a, ha⟩ := coUEV_periodique (u := u) ⟨hK, he, hr⟩
  have hA := p.autoreload.isLt
  have hlt := lt_periodeCourte (K := p.prescaler.toNat) (A := p.autoreload.toNat)
  rw [pulses_ecart periodeEvenements_pos ha]
  unfold periodeEvenements
  constructor
  · intro h
    by_contra hnot
    rw [if_neg (by omega)] at h
    exact absurd h (Nat.ne_of_lt hlt)
  · intro h
    rw [if_pos (by omega)]
    rfl

/-- The ports of a timer of width 4 that is always enabled. -/
def reglage4 (prescaler autoreload : BitVec 4) : TimerPorts 4 :=
  { enable := .one, reset := .zero, prescaler := prescaler, autoreload := autoreload }

/-- At the smallest prescaler the law needs, with `Autoreload = 2`. -/
theorem frequence_iff_temoin :
    (∀ n m, n < m → (cycle .fpga (fun _ => reglage4 3 2) n).coUEV = .one →
        (cycle .fpga (fun _ => reglage4 3 2) m).coUEV = .one →
        (∀ k, n < k → k < m → (cycle .fpga (fun _ => reglage4 3 2) k).coUEV ≠ .one) →
        m = n + (2 + 1) * (3 + 1)) ↔
      3 ≤ 3 ∨ 2 = 2 ^ 4 - 1 :=
  frequence_iff (p := reglage4 3 2) (by decide) rfl rfl

/-- **A prescaler of 1 loses a pulse in each turn**: with `Autoreload = 0` the
first two events are at cycles 4 and 8, where the header announces 2 cycles. -/
theorem frequence_prescaler_un :
    (cycle .fpga (fun _ => reglage4 1 0) 4).coUEV = .one ∧
      (cycle .fpga (fun _ => reglage4 1 0) 8).coUEV = .one ∧
      (∀ k, 4 < k → k < 8 → (cycle .fpga (fun _ => reglage4 1 0) k).coUEV ≠ .one) ∧
      8 ≠ 4 + (0 + 1) * (1 + 1) := by
  have hno : ∀ k, k < 8 → 4 < k → (cycle .fpga (fun _ => reglage4 1 0) k).coUEV ≠ .one := by
    decide
  exact ⟨by decide, by decide, fun k h4 h8 => hno k h8 h4, by decide⟩

end Timer

end BarreFranche
