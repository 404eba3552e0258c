/-
# `TimerRapport` — the duty cycle of `PWM_output`

The comments beside the timers of gestion_boutton.vhd announce
`DC = ccr / (arr + 1)`.  In a period of `M = (A+1)*(K+1)` cycles between two
events `PWM_output` would then be '1' on `C * (K+1)` cycles.  It is '1' on
`(C+1) * (K+1) - 2`: the comparison with `Capture_Compare` is inclusive, which
adds one divider period, and of the value 0 two cycles are missing, those the
overshoot `A+1` has taken.  With `3 ≤ K` the two never agree
(`rapport_cyclique`).

What precedes the first of the two events is left open: the timer may have been
disabled and reset at any moment.  The event tells enough (`apres_coUEV`): the
counter is 0 and stays so for one more cycle, and a period of exactly `M`
cycles leaves one phase of the divider only (`phase_de_periode`).
-/
import BarreFranche.TimerEvenement
import BarreFranche.Minuterie
import BarreFranche.Synchrone.Pulse

namespace BarreFranche

open Synchrone

/-! ## The closed form against a threshold -/

section
variable {K A C : ℕ}

/-- One turn from position 2 on, where an event leaves the timer. -/
theorem trajectoire_seuil (hK : 3 ≤ K) (hC : C ≤ A) {i : ℕ} (hi : i < periode K A) :
    trajectoire K A (2 + i) ≤ C ↔ i + 3 < (C + 1) * (K + 1) ∨ i + 1 = periode K A := by
  have hM : K + 1 ≤ periode K A := le_periode
  have hCM : (C + 1) * (K + 1) ≤ periode K A := Nat.mul_le_mul_right (K + 1) (by omega)
  have hmod : 2 + i + 1 < periode K A → (2 + i + 1) % periode K A = 2 + i + 1 := Nat.mod_eq_of_lt
  by_cases hlt : i + 3 < periode K A
  · rw [trajectoire_of_not (by omega), hmod (by omega), ← Nat.lt_succ_iff,
      Nat.div_lt_iff_lt_mul (Nat.add_one_pos K), Nat.succ_eq_add_one]
    omega
  · obtain ⟨j, hj⟩ : ∃ j, 2 + i + 1 = periode K A + j := ⟨2 + i + 1 - periode K A, by omega⟩
    have hj2 : (2 + i + 1) % periode K A = j := by
      rw [hj, Nat.add_mod_left, Nat.mod_eq_of_lt (by omega)]
    by_cases hpic : j ≤ 1
    · -- the overshoot
      rw [trajectoire_pic (by omega) (by omega)]
      omega
    · rw [trajectoire_of_not (by omega), hj2, Nat.div_eq_of_lt (by omega)]
      omega

end

namespace Timer

variable {P K A : ℕ} {u : PowerUp} {w : ℕ → TimerPorts P}

/-! ## After an event -/

section
variable {p : TimerPorts P} {t : Timer P}

theorem front_compt1_ge (h : (front p t).compt1 ≠ 0) :
    t.compt1.toNat ≤ (front p t).compt1.toNat := by
  by_contra hlt
  exact h (front_compt1_lt (Nat.lt_of_not_le hlt))

/-- A counter that is not cleared comes back to 0 by a wrap only. -/
theorem front_compt1_wrap (hs : t.srstCompt1 ≠ .one) (h : t.compt1 ≠ 0)
    (h0 : (front p t).compt1 = 0) : 2 ^ P ≤ t.compt1.toNat + 1 := by
  by_contra hlt
  rw [front_compt1, compteur_one, if_neg hs] at h0
  split_ifs at h0
  · have hincr := toNat_incr (Nat.lt_of_not_le hlt)
    rw [h0] at hincr
    exact absurd hincr.symm (Nat.succ_ne_zero _)
  · exact h h0

/-- At 0 with nothing pending and the divider within its range: the position
its count names. -/
theorem suit_de_zero (hc : t.compt1 = 0) (hov : t.counterOverflowD = 0)
    (hs : t.srstCompt1 ≠ .one) (hrd : t.resetDiv ≠ .one) (hlt : t.div.toNat < K) :
    Suit K A t.div.toNat t where
  div := (Nat.mod_eq_of_lt (by omega)).symm
  compt1 := by
    rw [hc, trajectoire_debut hlt]
    rfl
  retard := fun _ => by
    rw [hov, trajectoire_debut (by omega)]
    rfl
  srst := fun _ => by
    have hM : K + 1 ≤ periode K A := le_periode
    exact ⟨fun h => absurd h hs, fun h => absurd h.1 (by omega)⟩
  resetDiv := hrd

/-- At 0 with the divider about to clear itself: a clean start one cycle late. -/
theorem tour_de_boucle (hp : Reglage K A p) (hc : t.compt1 = 0) (hov : t.counterOverflowD = 0)
    (hs : t.srstCompt1 ≠ .one) (hr : p.reset ≠ .one) (hge : K ≤ t.div.toNat) :
    Tour K A 0 (front p t) := by
  have hpsc := hp.prescaler
  have hK := hp.three_le
  exact
    { suit :=
        { div := by
            rw [front_div, diviseur_wrap (by omega) (by omega)]
            simp
          compt1 := by
            rw [front_compt1_hold (by omega) (by omega) hs, hc, trajectoire_debut (by omega)]
            rfl
          retard := fun h => absurd h (by omega)
          srst := fun h => absurd h (by omega)
          resetDiv := hr }
      retard := fun _ => by rw [front_counterOverflowD, hc]
      evenement := ⟨fun h => absurd h (front_coUEV_of_retard hov),
        fun h => absurd h (by omega)⟩ }

end

section
variable (hp : ∀ k, Reglage K A (w k))

include hp

/-- A clear in progress when the counter comes back to 0 leaves the next one
pending, or a divider far from its last count. -/
theorem retour_efface {m : ℕ} (hc : (cycle u w m).srstCompt1 = .one)
    (h : (cycle u w m).compt1 ≠ 0) :
    (cycle u w (m + 1)).srstCompt1 = .one ∨ (cycle u w (m + 1)).div = 0 := by
  obtain ⟨l, rfl⟩ : ∃ l, m = l + 1 := by
    cases m with
    | zero => exact absurd hc (by simp [powerOn])
    | succ l => exact ⟨l, rfl⟩
  rw [cycle_succ, front_srstCompt1] at hc
  rcases hc with hover | hreset
  · -- an overshoot lasts two cycles
    left
    have hle : (cycle u w l).compt1.toNat ≤ (cycle u w (l + 1)).compt1.toNat := front_compt1_ge h
    rw [cycle_succ, front_srstCompt1]
    rw [(hp l).autoreload] at hover
    rw [(hp (l + 1)).autoreload]
    exact Or.inl (hover.trans_le hle)
  · right
    have hrd : (cycle u w (l + 1)).resetDiv = .one := hreset
    rw [cycle_succ, front_div, diviseur_reset hrd]

/-- One cycle after its return to 0 the counter is still 0. -/
theorem apres_coUEV {m : ℕ} (h : (cycle u w m).compt1 ≠ 0)
    (h0 : (cycle u w (m + 1)).compt1 = 0) : (cycle u w (m + 2)).compt1 = 0 := by
  have hpsc := (hp (m + 1)).prescaler
  have hK := (hp (m + 1)).three_le
  by_cases hs : (cycle u w (m + 1)).srstCompt1 = .one
  · rw [cycle_succ, front_compt1_clear hs]
  · have hd : (cycle u w (m + 1)).div.toNat + 1 ≠ K := by
      intro hd
      by_cases hc : (cycle u w m).srstCompt1 = .one
      · rcases retour_efface hp hc h with hs' | hdiv
        · exact hs hs'
        · have hz : (cycle u w (m + 1)).div.toNat = 0 := congrArg BitVec.toNat hdiv
          omega
      · -- a wrap comes from more than `A`
        have hwrap : 2 ^ P ≤ (cycle u w m).compt1.toNat + 1 := front_compt1_wrap hc h h0
        have htop := (hp m).lt_top
        have hover : (w m).autoreload.toNat < (cycle u w m).compt1.toNat := by
          rw [(hp m).autoreload]
          omega
        exact hs ((front_srstCompt1 _ _).mpr (Or.inl hover))
    rw [cycle_succ, front_compt1_hold (by omega) (by omega) hs, h0]

/-- A clean start one cycle after `n` has no event `M` cycles after `n`. -/
theorem tour_sans_periode {n : ℕ} (h : Tour K A 0 (cycle u w (n + 1)))
    (hrun : ∀ k, n ≤ k → k < n + periode K A → (w k).enable = .one ∧ (w k).reset ≠ .one) :
    (cycle u w (n + periode K A)).coUEV ≠ .one := by
  have hM : K + 1 ≤ periode K A := le_periode
  have hstep : ∀ k, k < periode K A - 1 → Tour K A k (cycle u w (n + 1 + k)) →
      Tour K A (k + 1) (cycle u w (n + 1 + k + 1)) := by
    intro k hk ht
    obtain ⟨he, hr⟩ := hrun (n + 1 + k) (by omega) (by omega)
    exact ht.front (hp _) hr he (by omega)
  have hend := run_window (I := Tour K A) h hstep (periode K A - 1) le_rfl
  rw [show n + 1 + (periode K A - 1) = n + periode K A by omega] at hend
  exact fun hs => absurd (hend.evenement.mp hs) (by omega)

/-- Two events `M` cycles apart, with the timer enabled in between: the first
one leaves the timer at position 2. -/
theorem phase_de_periode {n : ℕ} (hn : (cycle u w n).coUEV = .one)
    (hm : (cycle u w (n + periode K A)).coUEV = .one)
    (hrun : ∀ k, n ≤ k → k < n + periode K A → (w k).enable = .one ∧ (w k).reset ≠ .one) :
    Suit K A 2 (cycle u w n) := by
  have hK := (hp n).three_le
  have hM : K + 1 ≤ periode K A := le_periode
  obtain ⟨m, rfl, hne, h0⟩ := retour_de_coUEV hn
  have hc : (cycle u w (m + 2)).compt1 = 0 := apres_coUEV hp hne h0
  have hov : (cycle u w (m + 2)).counterOverflowD = 0 := by rw [retard_succ, h0]
  obtain ⟨he, hr⟩ := hrun (m + 2) le_rfl (by omega)
  by_cases hreset : (cycle u w (m + 2)).resetDiv = .one
  · -- a reset of the edge before the event starts a clean turn one cycle late
    refine absurd hm (tour_sans_periode hp ?_ hrun)
    have hvide : Vide (cycle u w (m + 2)) :=
      ⟨⟨hreset, (front_srstCompt1 _ _).mpr (Or.inr hreset)⟩, hc, hov⟩
    exact hvide.front (hp _) hr
  · have hs : (cycle u w (m + 2)).srstCompt1 ≠ .one := by
      rw [cycle_succ, Ne, front_srstCompt1, h0, not_or]
      exact ⟨Nat.not_lt_zero _, hreset⟩
    rcases Nat.lt_or_ge (cycle u w (m + 2)).div.toNat K with hlt | hge
    · -- at position `div` of a turn; the next event tells which
      have hsuit : Suit K A (cycle u w (m + 2)).div.toNat (cycle u w (m + 2)) :=
        suit_de_zero hc hov hs hreset hlt
      have hlast := suit_run (d := periode K A - 1) hsuit hp
        (fun k hk hk' => ⟨(hrun k hk (by omega)).2, (hrun k hk (by omega)).1⟩)
        (periode K A - 1) le_rfl
      rw [show m + 2 + periode K A = m + 2 + (periode K A - 1) + 1 by omega, cycle_succ] at hm
      obtain ⟨-, hmod⟩ := (hlast.front_coUEV (by omega) (by omega)).mp hm
      rw [show (cycle u w (m + 2)).div.toNat + (periode K A - 1) + 1 =
        (cycle u w (m + 2)).div.toNat + periode K A by omega, Nat.add_mod_right,
        Nat.mod_eq_of_lt (by omega)] at hmod
      rwa [hmod] at hsuit
    · exact absurd hm (tour_sans_periode hp (tour_de_boucle (hp _) hc hov hs hr hge) hrun)

end

/-! ## The duty cycle -/

/-- The cycles of one turn on which the counter has not passed `C`. -/
theorem pulses_seuil (hK : 3 ≤ K) {C n : ℕ} (hC : C ≤ A) {p : ℕ → Prop} [DecidablePred p]
    (hp : ∀ i, i < periode K A → (p (n + i) ↔ trajectoire K A (2 + i) ≤ C)) :
    pulses p n (n + periode K A) + 2 = (C + 1) * (K + 1) := by
  have hM : K + 1 ≤ periode K A := le_periode
  have hCM : (C + 1) * (K + 1) ≤ periode K A := Nat.mul_le_mul_right (K + 1) (by omega)
  have hCK : K + 1 ≤ (C + 1) * (K + 1) := Nat.le_mul_of_pos_left _ (Nat.succ_pos C)
  obtain ⟨h, hh⟩ : ∃ h, (C + 1) * (K + 1) = h + 3 := ⟨(C + 1) * (K + 1) - 3, by omega⟩
  have hhaut : pulses p n (n + h) = h := by
    rw [pulses_eq_sub, Nat.add_sub_cancel_left]
    intro k hk hk'
    obtain ⟨i, rfl⟩ : ∃ i, k = n + i := ⟨k - n, by omega⟩
    exact (hp i (by omega)).mpr ((trajectoire_seuil hK hC (by omega)).mpr (by omega))
  have hbas : pulses p (n + h) (n + (periode K A - 1)) = 0 := by
    refine pulses_eq_zero ?_
    intro k hk hk' hpk
    obtain ⟨i, rfl⟩ : ∃ i, k = n + i := ⟨k - n, by omega⟩
    have := (trajectoire_seuil hK hC (by omega)).mp ((hp i (by omega)).mp hpk)
    omega
  have hdernier : p (n + (periode K A - 1)) :=
    (hp _ (by omega)).mpr ((trajectoire_seuil hK hC (by omega)).mpr (by omega))
  rw [show n + periode K A = n + (periode K A - 1) + 1 by omega, pulses_succ (by omega),
    if_pos hdernier, pulses_add (b := n + h) (by omega) (by omega), hhaut, hbas]
  omega

/-- **The duty cycle.**  Constant registers with `3 ≤ K` and `C ≤ A`, any past,
and two events one period apart between which the timer is enabled and not
reset: `PWM_output` is '1' on `(C+1) * (K+1) - 2` of these cycles, and never on
the `C * (K+1)` the comments announce. -/
theorem rapport_cyclique {captureCompare : BitVec P} {n : ℕ} (hK : 3 ≤ K) (hA : A ≤ 2 ^ P - 2)
    (hC : captureCompare.toNat ≤ A) (hpsc : ∀ k, (w k).prescaler.toNat = K)
    (harr : ∀ k, (w k).autoreload.toNat = A) (hn : (cycle u w n).coUEV = .one)
    (hm : (cycle u w (n + (A + 1) * (K + 1))).coUEV = .one)
    (hrun : ∀ k, n ≤ k → k < n + (A + 1) * (K + 1) →
      (w k).enable = .one ∧ (w k).reset = .zero) :
    pulses (fun k => pwmOutput .one captureCompare (cycle u w k) = .one) n
          (n + (A + 1) * (K + 1)) =
        (captureCompare.toNat + 1) * (K + 1) - 2 ∧
      pulses (fun k => pwmOutput .one captureCompare (cycle u w k) = .one) n
          (n + (A + 1) * (K + 1)) ≠
        captureCompare.toNat * (K + 1) := by
  have hp : ∀ k, Reglage K A (w k) := fun k =>
    { prescaler := hpsc k
      autoreload := harr k
      three_le := hK
      lt_top := by
        have := (w k).prescaler.isLt
        have := hpsc k
        omega }
  have hlibre : ∀ k, n ≤ k → k < n + periode K A → (w k).enable = .one ∧ (w k).reset ≠ .one :=
    fun k hk hk' => ⟨(hrun k hk hk').1, StdLogic.ne_one_of_zero (hrun k hk hk').2⟩
  have h2 : Suit K A 2 (cycle u w n) := phase_de_periode hp hn hm hlibre
  have hpos := suit_run (d := periode K A) h2 hp
    (fun k hk hk' => ⟨(hlibre k hk hk').2, (hlibre k hk hk').1⟩)
  have hcount := pulses_seuil (n := n) hK hC
    (p := fun k => pwmOutput .one captureCompare (cycle u w k) = .one) (by
      intro i hi
      rw [pwmOutput_eq_one, ← (hpos i (by omega)).compt1]
      exact ⟨And.left, fun h => ⟨h, rfl⟩⟩)
  have hexp : (captureCompare.toNat + 1) * (K + 1) = captureCompare.toNat * (K + 1) + (K + 1) :=
    Nat.succ_mul _ _
  rw [periode] at hcount
  omega

/-- Width 4, `K = 3`, `A = 0`: the events are 4 cycles apart. -/
theorem rapport_cyclique_temoin :
    pulses (fun k => pwmOutput .one (0 : BitVec 4)
          (cycle .fpga (fun _ => ⟨.one, .zero, 3, 0⟩) k) = .one) 6 (6 + (0 + 1) * (3 + 1)) =
        (0 + 1) * (3 + 1) - 2 :=
  (rapport_cyclique (K := 3) (A := 0) le_rfl (by decide) le_rfl (fun _ => rfl) (fun _ => rfl)
    (by decide) (by decide) (fun _ _ _ => ⟨rfl, rfl⟩)).1

/-- **A duty cycle of 0 is not 0**: with `Capture_Compare = 0` the output is '1'
in the cycle of the event. -/
theorem rapport_nul :
    (cycle .fpga (fun _ => (⟨.one, .zero, 3, 0⟩ : TimerPorts 4)) 6).coUEV = .one ∧
      (cycle .fpga (fun _ => (⟨.one, .zero, 3, 0⟩ : TimerPorts 4)) 10).coUEV = .one ∧
      pulses (fun k => pwmOutput .one (0 : BitVec 4)
          (cycle .fpga (fun _ => ⟨.one, .zero, 3, 0⟩) k) = .one) 6 10 ≠ 0 * (3 + 1) := by
  refine ⟨by decide, by decide, ?_⟩
  exact Nat.ne_of_gt (pulses_pos (u := 6) le_rfl (by omega) (by decide))

end Timer

end BarreFranche
