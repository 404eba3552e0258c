/-
# `AnemometreReset` — what `reset_n` forgets

The header says of the reset that it initialises the circuit.  Two runs that
have just been reset for ten edges and receive the same inputs from then on
should therefore look the same.

Five edges with `reset_n` at '0' do clear the timer, its divider and the edge
counter, whatever they held (`timer_apres_reset`).  Three registers are out of
its reach:

    timer_enable       written by `continu`, `start_stop` and a publication
    data_anemometre    written by a publication
    data_valid         written by a publication

All three still have their power-on value iff nothing has been published yet,
and then the reset does initialise the circuit (`initialise_apres_reset`).  A
reset that clears a running counter publishes once more, so what matters is the
state in which the reset finds the block: nothing published, and nothing that
the reset would make it publish (`Muet`).  The past is forgotten iff it has left
both runs in such a state (`oubli_iff`).
-/
import BarreFranche.AnemometreMesure

namespace BarreFranche

attribute [ext] Anemometre

namespace Anemometre

open Synchrone

variable {u : PowerUp} {w : ℕ → AnemometreEntrees}

/-! ## The registers that the reset reaches -/

/-- The block as a reset leaves it before the first publication; `f0` and `f1`
are the last two samples of the sensor. -/
def initialise (u : PowerUp) (f0 f1 : Bool) : Anemometre :=
  { timerEnable := .one
    internalReset := .one
    counter := 0
    timer1hz :=
      { div := 0, compt1 := 0, counterOverflowD := 0, coUEV := .zero,
        srstCompt1 := .one, resetDiv := .one }
    edgeDetector1 :=
      { fInD := .ofBool f1, detectedEdge := if f0 = false ∧ f1 = true then .one else .zero }
    dataAnemometre := 0
    dataValid := u.level }

theorem internalReset_reset {k : ℕ} (h : (w k).resetN = false) :
    (cycle u w (k + 1)).internalReset = .one :=
  (front_internalReset _ _).mpr (Or.inr h)

section
variable {a : ℕ} (hreset : ∀ k, k < 5 → (w (a + k)).resetN = false)

include hreset

theorem timer_apres_reset : (cycle u w (a + 5)).timer1hz = (initialise u false false).timer1hz :=
  efface_quatre (internalReset_reset (hreset 0 (by omega)))
    (internalReset_reset (hreset 1 (by omega))) (internalReset_reset (hreset 2 (by omega)))
    (internalReset_reset (hreset 3 (by omega)))

theorem counter_apres_reset : (cycle u w (a + 5)).counter = 0 := by
  rw [cycle_succ, front_counter, compteur_clear (internalReset_reset (hreset 3 (by omega)))]

end

theorem edgeDetector1_succ (n : ℕ) : (cycle u w (n + 2)).edgeDetector1 =
    (initialise u (w n).inFreqAnemometre (w (n + 1)).inFreqAnemometre).edgeDetector1 := by
  simp [cycle_succ, front, EdgeDetector.front, initialise]

/-! ## The registers that it does not reach -/

/-- Before the first publication `timer_enable` is as it powered up. -/
theorem timerEnable_neuf {t : ℕ} (hno : ∀ k, k < t → (cycle u w k).second ≠ .one) :
    (cycle u w t).timerEnable = .one := by
  induction t with
  | zero => rfl
  | succ t ih =>
      exact (front_timerEnable _ _).mpr
        (Or.inr ⟨hno t (by omega), ih fun k hk => hno k (by omega)⟩)

/-- A reset before the first publication initialises the circuit. -/
theorem initialise_apres_reset {a : ℕ} (hreset : ∀ k, k < 5 → (w (a + k)).resetN = false)
    (hno : ∀ k, k < a + 5 → (cycle u w k).second ≠ .one) :
    cycle u w (a + 5) =
      initialise u (w (a + 3)).inFreqAnemometre (w (a + 4)).inFreqAnemometre := by
  obtain ⟨hdata, hvalid⟩ := sorties_neuves hno
  exact Anemometre.ext (timerEnable_neuf hno) (internalReset_reset (hreset 4 (by omega)))
    (counter_apres_reset hreset) (timer_apres_reset hreset) (edgeDetector1_succ (a + 3)) hdata
    hvalid

/-! ## The state before the reset -/

/-- `data_valid` is '0', the timer has counted nothing, and its divider will not
enable the counter before the reset reaches it. -/
structure Muet (s : Anemometre) : Prop where
  dataValid : s.dataValid = .zero
  second : s.second ≠ .one
  compt1 : s.timer1hz.compt1 = 0
  retard : s.timer1hz.counterOverflowD = 0
  impulsion : s.timer1hz.srstCompt1 = .one ∨ s.timer1hz.div.toNat + 1 ≠ 9999
  suivante : s.internalReset = .one ∨ s.timer1hz.resetDiv = .one ∨
    s.timer1hz.div.toNat + 2 ≠ 9999

section
variable {s : Anemometre} {e : AnemometreEntrees}

/-- A counter at 0 stays there iff it is cleared or gets no divider pulse. -/
theorem compt1_reste (h0 : s.timer1hz.compt1 = 0) : (front e s).timer1hz.compt1 = 0 ↔
    s.timer1hz.srstCompt1 = .one ∨ s.timer1hz.div.toNat + 1 ≠ 9999 := by
  rw [front_timer1hz]
  by_cases hs : s.timer1hz.srstCompt1 = .one
  · simp [hs, Timer.front_compt1_clear hs]
  · have hK : 1 ≤ s.ports.prescaler.toNat := by rw [(reglage s).prescaler]; omega
    by_cases hd : s.timer1hz.div.toNat + 1 = s.ports.prescaler.toNat
    · rw [Timer.front_compt1_incr hK hd hs, h0]
      rw [(reglage s).prescaler] at hd
      simp [hs, hd]
    · rw [Timer.front_compt1_hold hK hd hs, h0]
      rw [(reglage s).prescaler] at hd
      simp [hd]

/-- One edge later, for a timer that is enabled. -/
theorem impulsion_front (he : s.timerEnable = .one) (h0 : s.timer1hz.compt1 = 0) :
    ((front e s).timer1hz.srstCompt1 = .one ∨ (front e s).timer1hz.div.toNat + 1 ≠ 9999) ↔
      s.internalReset = .one ∨ s.timer1hz.resetDiv = .one ∨
        s.timer1hz.div.toNat + 2 ≠ 9999 := by
  have hK : 1 ≤ s.ports.prescaler.toNat := by rw [(reglage s).prescaler]; omega
  have hs : (front e s).timer1hz.srstCompt1 = .one ↔ s.internalReset = .one := by
    rw [front_timer1hz, Timer.front_srstCompt1, h0]
    simp [ports]
  have hd : (front e s).timer1hz.div.toNat + 1 ≠ 9999 ↔
      s.timer1hz.resetDiv = .one ∨ s.timer1hz.div.toNat + 2 ≠ 9999 := by
    have hpsc := (reglage s).prescaler
    have hz : (0 : BitVec 16).toNat = 0 := rfl
    have he : s.ports.enable = .one := he
    rw [front_timer1hz, Timer.front_div]
    by_cases hr : s.timer1hz.resetDiv = .one
    · rw [diviseur_reset hr, hz]
      exact ⟨fun _ => Or.inl hr, fun _ => by decide⟩
    · simp only [hr, false_or]
      rcases Nat.lt_or_ge s.timer1hz.div.toNat s.ports.prescaler.toNat with hlt | hge
      · rw [diviseur_incr hK hr hlt he]
      · rw [diviseur_wrap hK hge, hz]
        omega
  rw [hs, hd]

end

/-- The event is raised two cycles after a counter that is not 0 and is cleared. -/
theorem second_silence {n : ℕ} (h : (cycle u w n).timer1hz.compt1 = 0) :
    (cycle u w (n + 2)).second ≠ .one :=
  front_coUEV_of_retard h

/-- Without an event the counter has not decreased. -/
theorem retard_le {n : ℕ} (h : (cycle u w (n + 1)).second ≠ .one) :
    (cycle u w n).timer1hz.counterOverflowD.toNat ≤ (cycle u w n).timer1hz.compt1.toNat :=
  Nat.not_lt.mp fun hlt => h ((Timer.front_coUEV _ _).mpr hlt)

section
variable {a r : ℕ} (hreset : ∀ k, k < r → (w (a + k)).resetN = false)

include hreset

/-- Under a reset the counter is 0 from the third cycle on. -/
theorem compt1_reset {k : ℕ} (hk : 3 ≤ k) (hkr : k ≤ r) :
    (cycle u w (a + k)).timer1hz.compt1 = 0 := by
  obtain ⟨j, rfl⟩ : ∃ j, k = j + 3 := ⟨k - 3, by omega⟩
  have hρ : (cycle u w (a + j + 1)).internalReset = .one :=
    internalReset_reset (hreset j (by omega))
  exact compt1_of_efface (K := 9999) (A := 4999) (efface_of_reset hρ)

/-- From such a state nothing is published up to the end of the reset. -/
theorem Muet.silence (h : Muet (cycle u w a)) {k : ℕ} (hk : k < a + r) :
    (cycle u w k).second ≠ .one := by
  obtain ⟨-, hno⟩ := (dataValid_zero_iff a).mp h.dataValid
  have he : (cycle u w a).timerEnable = .one := timerEnable_neuf hno
  have h1 : (cycle u w (a + 1)).timer1hz.compt1 = 0 := (compt1_reste h.compt1).mpr h.impulsion
  have h2 : (cycle u w (a + 2)).timer1hz.compt1 = 0 :=
    (compt1_reste h1).mpr ((impulsion_front he h.compt1).mpr h.suivante)
  have hzero : ∀ j, j ≤ r → (cycle u w (a + j)).timer1hz.compt1 = 0
    | 0, _ => h.compt1
    | 1, _ => h1
    | 2, _ => h2
    | j + 3, hj => compt1_reset hreset (by omega) hj
  by_cases hka : k < a
  · exact hno k hka
  · obtain ⟨j, rfl⟩ : ∃ j, k = a + j := ⟨k - a, by omega⟩
    match j with
    | 0 => exact h.second
    | 1 => exact front_coUEV_of_retard h.retard
    | j + 2 => exact second_silence (hzero j (by omega))

/-- And if nothing is, the reset has found such a state: the counter has not
decreased, and it ends at 0. -/
theorem muet_de_silence (hr : 5 ≤ r) (hno : ∀ k, k < a + r → (cycle .fpga w k).second ≠ .one) :
    Muet (cycle .fpga w a) := by
  have he : (cycle .fpga w a).timerEnable = .one := timerEnable_neuf fun k hk => hno k (by omega)
  have l0 : (cycle .fpga w a).timer1hz.counterOverflowD.toNat ≤
      (cycle .fpga w a).timer1hz.compt1.toNat := retard_le (hno (a + 1) (by omega))
  have l1 : (cycle .fpga w a).timer1hz.compt1.toNat ≤
      (cycle .fpga w (a + 1)).timer1hz.compt1.toNat := retard_le (hno (a + 2) (by omega))
  have l2 : (cycle .fpga w (a + 1)).timer1hz.compt1.toNat ≤
      (cycle .fpga w (a + 2)).timer1hz.compt1.toNat := retard_le (hno (a + 3) (by omega))
  have l3 : (cycle .fpga w (a + 2)).timer1hz.compt1.toNat ≤
      (cycle .fpga w (a + 3)).timer1hz.compt1.toNat := retard_le (hno (a + 4) (by omega))
  have hz : (0 : BitVec 16).toNat = 0 := rfl
  rw [compt1_reset hreset le_rfl (by omega), hz] at l3
  have c0 : (cycle .fpga w a).timer1hz.compt1 = 0 := BitVec.eq_of_toNat_eq (by omega)
  have c1 : (cycle .fpga w (a + 1)).timer1hz.compt1 = 0 := BitVec.eq_of_toNat_eq (by omega)
  have c2 : (cycle .fpga w (a + 2)).timer1hz.compt1 = 0 := BitVec.eq_of_toNat_eq (by omega)
  exact
    { dataValid := (dataValid_zero_iff a).mpr ⟨rfl, fun k hk => hno k (by omega)⟩
      second := hno a (by omega)
      compt1 := c0
      retard := BitVec.eq_of_toNat_eq (by omega)
      impulsion := (compt1_reste (e := w a) c0).mp c1
      suivante := (impulsion_front (e := w a) he c0).mp ((compt1_reste (e := w (a + 1)) c1).mp c2) }

/-- `Muet` says exactly that nothing is published up to the end of the reset. -/
theorem muet_iff (hr : 5 ≤ r) : Muet (cycle u w a) ↔
    u = .fpga ∧ ∀ k, k < a + r → (cycle u w k).second ≠ .one := by
  constructor
  · exact fun h => ⟨((dataValid_zero_iff a).mp h.dataValid).1, fun k => h.silence hreset⟩
  · rintro ⟨rfl, hno⟩
    exact muet_de_silence hreset hr hno

end

/-! ## Two runs -/

/-- The two runs, after resets of `r` edges that find them in cycles `a` and
`b`, have the same outputs at every cycle, and `data_valid` is '0' in both until
they publish. -/
def Oubli (u v : PowerUp) (w x : ℕ → AnemometreEntrees) (a b r : ℕ) : Prop :=
  ∀ n, r ≤ n →
    (cycle u w (a + n)).dataValid = (cycle v x (b + n)).dataValid ∧
      (cycle u w (a + n)).dataAnemometre = (cycle v x (b + n)).dataAnemometre ∧
      ((∀ k, a + r ≤ k → k < a + n → (cycle u w k).second ≠ .one) →
        (cycle u w (a + n)).dataValid = .zero) ∧
      ((∀ k, b + r ≤ k → k < b + n → (cycle v x k).second ≠ .one) →
        (cycle v x (b + n)).dataValid = .zero)

section
variable {v : PowerUp} {x : ℕ → AnemometreEntrees} {a b r : ℕ}

/-- The same state and the same inputs: the same run. -/
theorem cycle_congr (hstate : cycle u w (a + r) = cycle v x (b + r))
    (hsame : ∀ k, w (a + k) = x (b + k)) {n : ℕ} (hn : r ≤ n) :
    cycle u w (a + n) = cycle v x (b + n) := by
  obtain ⟨d, rfl⟩ := Nat.exists_eq_add_of_le hn
  rw [← Nat.add_assoc, ← Nat.add_assoc]
  refine run_congr hstate d ?_
  intro k _
  rw [Nat.add_assoc, Nat.add_assoc, hsame]

/-- `data_valid` of a run that publishes neither before cycle `c` nor since. -/
theorem dataValid_depuis {c t : ℕ} (hc : ∀ k, k < c → (cycle .fpga w k).second ≠ .one)
    (hno : ∀ k, c ≤ k → k < t → (cycle .fpga w k).second ≠ .one) :
    (cycle .fpga w t).dataValid = .zero := by
  refine (dataValid_zero_iff _).mpr ⟨rfl, ?_⟩
  intro k hk
  by_cases hlt : k < c
  · exact hc k hlt
  · exact hno k (by omega) hk

/-- **The reset forgets the past** iff there is none to forget: two runs that
are reset for ten edges or more and get the same inputs from the beginning of the
reset on agree from its end on, with `data_valid` at '0' until they publish, iff
the reset finds both in a state with nothing published and nothing to publish. -/
theorem oubli_iff (hr : 10 ≤ r) (hreset : ∀ k, k < r → (w (a + k)).resetN = false)
    (hsame : ∀ k, w (a + k) = x (b + k)) :
    Oubli u v w x a b r ↔ Muet (cycle u w a) ∧ Muet (cycle v x b) := by
  have h5 : 5 ≤ r := by omega
  have hreset' : ∀ k, k < r → (x (b + k)).resetN = false := by
    intro k hk
    rw [← hsame]
    exact hreset k hk
  rw [muet_iff hreset h5, muet_iff hreset' h5]
  constructor
  · intro h
    obtain ⟨-, -, h1, h2⟩ := h r le_rfl
    exact ⟨(dataValid_zero_iff _).mp (h1 fun k hk hk' => absurd hk (by omega)),
      (dataValid_zero_iff _).mp (h2 fun k hk hk' => absurd hk (by omega))⟩
  · rintro ⟨⟨rfl, hu⟩, rfl, hv⟩
    obtain ⟨d, rfl⟩ : ∃ d, r = d + 5 := ⟨r - 5, by omega⟩
    have hw := initialise_apres_reset (a := a + d) (fun k hk => by
      rw [Nat.add_assoc]
      exact hreset (d + k) (by omega)) fun k hk => hu k (by omega)
    have hx := initialise_apres_reset (a := b + d) (fun k hk => by
      rw [Nat.add_assoc, ← hsame]
      exact hreset (d + k) (by omega)) fun k hk => hv k (by omega)
    have hstate : cycle .fpga w (a + (d + 5)) = cycle .fpga x (b + (d + 5)) := by
      rw [← Nat.add_assoc, ← Nat.add_assoc, hw, hx, Nat.add_assoc a, Nat.add_assoc a,
        Nat.add_assoc b, Nat.add_assoc b, hsame, hsame]
    intro n hn
    have hcycle := cycle_congr hstate hsame hn
    exact ⟨congrArg dataValid hcycle, congrArg dataAnemometre hcycle, dataValid_depuis hu,
      dataValid_depuis hv⟩

end

/-- In continuous mode with a silent sensor, `reset_n` is '0' for ten edges from
edge `a` on. -/
def resetEn (a : ℕ) : ℕ → AnemometreEntrees :=
  fun k => ⟨false, decide (k < a ∨ a + 10 ≤ k), true, false⟩

theorem resetEn_reset (a : ℕ) {k : ℕ} (hk : k < 10) : (resetEn a (a + k)).resetN = false := by
  simp only [resetEn, decide_eq_false_iff_not]
  omega

theorem resetEn_commun (a b k : ℕ) : resetEn a (a + k) = resetEn b (b + k) := by
  simp only [resetEn, AnemometreEntrees.mk.injEq, true_and, and_true, decide_eq_decide]
  omega

/-- Resets 8 and 9 cycles after power-on. -/
theorem oubli_iff_temoin :
    Oubli .fpga .fpga (resetEn 8) (resetEn 9) 8 9 10 ↔
      Muet (cycle .fpga (resetEn 8) 8) ∧ Muet (cycle .fpga (resetEn 9) 9) :=
  oubli_iff le_rfl (fun _ => resetEn_reset 8) (resetEn_commun 8 9)

/-- **A reset leaves `data_valid` at '1'**: one run is reset at power-on, the
other after its first publication. -/
theorem oubli_manque :
    (∀ k, k < 10 → (resetEn 0 (0 + k)).resetN = false) ∧
      (∀ k, resetEn 0 (0 + k) = resetEn 50000010 (50000010 + k)) ∧
      ¬ Oubli .fpga .fpga (resetEn 0) (resetEn 50000010) 0 50000010 10 := by
  refine ⟨fun _ => resetEn_reset 0, resetEn_commun 0 50000010, ?_⟩
  intro h
  have hfirst : (cycle .fpga (resetEn 50000010) 50000002).second = .one :=
    premiere_publication fun k hk => decide_eq_true (Or.inl (by omega))
  obtain ⟨-, -, -, h2⟩ := h 10 le_rfl
  have hzero := h2 fun k hk hk' => absurd hk' (Nat.not_lt.mpr hk)
  exact ((dataValid_zero_iff _).mp hzero).2 50000002 (by omega) hfirst

end Anemometre

end BarreFranche
