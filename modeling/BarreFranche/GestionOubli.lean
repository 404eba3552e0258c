/-
# `GestionOubli` — what a long reset forgets

`reset_n` clears `present_State`, the 1 s clock and the dimmer, and nothing
else.  The debounce timer, `timer_bip`, `Delay`, the sampled buttons and the
outputs go on as they were, so two boards with different pasts are in different
states when a reset ends.

They behave alike all the same, if the reset covers two ticks at which one and
the same button shows one level:

    the ticks        at the same cycles, if the debounce timers are in phase
    PB_*_d, BP_*     loaded at the first of the two ticks, and at the second
    the two clocks   cleared by four edges
    Delay            cleared in state 4, before the only states that read it
    timer_bip        at rest before every burst (`Pret`)
    the outputs      written by the first edge after the reset

The registers left over (`Delay` outside a press, `timer_bip` outside a burst,
`reset_Delay` and `bip_reset`) may differ for ever and are not seen.
`Jumeaux` says which ones agree, and every cycle keeps it.
-/
import BarreFranche.GestionBip

namespace BarreFranche.GestionBoutton

open Synchrone

/-- The outputs that leave the block. -/
structure MemesSorties (o o' : Sorties) : Prop where
  codeFonction : o.codeFonction = o'.codeFonction
  ledSTBY : o.ledSTBY = o'.ledSTBY
  ledTribord : o.ledTribord = o'.ledTribord
  ledBabord : o.ledBabord = o'.ledBabord
  outBip : o.outBip = o'.outBip

/-- Two blocks in the same state, up to what no transition reads and no output
shows before it is written. -/
structure Jumeaux (s t : GestionBoutton) : Prop where
  etat : s.presentState = t.presentState
  timer2hz : s.timer2hz = t.timer2hz
  timerPwm : s.timerPwm = t.timerPwm
  edgeDetector1 : s.edgeDetector1 = t.edgeDetector1
  pbD : s.pbD = t.pbD
  bp : s.bp = t.bp
  delay : ∀ b : Bord, s.presentState = b.appui → s.delay = t.delay
  salve : Salve s.presentState → ∃ k, k ≤ 50000003 ∧ Joue k s ∧ Joue k t

section
variable {s t : GestionBoutton} {q : Etat}

/-! ## One transition -/

theorem etatSuivant_congr (hbp : s.bp = t.bp) (hdelay : ∀ b : Bord, q = b.appui → s.delay = t.delay)
    (hbip : Salve q → (s.bipEnd = .one ↔ t.bipEnd = .one)) :
    s.etatSuivant q = t.etatSuivant q := by
  cases q with
  | e6 => simp only [etatSuivant, hbp, hdelay .babord rfl]
  | e7 => simp only [etatSuivant, hbp, hdelay .tribord rfl]
  | e8 | e9 | e10 | e11 => simp only [etatSuivant, hbip (by decide)]
  | e0 | e1 | e2 | e3 | e4 | e5 | e12 | e13 => simp only [etatSuivant, hbp]

/-- In a burst the beep follows the counter of `timer_bip`. -/
theorem affecte_congr (h2 : s.timer2hz = t.timer2hz) (hp : s.timerPwm = t.timerPwm)
    (hbip : Salve q → s.timerBip.compt1 = t.timerBip.compt1) :
    MemesSorties (s.affecte q) (t.affecte q) := by
  have hclk : s.clk500ms = t.clk500ms := by rw [clk500ms, h2]; rfl
  have hon : s.halfOn = t.halfOn := by rw [halfOn, hp]; rfl
  have hsimple : Salve q → s.bipSimple = t.bipSimple := fun hq => by
    simp only [bipSimple, Timer.pwmOutput, hbip hq]
  have hdouble : Salve q → s.bipDouble = t.bipDouble := fun hq => by
    rw [bipDouble, bipDouble, bipCounter, bipCounter, hbip hq]
  cases q with
  | e8 | e10 =>
      have hb := hdouble (by decide)
      constructor <;> simp only [affecte, hon, hb]
  | e9 | e11 =>
      have hb := hsimple (by decide)
      constructor <;> simp only [affecte, hon, hb]
  | e0 | e1 | e2 | e3 | e4 | e5 | e6 | e7 | e12 | e13 =>
      constructor <;> simp only [affecte, hclk, hon]

/-- The counter of `timer_bip` at cycle `k` of a burst. -/
theorem Joue.compt1_congr {k : ℕ} (hs : Joue k s) (ht : Joue k t) :
    s.timerBip.compt1 = t.timerBip.compt1 := by
  cases k with
  | zero => rw [(hs.debut rfl).1.compt1, (ht.debut rfl).1.compt1]
  | succ j =>
      refine BitVec.eq_of_toNat_eq ?_
      rw [(hs.tour j rfl).suit.compt1, (ht.tour j rfl).suit.compt1]

theorem Pret.compt1 {x : Timer 16} (h : Pret x) : x.compt1 = 0 := by
  rcases h with h | h
  · exact h.compt1
  · exact h.compt1

end

/-! ## One cycle of two runs -/

section
variable {u u' : PowerUp} {w w' : ℕ → GestionEntrees} {n m : ℕ}

/-- Two blocks that enter a burst, or go on with one, do so together. -/
theorem Jumeaux.salve_vers (h : Jumeaux (cycle u w n) (cycle u' w' m))
    (hs : Salve (cycle u w (n + 1)).presentState)
    (ht : Salve (cycle u' w' (m + 1)).presentState) :
    (∃ k, k + 1 ≤ 50000003 ∧ Joue k (cycle u w n) ∧ Joue k (cycle u' w' m)) ∨
      (((cycle u w n).sorties.bipReset = .zero ∧ Pret (cycle u w n).timerBip) ∧
        (cycle u' w' m).sorties.bipReset = .zero ∧ Pret (cycle u' w' m).timerBip) := by
  rcases GestionBoutton.salve_vers (bip_cycle n) hs with ⟨hq, hend, -⟩ | hpret
  · obtain ⟨k, hk, hjs, hjt⟩ := h.salve hq
    have hlt : k ≠ 50000003 := fun he => hend (hjs.bipEnd.mpr he)
    exact Or.inl ⟨k, by omega, hjs, hjt⟩
  · rcases GestionBoutton.salve_vers (bip_cycle m) ht with ⟨hq, -, -⟩ | hpret'
    · rw [← h.etat] at hq
      exact absurd ((bipReset_salve hq).symm.trans hpret.1) (by decide)
    · exact Or.inr ⟨hpret, hpret'⟩

variable (h : Jumeaux (cycle u w n) (cycle u' w' m)) (hw : w n = w' m)

include h hw

theorem Jumeaux.presentState :
    (cycle u w (n + 1)).presentState = (cycle u' w' (m + 1)).presentState := by
  have havant : etatAvant (w n) (cycle u w n) = etatAvant (w' m) (cycle u' w' m) := by
    rw [etatAvant, etatAvant, hw, h.etat]
  rw [cycle_succ, cycle_succ, etape_presentState, etape_presentState, ← havant, ← hw]
  refine ite_congr rfl (fun _ => rfl) fun _ => etatSuivant_congr h.bp ?_ ?_
  · intro b hb
    exact h.delay b (etatAvant_ne_e0 (arme_appui b).ne_e0 hb).1
  · intro hq
    obtain ⟨hq', -⟩ := etatAvant_ne_e0 hq.ne_e0 rfl
    obtain ⟨k, -, hs, ht⟩ := h.salve (hq'.symm ▸ hq)
    rw [hs.bipEnd, ht.bipEnd]

omit hw in
/-- `Delay` is 0 when a press is taken, and then counts the same pulses. -/
theorem Jumeaux.delay_succ {b : Bord} (hb : (cycle u w (n + 1)).presentState = b.appui) :
    (cycle u w (n + 1)).delay = (cycle u' w' (m + 1)).delay := by
  have hr : SansReset (w n) :=
    sansReset_of_haut (s := cycle u w n) (Or.inl (hb ▸ arme_appui b))
  have hv : (cycle u w n).etatSuivant (cycle u w n).presentState = b.appui := by
    rw [← etape_sansReset hr]
    exact hb
  have hclk : (cycle u w n).clkDetectedEdge = (cycle u' w' m).clkDetectedEdge := by
    rw [clkDetectedEdge, h.edgeDetector1]
    rfl
  rw [cycle_succ, cycle_succ, etape_delay, etape_delay, ← hclk]
  rcases vers_appui hv with hq | ⟨hq, -⟩
  · rw [resetDelay_appui hq, resetDelay_appui (h.etat ▸ hq), h.delay b hq]
  · rw [resetDelay_e4 hq, resetDelay_e4 (h.etat ▸ hq), compteur_clear rfl, compteur_clear rfl]

theorem Jumeaux.succ (htic : (cycle u w n).miliS = .one ↔ (cycle u' w' m).miliS = .one) :
    Jumeaux (cycle u w (n + 1)) (cycle u' w' (m + 1)) where
  etat := h.presentState hw
  timer2hz := by
    rw [cycle_succ, cycle_succ, etape_timer2hz, etape_timer2hz, hw, h.timer2hz]
  timerPwm := by
    rw [cycle_succ, cycle_succ, etape_timerPwm, etape_timerPwm, hw, h.timerPwm]
  edgeDetector1 := by
    rw [cycle_succ, cycle_succ, etape_edgeDetector1, etape_edgeDetector1, hw, h.edgeDetector1,
      clk500ms, h.timer2hz]
    rfl
  pbD := by
    rw [pbD_succ, pbD_succ, hw, h.pbD]
    exact ite_congr (propext htic) (fun _ => rfl) fun _ => rfl
  bp := by
    rw [bp_succ, bp_succ, hw, h.bp]
    refine ite_congr (propext (and_congr htic ?_)) (fun _ => rfl) fun _ => rfl
    rw [stable_iff, stable_iff, h.pbD]
  delay := fun b hb => h.delay_succ hb
  salve := by
    intro hs
    have ht : Salve (cycle u' w' (m + 1)).presentState := h.presentState hw ▸ hs
    rcases h.salve_vers hs ht with ⟨k, hk, hjs, hjt⟩ | ⟨⟨hb, hp⟩, hb', hp'⟩
    · exact ⟨k + 1, hk, hjs.etape (by omega) (bipReset_salve hs),
        hjt.etape (by omega) (bipReset_salve ht)⟩
    · exact ⟨0, Nat.zero_le _, salve_entree hb hp hs, salve_entree hb' hp' ht⟩

/-- An edge with `reset_n` at '1' writes the outputs, and the same ones. -/
theorem Jumeaux.sorties (hr : (w n).resetN = true) :
    MemesSorties (cycle u w (n + 1)).sorties (cycle u' w' (m + 1)).sorties := by
  have hq : (etape (w n) (cycle u w n)).presentState =
      (etape (w' m) (cycle u' w' m)).presentState := h.presentState hw
  rw [cycle_succ, cycle_succ, etape_sorties, etape_sorties, ← hw, hr, if_neg (by decide),
    if_neg (by decide), hw, ← hq, ← hw]
  refine affecte_congr h.timer2hz h.timerPwm fun hs => ?_
  have ht : Salve (cycle u' w' (m + 1)).presentState := h.presentState hw ▸ hs
  rcases h.salve_vers hs ht with ⟨k, -, hjs, hjt⟩ | ⟨⟨-, hp⟩, -, hp'⟩
  · exact hjs.compt1_congr hjt
  · rw [hp.compt1, hp'.compt1]

end

/-! ## The reset -/

section
variable {u : PowerUp} {w : ℕ → GestionEntrees} {a r : ℕ}
  (hreset : ∀ n, n < r → (w (a + n)).resetN = false)

include hreset

/-- Four edges with `reset_n` at '0' clear a timer that follows it. -/
theorem efface_suiveur {p : Bool → TimerPorts 16} {f : GestionBoutton → Timer 16}
    (hp : ∀ x, (p x).reset = internalReset x)
    (hf : ∀ e s, f (etape e s) = Timer.front (p e.resetN) (f s)) {n : ℕ} (h4 : 4 ≤ n)
    (hn : n ≤ r) : f (cycle u w (a + n)) =
      { div := 0, compt1 := 0, counterOverflowD := 0, coUEV := .zero,
        srstCompt1 := .one, resetDiv := .one } := by
  obtain ⟨m, rfl⟩ : ∃ m, n = m + 4 := ⟨n - 4, by omega⟩
  have hone : ∀ k, k < r → (p (w (a + k)).resetN).reset = .one := by
    intro k hk
    rw [hp, hreset k hk]
    rfl
  have hsucc : ∀ k, f (cycle u w (a + (k + 1))) =
      Timer.front (p (w (a + k)).resetN) (f (cycle u w (a + k))) := fun k => hf _ _
  rw [hsucc, hsucc, hsucc, hsucc]
  exact efface_quatre (hone _ (by omega)) (hone _ (by omega)) (hone _ (by omega))
    (hone _ (by omega))

/-- And the detector behind the 1 s clock holds the level of a cleared timer. -/
theorem efface_detecteur {n : ℕ} (h5 : 5 ≤ n) (hn : n ≤ r) :
    (cycle u w (a + n)).edgeDetector1 = ⟨.one, .zero⟩ := by
  obtain ⟨m, rfl⟩ : ∃ m, n = m + 1 := ⟨n - 1, by omega⟩
  have h2 := efface_suiveur (u := u) hreset (p := ports2hz) (f := timer2hz) (fun _ => rfl)
    etape_timer2hz (n := m) (by omega) (by omega)
  rw [← Nat.add_assoc, cycle_succ, etape_edgeDetector1, hreset m (by omega), clk500ms, h2]
  rfl

end

/-! ## Two runs in phase -/

section
variable {u v : PowerUp} {w x : ℕ → GestionEntrees} {a b : ℕ}

theorem tic_iff {n : ℕ} (hn : 2 < n) : (cycle u w n).miliS = .one ↔ n % 501000 = 2 := by
  rw [miliS_iff]
  constructor
  · rintro ⟨k, -, rfl⟩
    unfold tic
    omega
  · intro h
    exact ⟨n / 501000, by omega, by unfold tic; omega⟩

variable (ha : 2 < a) (hb : 2 < b) (hphase : a % 501000 = b % 501000)
  (hmeme : ∀ n, w (a + n) = x (b + n))

include ha hb hphase in
theorem tics_ensemble (n : ℕ) :
    (cycle u w (a + n)).miliS = .one ↔ (cycle v x (b + n)).miliS = .one := by
  rw [tic_iff (by omega), tic_iff (by omega), Nat.add_mod, hphase, ← Nat.add_mod]

include ha hb hphase hmeme

theorem pbD_ensemble {n : ℕ} (h : (cycle u w (a + n)).miliS = .one ∨
    (cycle u w (a + n)).pbD = (cycle v x (b + n)).pbD) :
    (cycle u w (a + (n + 1))).pbD = (cycle v x (b + (n + 1))).pbD := by
  have htic := tics_ensemble (u := u) (v := v) (w := w) (x := x) ha hb hphase n
  rw [← Nat.add_assoc, ← Nat.add_assoc, pbD_succ, pbD_succ, hmeme n]
  refine ite_congr (propext htic) (fun _ => rfl) fun hno => ?_
  exact h.resolve_left fun h1 => hno (htic.mp h1)

theorem bp_ensemble {n : ℕ} (hd : (cycle u w (a + n)).pbD = (cycle v x (b + n)).pbD)
    (h : ((cycle u w (a + n)).miliS = .one ∧ Stable (w (a + n)).pb (cycle u w (a + n))) ∨
      (cycle u w (a + n)).bp = (cycle v x (b + n)).bp) :
    (cycle u w (a + (n + 1))).bp = (cycle v x (b + (n + 1))).bp := by
  have hst : (cycle u w (a + n)).miliS = .one ∧ Stable (w (a + n)).pb (cycle u w (a + n)) ↔
      (cycle v x (b + n)).miliS = .one ∧ Stable (x (b + n)).pb (cycle v x (b + n)) := by
    refine and_congr (tics_ensemble ha hb hphase n) ?_
    rw [stable_iff, stable_iff, hd, hmeme n]
  rw [← Nat.add_assoc, ← Nat.add_assoc, bp_succ, bp_succ]
  refine ite_congr (propext hst) (fun _ => by rw [hmeme n]) fun hno => ?_
  exact h.resolve_left fun h1 => hno (hst.mp h1)

variable {r : ℕ} (hreset : ∀ n, n < r → (w (a + n)).resetN = false)
  (hcalme : ∃ k c, k + 501000 < r ∧ (a + k) % 501000 = 2 ∧
    (w (a + k)).pb.get c = (w (a + k + 501000)).pb.get c)

/-- From the first of the two ticks on `PB_*_d` agree, and after the second `BP_*`
do as well. -/
theorem boutons_ensemble {k : ℕ} {c : Bouton} (hk : (a + k) % 501000 = 2)
    (hc : (w (a + k)).pb.get c = (w (a + k + 501000)).pb.get c) {n : ℕ} (hn : k + 501000 < n) :
    (cycle u w (a + n)).pbD = (cycle v x (b + n)).pbD ∧
      (cycle u w (a + n)).bp = (cycle v x (b + n)).bp := by
  have htic : ∀ i, (a + i) % 501000 = 2 → (cycle u w (a + i)).miliS = .one :=
    fun i hi => (tic_iff (by omega)).mpr hi
  have hd : ∀ i, k < i → (cycle u w (a + i)).pbD = (cycle v x (b + i)).pbD := by
    intro i hi
    induction i, hi using Nat.le_induction with
    | base => exact pbD_ensemble ha hb hphase hmeme (Or.inl (htic k hk))
    | succ i hi ih => exact pbD_ensemble ha hb hphase hmeme (Or.inr ih)
  refine ⟨hd n (by omega), ?_⟩
  induction n, hn using Nat.le_induction with
  | base =>
      have hstable : Stable (w (a + (k + 501000))).pb (cycle u w (a + (k + 501000))) := by
        obtain ⟨j, hj⟩ : ∃ j, a + k = tic j := ⟨(a + k) / 501000, by unfold tic; omega⟩
        have hj1 : tic j < a + (k + 501000) ∧ a + (k + 501000) ≤ tic (j + 1) := by
          unfold tic at hj ⊢
          omega
        refine stable_iff.mpr ⟨c, ?_⟩
        have hj0 : 1 ≤ j := by
          unfold tic at hj
          omega
        rw [pbD_tic hj0 hj1.1 hj1.2, Boutons.get_niveaux, ← hj, hc, Nat.add_assoc]
      exact bp_ensemble ha hb hphase hmeme (hd _ (by omega))
        (Or.inl ⟨htic _ (by omega), hstable⟩)
  | succ n hn ih => exact bp_ensemble ha hb hphase hmeme (hd n (by omega)) (Or.inr ih)

include hreset hcalme

theorem jumeaux_reset : Jumeaux (cycle u w (a + r)) (cycle v x (b + r)) := by
  obtain ⟨k, c, hk, htic, hc⟩ := hcalme
  have hreset' : ∀ n, n < r → (x (b + n)).resetN = false := fun n hn => hmeme n ▸ hreset n hn
  obtain ⟨m, rfl⟩ : ∃ m, r = m + 1 := ⟨r - 1, by omega⟩
  have hs : (cycle u w (a + (m + 1))).presentState = .e0 := by
    rw [← Nat.add_assoc, cycle_succ, etape_presentState, if_pos (hreset m (Nat.lt_succ_self m))]
  have ht : (cycle v x (b + (m + 1))).presentState = .e0 := by
    rw [← Nat.add_assoc, cycle_succ, etape_presentState, if_pos (hreset' m (Nat.lt_succ_self m))]
  obtain ⟨hd, hbp⟩ := boutons_ensemble (u := u) (v := v) ha hb hphase hmeme htic hc hk
  refine ⟨hs.trans ht.symm, ?_, ?_, ?_, hd, hbp, ?_, ?_⟩
  · rw [efface_suiveur hreset (p := ports2hz) (fun _ => rfl) etape_timer2hz (by omega) le_rfl,
      efface_suiveur hreset' (p := ports2hz) (fun _ => rfl) etape_timer2hz (by omega) le_rfl]
  · rw [efface_suiveur hreset (p := portsPwm) (fun _ => rfl) etape_timerPwm (by omega) le_rfl,
      efface_suiveur hreset' (p := portsPwm) (fun _ => rfl) etape_timerPwm (by omega) le_rfl]
  · rw [efface_detecteur hreset (by omega) le_rfl, efface_detecteur hreset' (by omega) le_rfl]
  · intro b' hb'
    exact absurd (hs.symm.trans hb') (arme_appui b').ne_e0.symm
  · intro hq
    exact absurd hs hq.ne_e0

/-- From the end of the reset on the two boards stay twins. -/
theorem jumeaux_run {n : ℕ} (hn : r ≤ n) : Jumeaux (cycle u w (a + n)) (cycle v x (b + n)) := by
  induction n, hn using Nat.le_induction with
  | base => exact jumeaux_reset ha hb hphase hmeme hreset hcalme
  | succ n hn ih => exact ih.succ (hmeme n) (tics_ensemble ha hb hphase n)

/-- **A long reset forgets.**  Two boards with any pasts, whose debounce timers
are in phase and whose pins agree from the start of a reset on: if one button
shows one level at two consecutive ticks within the reset, they are in the same
state at every cycle from its end on, and show the same outputs from the first
edge on that samples `reset_n` at '1'. -/
theorem oubli_apres_reset {n : ℕ} (hn : r ≤ n) :
    (cycle u w (a + n)).presentState = (cycle v x (b + n)).presentState ∧
      ((∃ k, r ≤ k ∧ k < n ∧ (w (a + k)).resetN = true) →
        MemesSorties (cycle u w (a + n)).sorties (cycle v x (b + n)).sorties) := by
  refine ⟨(jumeaux_run ha hb hphase hmeme hreset hcalme hn).etat, ?_⟩
  induction n, hn using Nat.le_induction with
  | base =>
      rintro ⟨k, hk, hkr, -⟩
      exact absurd hk (Nat.not_le.mpr hkr)
  | succ n hn ih =>
      rintro ⟨k, hk, hkn, hone⟩
      have hj := jumeaux_run (u := u) (v := v) ha hb hphase hmeme hreset hcalme hn
      cases hr : (w (a + n)).resetN with
      | true => exact hj.sorties (hmeme n) hr
      | false =>
          have hlt : k ≠ n := fun he => Bool.false_ne_true (hr.symm.trans (he ▸ hone))
          have h := ih ⟨k, hk, by omega, hone⟩
          have hr' : (x (b + n)).resetN = false := hmeme n ▸ hr
          rw [← Nat.add_assoc, ← Nat.add_assoc, cycle_succ, cycle_succ, etape_sorties,
            etape_sorties, if_pos hr, if_pos hr']
          exact h

end

/-- The buttons released, `reset_n` at '0' for `d` cycles from cycle `a` on. -/
def coupure (a d : ℕ) : ℕ → GestionEntrees :=
  fun n => ⟨[], decide (n < a ∨ a + d ≤ n), ⟨true, true, true⟩⟩

/-- A reset right after power-on and one of the same length 501,000 cycles
later, of a simulated and of a configured block. -/
theorem oubli_apres_reset_temoin :
    MemesSorties (cycle .simulation (coupure 3 1002000) (3 + 1002001)).sorties
      (cycle .fpga (coupure 501003 1002000) (501003 + 1002001)).sorties := by
  refine (oubli_apres_reset (r := 1002000) (by omega) (by omega) (by omega) ?_ ?_ ?_
    (by omega)).2 ?_
  · intro n
    refine congrArg (fun x => GestionEntrees.mk [] x ⟨true, true, true⟩) (decide_eq_decide.mpr ?_)
    omega
  · intro n hn
    simp only [coupure, decide_eq_false_iff_not]
    omega
  · exact ⟨500999, .stby, by omega, by omega, rfl⟩
  · exact ⟨1002000, le_rfl, by omega, by simp [coupure]⟩

end BarreFranche.GestionBoutton
