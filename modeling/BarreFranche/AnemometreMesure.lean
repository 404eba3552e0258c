/-
# `AnemometreMesure` — the published count

What the edge counter holds when it is published, in the two modes.

* Continuous mode: the next publication comes exactly `M + 5` cycles after the
  last, and its value misses at most the edges detected in the two cycles of
  the hand-over (`seconde_continue`).
* Single-shot mode: the counter is cleared after a publication and not when
  the next acquisition starts, so the edges that arrive while the timer is
  stopped are counted too.  The value is the number of edges of the
  acquisition, modulo 256, iff the edges of the pause are a multiple of 256
  (`mesure_monocoup_iff`).

Last, the outputs: they are as they powered up until the first publication, and
then as the last one left them (`sorties_publiees`).  So nothing clears
`data_valid` (`dataValid_iff`).
-/
import BarreFranche.AnemometreArret
import BarreFranche.Synchrone.Pulse

namespace BarreFranche.Anemometre

open Synchrone

variable {u : PowerUp} {w : ℕ → AnemometreEntrees}

/-- The number of cycles of `[a, b)` at which `rising_edge_detected` is '1'. -/
def detections (u : PowerUp) (w : ℕ → AnemometreEntrees) (a b : ℕ) : ℕ :=
  pulses (fun k => (cycle u w k).risingEdgeDetected = .one) a b

/-- Detected edges are the rising edges of the waveform, one cycle late. -/
theorem detections_eq {a b : ℕ} (hab : a ≤ b) :
    detections u w (a + 1) (b + 1) = pulses (fun k => frontMontant w k = true) a b :=
  pulses_shift hab fun k _ _ => risingEdgeDetected_iff k

/-- While `internal_reset` is not '1' the counter adds the detected edges. -/
theorem counter_run {a b : ℕ} (hab : a ≤ b)
    (hr : ∀ k, a ≤ k → k < b → (cycle u w k).internalReset ≠ .one) :
    (cycle u w b).counter =
      (cycle u w a).counter + BitVec.ofNat 8 (detections u w a b) := by
  refine counter_eq (c := fun k => (cycle u w k).counter) hab ?_
  intro k hak hkb
  rw [cycle_succ, front_counter, compteur_one, if_neg (hr k hak hkb)]

/-- The value published at `p` when the counter was cleared by the publication
at `q` and not since. -/
theorem publie_eq {q p : ℕ} (hq : (cycle u w (q + 1)).internalReset = .one)
    (hqp : q + 2 ≤ p) (hr : ∀ k, q + 2 ≤ k → k < p → (cycle u w k).internalReset ≠ .one)
    (hp : (cycle u w p).second = .one) :
    (cycle u w (p + 1)).dataAnemometre.toNat = detections u w (q + 2) p % 256 := by
  have hclear : (cycle u w (q + 2)).counter = 0 := by
    rw [cycle_succ, front_counter, compteur_clear hq]
  rw [cycle_succ, front_dataAnemometre, if_pos hp, counter_run hqp hr, hclear]
  simp

/-! ## Continuous mode -/

section
variable {b t : ℕ} (hbt : b < t)
  (hrun : ∀ k, b ≤ k → (w k).continu = true ∧ (w k).resetN = true)
  (hsec : (cycle u w t).second = .one)

include hbt hrun hsec

/-- After a publication in continuous mode a window runs from rest. -/
theorem continu_fenetre {j : ℕ} (hj : j ≤ 50000002) :
    Fenetre j (cycle u w (t + 3 + j)) := by
  obtain ⟨h3, -⟩ := reprise hsec (hrun (t + 1) (by omega)).2 (hrun (t + 2) (by omega)).2
  have he : (cycle u w (t + 3)).timerEnable = .one :=
    (front_timerEnable _ _).mpr (Or.inl (Or.inl (hrun (t + 2) (by omega)).1))
  have h := fenetre_run (h3.fenetre he) (d := j) (by omega)
    (fun k _ => (hrun (t + 3 + k) (by omega)).2)
  rwa [Nat.zero_add] at h

theorem continu_silence {k : ℕ} (hk : t < k) (hk' : k < t + 50000005) :
    (cycle u w k).second ≠ .one := by
  by_cases hlt : k < t + 3
  · exact reprise_silence hsec (hrun (t + 1) (by omega)).2 (hrun (t + 2) (by omega)).2 hk hlt
  · obtain ⟨j, rfl⟩ : ∃ j, k = t + 3 + j := ⟨k - (t + 3), by omega⟩
    have h := continu_fenetre hbt hrun hsec (j := j) (by omega)
    exact fun hs => absurd (h.second.mp hs) (by omega)

theorem continu_sansReset {k : ℕ} (hk : t + 2 ≤ k) (hk' : k < t + 50000005) :
    (cycle u w k).internalReset ≠ .one := by
  by_cases hlt : k < t + 3
  · obtain ⟨-, -, -, -, h2⟩ :=
      reprise hsec (hrun (t + 1) (by omega)).2 (hrun (t + 2) (by omega)).2
    obtain rfl : k = t + 2 := by omega
    exact h2
  · obtain ⟨j, rfl⟩ : ∃ j, k = t + 3 + j := ⟨k - (t + 3), by omega⟩
    exact (continu_fenetre hbt hrun hsec (j := j) (by omega)).reset

theorem continu_publie : (cycle u w (t + 50000005)).second = .one := by
  have hend : t + 3 + 50000002 = t + 50000005 := by omega
  rw [← hend]
  exact (continu_fenetre hbt hrun hsec le_rfl).second.mpr rfl

variable (hsp : ∀ x y, x < y → frontMontant w x = true → frontMontant w y = true →
  x + 200000 ≤ y)

include hsp

omit hrun hsec in
/-- Detected edges inherit the spacing of the waveform. -/
theorem detections_ecart {x y : ℕ} (hx : t ≤ x) (hxy : x < y)
    (h1 : (cycle u w x).risingEdgeDetected = .one)
    (h2 : (cycle u w y).risingEdgeDetected = .one) : x + 200000 ≤ y := by
  obtain ⟨x, rfl⟩ : ∃ z, x = z + 1 := ⟨x - 1, by omega⟩
  obtain ⟨y, rfl⟩ : ∃ z, y = z + 1 := ⟨y - 1, by omega⟩
  have := hsp x y (by omega) ((risingEdgeDetected_iff x).mp h1)
    ((risingEdgeDetected_iff y).mp h2)
  omega

omit hrun hsec in
theorem continu_detections : detections u w (t + 2) (t + 50000005) ≤ 251 :=
  pulses_spaced (d := 200000) (by omega)
    (fun _ _ hx hxy _ => detections_ecart hbt hsp (by omega) hxy) (by omega)

/-- The published value is the number of edges detected since the counter was
cleared, two cycles after the publication before. -/
theorem continu_valeur : (cycle u w (t + 50000006)).dataAnemometre.toNat =
    detections u w (t + 2) (t + 50000005) := by
  have hnext : t + 50000006 = t + 50000005 + 1 := by omega
  have hclear := (reprise hsec (hrun (t + 1) (by omega)).2 (hrun (t + 2) (by omega)).2).2.2.2.1
  have hmax := continu_detections (u := u) hbt hsp
  rw [hnext, publie_eq hclear (by omega) (fun k => continu_sansReset hbt hrun hsec)
    (continu_publie hbt hrun hsec), Nat.mod_eq_of_lt (by omega)]

/-- **Continuous mode.**  From a publication at `t` with `continu` and `reset_n`
held since before it, and sampled rising edges at least 200,000 cycles apart:
the next publication is at `t + 50,000,005`, its value is the number of edges
detected since the counter was cleared, not wrapped, and it misses at most one
of the edges detected since `t`. -/
theorem seconde_continue :
    (cycle u w (t + 50000005)).second = .one ∧
      (∀ k, t < k → k < t + 50000005 → (cycle u w k).second ≠ .one) ∧
      (cycle u w (t + 50000006)).dataAnemometre.toNat =
        detections u w (t + 2) (t + 50000005) ∧
      (cycle u w (t + 50000006)).dataAnemometre.toNat ≤ 251 ∧
      (cycle u w (t + 50000006)).dataAnemometre.toNat ≤
        detections u w t (t + 50000005) ∧
      detections u w t (t + 50000005) ≤
        (cycle u w (t + 50000006)).dataAnemometre.toNat + 1 := by
  have hval := continu_valeur hbt hrun hsec hsp
  have hmax := continu_detections (u := u) hbt hsp
  have hlost : detections u w t (t + 2) ≤ 1 :=
    pulses_spaced (d := 200000) (by omega)
      (fun _ _ hx hxy _ => detections_ecart hbt hsp hx hxy) (by omega)
  have hsplit : detections u w t (t + 50000005) =
      detections u w t (t + 2) + detections u w (t + 2) (t + 50000005) :=
    pulses_add (by omega) (by omega)
  refine ⟨continu_publie hbt hrun hsec, fun k => continu_silence hbt hrun hsec, hval, ?_, ?_, ?_⟩
  all_goals
    rw [hval]
    omega

end

/-- Continuous mode from power-on, with a sensor that rises at the edges `a` and `b`. -/
def deuxFronts (a b : ℕ) : ℕ → AnemometreEntrees :=
  fun k => ⟨decide (a ≤ k ∧ k < a + 100000 ∨ b ≤ k), true, true, false⟩

theorem frontMontant_deuxFronts {a b : ℕ} (hab : a + 200000 ≤ b) (k : ℕ) :
    frontMontant (deuxFronts a b) k = true ↔ k = a ∨ k = b := by
  cases k with
  | zero =>
      simp only [frontMontant, deuxFronts, decide_eq_true_eq]
      omega
  | succ k =>
      simp only [frontMontant, deuxFronts, Bool.and_eq_true, Bool.not_eq_true', decide_eq_true_eq,
        decide_eq_false_iff_not]
      omega

theorem deuxFronts_espaces {a b x y : ℕ} (hab : a + 200000 ≤ b) (hxy : x < y)
    (hx : frontMontant (deuxFronts a b) x = true) (hy : frontMontant (deuxFronts a b) y = true) :
    x + 200000 ≤ y := by
  rw [frontMontant_deuxFronts hab] at hx hy
  omega

/-- An edge that falls into the hand-over, and one that does not: the first is
missed. -/
theorem seconde_continue_temoin :
    (cycle .simulation (deuxFronts 50000001 60000000) (50000002 + 50000005)).second = .one ∧
      (cycle .simulation (deuxFronts 50000001 60000000)
        (50000002 + 50000006)).dataAnemometre.toNat = 1 ∧
      1 ≤ detections .simulation (deuxFronts 50000001 60000000) 50000002 50000003 ∧
      detections .simulation (deuxFronts 50000001 60000000) 50000002 (50000002 + 50000005) ≤
        (cycle .simulation (deuxFronts 50000001 60000000)
          (50000002 + 50000006)).dataAnemometre.toNat + 1 := by
  have hfront := frontMontant_deuxFronts (a := 50000001) (b := 60000000) (by decide)
  obtain ⟨hsec, -, hval, -, -, hle⟩ := seconde_continue (u := .simulation)
    (w := deuxFronts 50000001 60000000) (b := 0) (t := 50000002) (by omega)
    (fun _ _ => ⟨rfl, rfl⟩) (premiere_publication fun _ _ => rfl)
    (fun x y hxy => deuxFronts_espaces (by decide) hxy)
  refine ⟨hsec, ?_, ?_, hle⟩
  · rw [hval, show 50000002 + 2 = 50000003 + 1 by omega,
      show 50000002 + 50000005 = 100000006 + 1 by omega, detections_eq (by omega)]
    refine pulses_eq_one (c := 60000000) (by omega) (by omega)
      ((hfront _).mpr (Or.inr rfl)) ?_
    intro k hk _ hf
    have := (hfront k).mp hf
    omega
  · rw [show 50000002 = 50000001 + 1 by omega, show 50000003 = 50000002 + 1 by omega,
      detections_eq (by omega)]
    exact pulses_pos (u := 50000001) le_rfl (by omega) ((hfront _).mpr (Or.inl rfl))

/-! ## Single-shot mode -/

section
variable (hr : ∀ k, (w k).resetN = true)

include hr

/-- While the timer is stopped it stays at rest. -/
theorem pause_repos {q f : ℕ} (hsec : (cycle u w q).second = .one)
    (hidle : ∀ k, q < k → k ≤ f → (cycle u w k).timerEnable = .zero) {k : ℕ}
    (hk : q + 3 ≤ k) (hkf : k ≤ f + 1) : Repos (cycle u w k) := by
  obtain ⟨h3, -⟩ := reprise hsec (hr _) (hr _)
  have h := repos_run h3 (d := k - (q + 3)) (fun j hj => by
    refine ⟨hr _, ?_⟩
    rw [hidle (q + 3 + j) (by omega) (by omega)]
    decide)
  rwa [show q + 3 + (k - (q + 3)) = k by omega] at h

/-- From the publication that stopped the timer to the next one, the counter is
cleared once, right after the former. -/
theorem pause_sansReset {q f p : ℕ} (hsec : (cycle u w q).second = .one)
    (hidle : ∀ k, q < k → k ≤ f → (cycle u w k).timerEnable = .zero)
    (hsilence : ∀ k, f < k → k < p → (cycle u w k).second ≠ .one) {k : ℕ}
    (hk : q + 2 ≤ k) (hkp : k < p) : (cycle u w k).internalReset ≠ .one := by
  obtain ⟨k, rfl⟩ : ∃ j, k = j + 1 := ⟨k - 1, by omega⟩
  have hs : (cycle u w k).second ≠ .one := by
    by_cases hkf : k ≤ f + 1
    · exact (eteint_run hsec hidle (by omega) hkf).2
    · exact hsilence k (by omega) (by omega)
  rw [cycle_succ, Ne, front_internalReset]
  simp [hs, hr k]

/-- The value published after a pause: the edges of the pause and those of the
acquisition. -/
theorem mesure_monocoup {q f p : ℕ} (hqf : q < f) (hsec : (cycle u w q).second = .one)
    (hidle : ∀ k, q < k → k ≤ f → (cycle u w k).timerEnable = .zero)
    (hfp : f < p) (hp : (cycle u w p).second = .one)
    (hsilence : ∀ k, f < k → k < p → (cycle u w k).second ≠ .one) :
    (cycle u w (p + 1)).dataAnemometre.toNat =
      (pulses (fun k => frontMontant w k = true) (q + 1) f +
        detections u w (f + 1) p) % 256 := by
  have hclear := (reprise hsec (hr _) (hr _)).2.2.2.1
  have hval := publie_eq hclear (by omega)
    (fun k => pause_sansReset hr hsec hidle hsilence) hp
  have hsplit : detections u w (q + 2) p =
      detections u w (q + 2) (f + 1) + detections u w (f + 1) p :=
    pulses_add (by omega) (by omega)
  rw [hval, hsplit, detections_eq (by omega)]

theorem mesure_fausse {q f p : ℕ} (hqf : q < f) (hsec : (cycle u w q).second = .one)
    (hidle : ∀ k, q < k → k ≤ f → (cycle u w k).timerEnable = .zero)
    (hfp : f < p) (hp : (cycle u w p).second = .one)
    (hsilence : ∀ k, f < k → k < p → (cycle u w k).second ≠ .one)
    (hone : pulses (fun k => frontMontant w k = true) (q + 1) f = 1) :
    (cycle u w (p + 1)).dataAnemometre.toNat ≠ detections u w (f + 1) p % 256 := by
  rw [mesure_monocoup hr hqf hsec hidle hfp hp hsilence, hone]
  omega

/-- **Single-shot mode.**  Edge `f` starts the timer again, `p` is the next
publication, and `q` is the publication that had stopped the timer.  The
published value is the number of edges detected from the start on, modulo 256,
iff the rising edges of the sensor sampled during the pause are a multiple of
256. -/
theorem mesure_monocoup_iff (hc : ∀ k, (w k).continu = false) {f p : ℕ}
    (hf : (cycle u w f).timerEnable = .zero)
    (hf1 : (cycle u w (f + 1)).timerEnable = .one) (hfp : f < p)
    (hp : (cycle u w p).second = .one)
    (hsilence : ∀ k, f < k → k < p → (cycle u w k).second ≠ .one) :
    (w f).startStop = true ∧
    ∃ q, q < f ∧ (cycle u w q).second = .one ∧
      (∀ k, q < k → k ≤ f → (cycle u w k).timerEnable = .zero) ∧
      ((cycle u w (p + 1)).dataAnemometre.toNat = detections u w (f + 1) p % 256 ↔
        pulses (fun k => frontMontant w k = true) (q + 1) f % 256 = 0) := by
  obtain ⟨q, hqf, hsec, hidle⟩ := arret_publication hf
  have hval := mesure_monocoup hr hqf hsec hidle hfp hp hsilence
  refine ⟨?_, q, hqf, hsec, hidle, ?_⟩
  · rw [cycle_succ, front_timerEnable, hc f, hf] at hf1
    simpa using hf1
  · rw [hval]
    omega

/-- A request at `f`, after a pause that began at the publication `q`, is
answered by a publication `M + 3` cycles later and by none before. -/
theorem monocoup_publie (hc : ∀ k, (w k).continu = false) {q f : ℕ} (hqf : q + 2 ≤ f)
    (hsec : (cycle u w q).second = .one)
    (hoff : ∀ k, q ≤ k → k < f → (w k).startStop = false)
    (hon : (w f).startStop = true) :
    (∀ k, q < k → k ≤ f → (cycle u w k).timerEnable = .zero) ∧
      (cycle u w (f + 1)).timerEnable = .one ∧
      (cycle u w (f + 1 + 50000002)).second = .one ∧
      ∀ k, f < k → k < f + 1 + 50000002 → (cycle u w k).second ≠ .one := by
  have hidle : ∀ k, q < k → k ≤ f → (cycle u w k).timerEnable = .zero := by
    intro k hk
    exact arret_apres hsec (fun i hi hi' => ⟨hc i, hoff i hi hi'⟩) hk
  have hstart : (cycle u w (f + 1)).timerEnable = .one :=
    (front_timerEnable _ _).mpr (Or.inl (Or.inr hon))
  have h0 : Fenetre 0 (cycle u w (f + 1)) :=
    (pause_repos hr hsec hidle (by omega) le_rfl).fenetre hstart
  obtain ⟨hpub, hno⟩ := fenetre_publie h0 (fun k _ => hr (f + 1 + k))
  exact ⟨hidle, hstart, hpub, hno⟩

end

/-- One request, 8 cycles after the first publication; `g` is the sensor. -/
def monocoup (g : ℕ → Bool) : ℕ → AnemometreEntrees :=
  fun k => ⟨g k, true, false, decide (k = 50000010)⟩

theorem monocoup_publie_deux {g : ℕ → Bool} (hg : w = monocoup g) :
    (cycle u w 50000002).second = .one ∧
      (∀ k, 50000002 < k → k ≤ 50000010 → (cycle u w k).timerEnable = .zero) ∧
      (cycle u w 50000011).timerEnable = .one ∧
      (cycle u w 100000013).second = .one ∧
      ∀ k, 50000010 < k → k < 100000013 → (cycle u w k).second ≠ .one := by
  subst hg
  have hfirst : (cycle u (monocoup g) 50000002).second = .one :=
    premiere_publication fun _ _ => rfl
  refine ⟨hfirst, ?_⟩
  refine monocoup_publie (u := u) (w := monocoup g) (fun _ => rfl) (fun _ => rfl)
    (q := 50000002) (f := 50000010) (by omega) hfirst (fun k _ hk => ?_) (by simp [monocoup])
  have : k ≠ 50000010 := by omega
  simpa [monocoup] using this

/-- A sensor that never rises. -/
def silencieux : ℕ → AnemometreEntrees := monocoup fun _ => false

theorem mesure_monocoup_iff_temoin :
    (silencieux 50000010).startStop = true ∧
    ∃ q, q < 50000010 ∧ (cycle .fpga silencieux q).second = .one ∧
      (∀ k, q < k → k ≤ 50000010 → (cycle .fpga silencieux k).timerEnable = .zero) ∧
      ((cycle .fpga silencieux (100000013 + 1)).dataAnemometre.toNat =
          detections .fpga silencieux (50000010 + 1) 100000013 % 256 ↔
        pulses (fun k => frontMontant silencieux k = true) (q + 1) 50000010 % 256 = 0) := by
  obtain ⟨-, hidle, hstart, hp, hsilence⟩ := monocoup_publie_deux (u := .fpga) (w := silencieux) rfl
  exact mesure_monocoup_iff (fun _ => rfl) (fun _ => rfl) (hidle 50000010 (by omega) le_rfl)
    hstart (by omega) hp hsilence

/-- A sensor that rises once, 4 cycles after the timer was stopped. -/
def tardif : ℕ → AnemometreEntrees := monocoup fun k => decide (50000006 ≤ k)

theorem frontMontant_tardif (k : ℕ) : frontMontant tardif k = true ↔ k = 50000006 := by
  cases k with
  | zero => simp [frontMontant, tardif, monocoup]
  | succ k =>
      simp only [frontMontant, tardif, monocoup, Bool.and_eq_true, Bool.not_eq_true',
        decide_eq_true_eq, decide_eq_false_iff_not]
      omega

/-- **An edge of the pause is published**: the sensor rises once, while the
timer is stopped, and the next acquisition reports one edge too many. -/
theorem mesure_monocoup_faussee :
    (∀ k, (tardif k).continu = false ∧ (tardif k).resetN = true) ∧
      (cycle .fpga tardif 50000010).timerEnable = .zero ∧
      (cycle .fpga tardif (50000010 + 1)).timerEnable = .one ∧
      (cycle .fpga tardif 100000013).second = .one ∧
      (∀ k, 50000010 < k → k < 100000013 → (cycle .fpga tardif k).second ≠ .one) ∧
      (cycle .fpga tardif (100000013 + 1)).dataAnemometre.toNat ≠
        detections .fpga tardif (50000010 + 1) 100000013 % 256 := by
  obtain ⟨hq, hidle, hstart, hp, hsilence⟩ := monocoup_publie_deux (u := .fpga) (w := tardif) rfl
  refine ⟨fun _ => ⟨rfl, rfl⟩, hidle 50000010 (by omega) le_rfl, hstart, hp, hsilence, ?_⟩
  exact mesure_fausse (fun _ => rfl) (by omega) hq hidle (by omega) hp hsilence
    (pulses_eq_one (c := 50000006) (by omega) (by omega) ((frontMontant_tardif _).mpr rfl)
      (fun k _ _ hk => (frontMontant_tardif k).mp hk))

/-! ## The outputs -/

/-- Cycle `k` is the last publication before cycle `n`. -/
abbrev DernierePublication (u : PowerUp) (w : ℕ → AnemometreEntrees) (n k : ℕ) : Prop :=
  Dernier (fun k => (cycle u w k).second = .one) n k

/-- Either nothing has been published before cycle `n`, or there is a last
publication. -/
theorem neuf_ou_publie (n : ℕ) : (∀ k, k < n → (cycle u w k).second ≠ .one) ∨
    ∃ k, DernierePublication u w n k :=
  dernier_ou_aucun _ n

/-- The outputs are registers that a publication loads and nothing else. -/
theorem sorties_tiennent (k : ℕ) (h : (cycle u w k).second ≠ .one) :
    (cycle u w (k + 1)).dataAnemometre = (cycle u w k).dataAnemometre ∧
      (cycle u w (k + 1)).dataValid = (cycle u w k).dataValid := by
  rw [cycle_succ, front_dataAnemometre, front_dataValid, if_neg h, if_neg h]
  exact ⟨rfl, rfl⟩

/-- Before the first publication the outputs are as they powered up. -/
theorem sorties_neuves {t : ℕ} (hno : ∀ k, k < t → (cycle u w k).second ≠ .one) :
    (cycle u w t).dataAnemometre = 0 ∧ (cycle u w t).dataValid = u.level := by
  constructor
  · exact registre_neuf (c := fun k => (cycle u w k).dataAnemometre)
      (fun k hk => (sorties_tiennent k hk).1) hno
  · exact registre_neuf (c := fun k => (cycle u w k).dataValid)
      (fun k hk => (sorties_tiennent k hk).2) hno

/-- From then on they are as the last publication left them. -/
theorem sorties_publiees {n k : ℕ} (h : DernierePublication u w n k) :
    (cycle u w n).dataAnemometre = (cycle u w (k + 1)).dataAnemometre ∧
      (cycle u w n).dataValid = .one := by
  constructor
  · exact registre_dernier (c := fun k => (cycle u w k).dataAnemometre)
      (v := fun k => (cycle u w (k + 1)).dataAnemometre) (fun _ _ => rfl)
      (fun k hk => (sorties_tiennent k hk).1) h
  · refine registre_dernier (c := fun k => (cycle u w k).dataValid) (v := fun _ => .one) ?_
      (fun k hk => (sorties_tiennent k hk).2) h
    intro k hpub
    rw [cycle_succ, front_dataValid, if_pos hpub]

/-- `data_valid` is '1' from the first publication on, for ever. -/
theorem dataValid_iff (t : ℕ) : (cycle u w t).dataValid = .one ↔
    ∃ k, k < t ∧ (cycle u w k).second = .one := by
  rcases neuf_ou_publie (u := u) (w := w) t with hno | ⟨k, hk⟩
  · rw [(sorties_neuves hno).2]
    refine ⟨fun h => absurd h u.level_ne_one, ?_⟩
    rintro ⟨k, hk, hs⟩
    exact absurd hs (hno k hk)
  · exact ⟨fun _ => ⟨k, hk.avant, hk.pulse⟩, fun _ => (sorties_publiees hk).2⟩

/-- It is '0' only if it powers up so and nothing has been published. -/
theorem dataValid_zero_iff (t : ℕ) : (cycle u w t).dataValid = .zero ↔
    u = .fpga ∧ ∀ k, k < t → (cycle u w k).second ≠ .one := by
  rcases neuf_ou_publie (u := u) (w := w) t with hno | ⟨k, hk⟩
  · rw [(sorties_neuves hno).2]
    cases u
    · exact ⟨fun h => absurd h (by decide), fun h => absurd h.1 (by decide)⟩
    · exact ⟨fun _ => ⟨rfl, hno⟩, fun _ => rfl⟩
  · rw [(sorties_publiees hk).2]
    refine ⟨fun h => absurd h (by decide), ?_⟩
    rintro ⟨-, hno⟩
    exact absurd hk.pulse (hno k hk.avant)

end BarreFranche.Anemometre
