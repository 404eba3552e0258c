/-
# `AnemometreArret` — the anemometer left alone

From some cycle on nobody asks for a measurement.  The window under way, if
there is one, ends in a publication, the publication stops the timer, and
nothing happens any more, whatever `reset_n` does (`arret_definitif`).

The danger is in the timer: `Enable` reaches its divider only, so a divider
stopped on its last count would let the counter run.  `Eteint` excludes it: a
timer of the block that is not enabled is being cleared or stands at a clean
start, with its divider on one of the first five counts.
-/
import BarreFranche.AnemometrePublication

namespace BarreFranche

/-! ## The timer -/

section
variable {P K A d : ℕ} {p : TimerPorts P} {t : Timer P}

theorem Calme.mono {d' : ℕ} (h : Calme d t) (hd : d ≤ d') : Calme d' t :=
  ⟨h.compt1, h.retard, h.div.trans hd⟩

/-- Clearing a timer with nothing to clear. -/
theorem Vide.front_calme (h : Vide t) : Calme 0 (Timer.front p t) where
  compt1 := Timer.front_compt1_clear h.efface.2
  retard := h.compt1
  div := by
    rw [Timer.front_div, diviseur_reset h.efface.1]
    exact le_rfl

theorem Tour.calme (h : Tour K A 0 t) (hK : 3 ≤ K) : Calme 0 t where
  compt1 := h.suit.compt1_zero hK
  retard := h.retard rfl
  div := by
    rw [h.suit.div, Nat.zero_mod]

end

namespace Anemometre

open Synchrone

/-- Off: being cleared or at a clean start, the divider far from its last count. -/
structure Eteint (s : Anemometre) : Prop where
  calme : Calme 4 s.timer1hz
  phase : Vide s.timer1hz ∨ Tour 9999 4999 0 s.timer1hz

section
variable {s : Anemometre} {e : AnemometreEntrees}

/-- A reset finds nothing to clear, and a timer that is not enabled waits. -/
theorem Eteint.front (h : Eteint s) (he : s.timerEnable ≠ .one) : Eteint (front e s) := by
  by_cases hr : s.internalReset = .one
  · rcases h.phase with hv | ht
    · exact ⟨hv.front_calme.mono (by omega), Or.inl (hv.front_reset hr)⟩
    · have hc : Calme 0 s.timer1hz := ht.calme (by omega)
      exact ⟨(hc.front (reglage s) (by omega)).mono (by omega),
        Or.inl (hc.front_reset (reglage s) (by omega) hr)⟩
  · have ht : Tour 9999 4999 0 (Anemometre.front e s).timer1hz := by
      rcases h.phase with hv | ht
      · exact hv.front (reglage s) hr
      · exact ht.front_arret (reglage s) hr he
    exact ⟨(ht.calme (by omega)).mono (by omega), Or.inr ht⟩

end

variable {u : PowerUp} {w : ℕ → AnemometreEntrees}

/-- After the publication that stopped it, and as long as it is stopped, the
timer is off: its counter stays at 0 and there is no other publication. -/
theorem eteint_run {q f : ℕ} (hsec : (cycle u w q).second = .one)
    (hidle : ∀ k, q < k → k ≤ f → (cycle u w k).timerEnable = .zero) {k : ℕ}
    (hk : q < k) (hkf : k ≤ f + 1) :
    Calme 4 (cycle u w k).timer1hz ∧ (cycle u w k).second ≠ .one := by
  have c0 : Calme 2 (cycle u w q).timer1hz := (sain_cycle q).publie hsec
  have c1 : Calme 3 (cycle u w (q + 1)).timer1hz := c0.front (reglage _) (by omega)
  have r1 : (cycle u w (q + 1)).internalReset = .one :=
    (front_internalReset _ _).mpr (Or.inl hsec)
  have h2 : Eteint (cycle u w (q + 2)) :=
    ⟨c1.front (reglage _) (by omega), Or.inl (c1.front_reset (reglage _) (by omega) r1)⟩
  have hrun : ∀ i, i ≤ f - (q + 1) → Eteint (cycle u w (q + 2 + i)) := by
    refine run_window (I := fun _ => Eteint) h2 ?_
    intro i hi h
    exact h.front (StdLogic.ne_one_of_zero (hidle _ (by omega) (by omega)))
  have hcalme : ∀ j, q ≤ j → j ≤ f + 1 → Calme 4 (cycle u w j).timer1hz := by
    intro j hqj hjf
    by_cases hlt : j < q + 2
    · obtain rfl | rfl : j = q ∨ j = q + 1 := by omega
      · exact c0.mono (by omega)
      · exact c1.mono (by omega)
    · obtain ⟨i, rfl⟩ : ∃ i, j = q + 2 + i := ⟨j - (q + 2), by omega⟩
      exact (hrun i (by omega)).calme
  obtain ⟨j, rfl⟩ : ∃ j, k = j + 1 := ⟨k - 1, by omega⟩
  exact ⟨hcalme _ (by omega) hkf,
    front_coUEV_of_retard (hcalme j (by omega) (by omega)).retard⟩

/-- A publication that nobody asks to repeat stops the timer. -/
theorem arret_apres {q f : ℕ} (hsec : (cycle u w q).second = .one)
    (hoff : ∀ k, q ≤ k → k < f → (w k).continu = false ∧ (w k).startStop = false) {k : ℕ}
    (hk : q < k) : k ≤ f → (cycle u w k).timerEnable = .zero := by
  induction k, hk using Nat.le_induction with
  | base =>
      intro hkf
      exact (front_timerEnable_zero _ _).mpr ⟨hoff q le_rfl hkf, Or.inl hsec⟩
  | succ k hk ih =>
      intro hkf
      exact (front_timerEnable_zero _ _).mpr
        ⟨hoff k (by omega) hkf, Or.inr (ih (by omega))⟩

/-- A stopped timer was stopped by a publication, and has been stopped since. -/
theorem arret_publication : ∀ {f : ℕ}, (cycle u w f).timerEnable = .zero →
    ∃ q, q < f ∧ (cycle u w q).second = .one ∧
      ∀ k, q < k → k ≤ f → (cycle u w k).timerEnable = .zero
  | 0, h => absurd h (by simp [powerOn])
  | f + 1, h => by
      obtain ⟨-, hs | hf⟩ := (front_timerEnable_zero _ _).mp h
      · refine ⟨f, by omega, hs, ?_⟩
        intro k hk hk'
        obtain rfl : k = f + 1 := by omega
        exact h
      · obtain ⟨q, hq, hsec, hidle⟩ := arret_publication hf
        refine ⟨q, by omega, hsec, ?_⟩
        intro k hk hk'
        rcases Nat.lt_succ_iff_lt_or_eq.mp (Nat.lt_succ_of_le hk') with hlt | rfl
        · exact hidle k hk (by omega)
        · exact h

/-- **Left alone, the block stops.**  From cycle `s` on neither `continu` nor
`start_stop` is '1': there is at most one publication from `s` on, and after it
`tim_counter` stays 0, whatever `reset_n` does.  And never, in any run, does the
divider stand on its last count while `timer_enable` is '0'. -/
theorem arret_definitif {s : ℕ}
    (hoff : ∀ k, s ≤ k → (w k).continu = false ∧ (w k).startStop = false) :
    (∀ p q, s ≤ p → s ≤ q → (cycle u w p).second = .one → (cycle u w q).second = .one →
        p = q) ∧
      (∀ p, s ≤ p → (cycle u w p).second = .one →
        ∀ k, p < k → (cycle u w k).timer1hz.compt1 = 0) ∧
      ∀ k, (cycle u w k).timerEnable = .zero →
        (cycle u w k).timer1hz.div ≠ 0x270F - 1 := by
  have hstop : ∀ p, s ≤ p → (cycle u w p).second = .one → ∀ k, p < k →
      Calme 4 (cycle u w k).timer1hz ∧ (cycle u w k).second ≠ .one := by
    intro p hp hsec k hk
    refine eteint_run (f := k) hsec ?_ hk (by omega)
    intro j hj hjk
    exact arret_apres hsec (fun i hi _ => hoff i (hp.trans hi)) hj hjk
  refine ⟨?_, ?_, ?_⟩
  · intro p q hp hq hsp hsq
    rcases Nat.lt_trichotomy p q with hlt | heq | hgt
    · exact absurd hsq (hstop p hp hsp q hlt).2
    · exact heq
    · exact absurd hsp (hstop q hq hsq p hgt).2
  · intro p hp hsec k hk
    exact (hstop p hp hsec k hk).1.compt1
  · intro k hzero hlast
    obtain ⟨q, hqk, hsec, hidle⟩ := arret_publication hzero
    have hdiv := (eteint_run hsec hidle hqk (by omega)).1.div
    rw [hlast] at hdiv
    exact absurd hdiv (by decide)

/-- Nothing was ever asked: after the first window `tim_counter` is 0. -/
theorem arret_definitif_temoin :
    (cycle .simulation sansDemande 60000000).timer1hz.compt1 = 0 :=
  (arret_definitif (u := .simulation) (w := sansDemande) (s := 0) (fun _ _ => ⟨rfl, rfl⟩)).2.1
    50000002 (by omega) (premiere_publication fun _ _ => rfl) 60000000 (by omega)

end Anemometre

end BarreFranche
