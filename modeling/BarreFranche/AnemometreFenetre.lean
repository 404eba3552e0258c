/-
# `AnemometreFenetre` — the measurement window of the anemometer

## Every run

`Sain` holds at every cycle of every run, whatever the pins do: the 1 s timer
implements a state of the abstract machine and is stopped only at rest or when
it is about to be cleared; the counter decreases only to 0; and at a
publication the timer has just been cleared.  So a publication never follows
another at once, and after one that no reset follows the timer is at rest
three cycles later (`reprise`).

## A window

`Fenetre n` is a window under way at position `n`, started from rest.  It ends
in a publication at position `M + 2`, with `M = 50,000,000`, and not before.
-/
import BarreFranche.Anemometre

namespace BarreFranche.Anemometre

open Synchrone

/-! ## Every run -/

/-- What holds at every cycle of every run. -/
structure Sain (s : Anemometre) : Prop where
  phase : ∃ m, Represente 9999 4999 m s.timer1hz ∧
    (s.timerEnable = .one ∨ s.internalReset = .one ∨ m = .efface ∨ m = .marche 0)
  retard : s.timer1hz.compt1.toNat < s.timer1hz.counterOverflowD.toNat → s.timer1hz.compt1 = 0
  publie : s.second = .one → Calme 2 s.timer1hz

theorem sain_powerOn (u : PowerUp) : Sain (powerOn u) where
  phase := ⟨.marche 0, suit_powerOn u (by omega), Or.inl rfl⟩
  retard := fun _ => rfl
  publie := fun h => absurd h (PowerUp.level_ne_one u)

/-- The event follows a decrease of the counter, and then the divider has done
at most two steps. -/
theorem Sain.publie_front {s : Anemometre} (h : Sain s) (e : AnemometreEntrees)
    (hsec : (front e s).second = .one) : Calme 2 (front e s).timer1hz := by
  have hlt : s.timer1hz.compt1.toNat < s.timer1hz.counterOverflowD.toNat :=
    (Timer.front_coUEV s.ports s.timer1hz).mp hsec
  obtain ⟨m, hm, -⟩ := h.phase
  cases m with
  | efface =>
      exact ⟨compt1_of_efface hm, h.retard hlt, by
        rw [front_timer1hz, div_of_efface hm]; simp⟩
  | marche n =>
      have hm : Suit 9999 4999 n s.timer1hz := hm
      have hc : (front e s).timer1hz.compt1.toNat = trajectoire 9999 4999 (n + 1) :=
        hm.front_compt1 (reglage s)
      have hd : (front e s).timer1hz.div.toNat ≤ s.timer1hz.div.toNat + 1 :=
        diviseur_le _ _ _ _
      rw [hm.div] at hd
      rcases Nat.eq_zero_or_pos n with rfl | hn
      · rw [trajectoire_debut (by omega)] at hc
        exact ⟨BitVec.eq_of_toNat_eq hc, h.retard hlt, by omega⟩
      · obtain ⟨-, hmod⟩ := (hm.front_coUEV (by omega) hn).mp hsec
        rw [periode_seconde] at hmod
        rw [trajectoire_of_not (by rw [periode_seconde]; omega), periode_seconde] at hc
        refine ⟨BitVec.eq_of_toNat_eq ?_, h.retard hlt, by omega⟩
        rw [hc]
        change _ = 0
        omega

theorem Sain.front {s : Anemometre} (h : Sain s) (e : AnemometreEntrees) : Sain (front e s) where
  phase := by
    obtain ⟨m, hm, hen⟩ := h.phase
    refine ⟨_, hm.front (reglage s) hen, ?_⟩
    rw [front_timerEnable, front_internalReset]
    by_cases hsec : s.second = .one
    · exact Or.inr (Or.inl (Or.inl hsec))
    · rcases hen with hε | hρ | rfl | rfl
      · exact Or.inl (Or.inr ⟨hsec, hε⟩)
      · right; right; left
        cases m <;> simp [Minuterie.suivant, ports, hρ]
      · right; right
        by_cases hρ : s.ports.reset = .one <;> simp [Minuterie.suivant, hρ]
      · by_cases hε : s.timerEnable = .one
        · exact Or.inl (Or.inr ⟨hsec, hε⟩)
        · right; right
          simp [Minuterie.suivant, ports, hε]
  retard := Timer.front_compt1_lt
  publie := h.publie_front e

variable {u : PowerUp} {w : ℕ → AnemometreEntrees}

theorem sain_cycle (n : ℕ) : Sain (cycle u w n) :=
  run_invariant (sain_powerOn u) (fun e _ h => h.front e) n

/-! ## A window from rest -/

/-- The timer stands at a clean start, with no reset pending. -/
structure Repos (s : Anemometre) : Prop extends Tour 9999 4999 0 s.timer1hz where
  reset : s.internalReset ≠ .one

/-- A window started from rest, at position `n`. -/
structure Fenetre (n : ℕ) (s : Anemometre) : Prop extends Tour 9999 4999 n s.timer1hz where
  enable : s.timerEnable = .one
  reset : s.internalReset ≠ .one

section
variable {n : ℕ} {s : Anemometre} {e : AnemometreEntrees}

theorem Fenetre.second (h : Fenetre n s) : s.second = .one ↔ n = 50000002 := h.evenement

theorem Repos.second (h : Repos s) : s.second ≠ .one :=
  fun hs => absurd (h.evenement.mp hs) (by omega)

theorem Repos.fenetre (h : Repos s) (he : s.timerEnable = .one) : Fenetre 0 s :=
  { h.toTour with enable := he, reset := h.reset }

theorem repos_powerOn (u : PowerUp) : Repos (powerOn u) where
  suit := suit_powerOn u (by omega)
  retard := fun _ => rfl
  evenement := ⟨fun hs => absurd hs (PowerUp.level_ne_one u), fun h0 => absurd h0 (by omega)⟩
  reset := PowerUp.level_ne_one u

/-- Leaving rest raises no event. -/
theorem Repos.front_second (h : Repos s) : (front e s).second ≠ .one :=
  front_coUEV_of_retard (h.retard rfl)

/-- At rest and not enabled, the timer stays at rest. -/
theorem Repos.front (h : Repos s) (he : s.timerEnable ≠ .one) (hr : e.resetN = true) :
    Repos (front e s) :=
  { h.toTour.front_arret (reglage s) h.reset he with
    reset := by simp [h.second, hr] }

/-- Within a window one edge leads to the next position: the event is not
raised, so the timer stays enabled and only `reset_n` could clear it. -/
theorem Fenetre.front (h : Fenetre n s) (hn : n < 50000002) (hr : e.resetN = true) :
    Fenetre (n + 1) (front e s) := by
  have hsec : s.second ≠ .one := fun hs => absurd (h.second.mp hs) (Nat.ne_of_lt hn)
  have htour : Tour 9999 4999 (n + 1) (Anemometre.front e s).timer1hz :=
    h.toTour.front (reglage s) h.reset h.enable (by rw [periode_seconde]; omega)
  exact
    { htour with
      enable := (front_timerEnable e s).mpr (Or.inr ⟨hsec, h.enable⟩)
      reset := by simp [hsec, hr] }

end

theorem repos_run {c d : ℕ} (h : Repos (cycle u w c))
    (hrun : ∀ k, k < d → (w (c + k)).resetN = true ∧ (cycle u w (c + k)).timerEnable ≠ .one) :
    Repos (cycle u w (c + d)) :=
  run_window (I := fun _ => Repos) h
    (fun k hk hI => hI.front (hrun k hk).2 (hrun k hk).1) d le_rfl

theorem fenetre_run {c n d : ℕ} (h : Fenetre n (cycle u w c)) (hd : n + d ≤ 50000002)
    (hrun : ∀ k, k < d → (w (c + k)).resetN = true) : Fenetre (n + d) (cycle u w (c + d)) :=
  run_window (I := fun k => Fenetre (n + k)) h
    (fun k hk hI => hI.front (by omega) (hrun k hk)) d le_rfl

/-- Such a window ends in a publication and has none before. -/
theorem fenetre_publie {c : ℕ} (h : Fenetre 0 (cycle u w c))
    (hr : ∀ k, k < 50000002 → (w (c + k)).resetN = true) :
    (cycle u w (c + 50000002)).second = .one ∧
      ∀ k, c ≤ k → k < c + 50000002 → (cycle u w k).second ≠ .one := by
  have hwin : ∀ j, j ≤ 50000002 → Fenetre j (cycle u w (c + j)) := by
    intro j hj
    have hj' := fenetre_run h (d := j) (by omega) (fun k hk => hr k (by omega))
    rwa [Nat.zero_add] at hj'
  refine ⟨(hwin _ le_rfl).second.mpr rfl, ?_⟩
  intro k hk hk' hs
  obtain ⟨j, rfl⟩ : ∃ j, k = c + j := ⟨k - c, by omega⟩
  exact absurd ((hwin j (by omega)).second.mp hs) (by omega)

/-- Three cycles after a publication that no reset follows, the timer is at
rest; no event is raised meanwhile, and `internal_reset` has been '1' for
exactly one cycle. -/
theorem reprise {t : ℕ} (hsec : (cycle u w t).second = .one)
    (h1 : (w (t + 1)).resetN = true) (h2 : (w (t + 2)).resetN = true) :
    Repos (cycle u w (t + 3)) ∧ (cycle u w (t + 1)).second ≠ .one ∧
      (cycle u w (t + 2)).second ≠ .one ∧ (cycle u w (t + 1)).internalReset = .one ∧
      (cycle u w (t + 2)).internalReset ≠ .one := by
  have c0 : Calme 2 (cycle u w t).timer1hz := (sain_cycle t).publie hsec
  have c1 : Calme 3 (cycle u w (t + 1)).timer1hz := c0.front (reglage _) (by omega)
  have s1 : (cycle u w (t + 1)).second ≠ .one := front_coUEV_of_retard c0.retard
  have s2 : (cycle u w (t + 2)).second ≠ .one := front_coUEV_of_retard c1.retard
  have r1 : (cycle u w (t + 1)).internalReset = .one :=
    (front_internalReset _ _).mpr (Or.inl hsec)
  have r2 : (cycle u w (t + 2)).internalReset ≠ .one := by
    rw [cycle_succ, Ne, front_internalReset]
    simp [s1, h1]
  have hvide : Vide (cycle u w (t + 2)).timer1hz := c1.front_reset (reglage _) (by omega) r1
  have htour : Tour 9999 4999 0 (cycle u w (t + 3)).timer1hz := hvide.front (reglage _) r2
  refine ⟨{ htour with reset := ?_ }, s1, s2, r1, r2⟩
  rw [cycle_succ, Ne, front_internalReset]
  simp [s2, h2]

theorem reprise_silence {t k : ℕ} (hsec : (cycle u w t).second = .one)
    (h1 : (w (t + 1)).resetN = true) (h2 : (w (t + 2)).resetN = true) (hk : t < k)
    (hk' : k < t + 3) : (cycle u w k).second ≠ .one := by
  obtain ⟨-, s1, s2, -⟩ := reprise hsec h1 h2
  obtain rfl | rfl : k = t + 1 ∨ k = t + 2 := by omega
  · exact s1
  · exact s2

end BarreFranche.Anemometre
