/-
# `AnemometrePublication` — what a publication stands for

A published value should be the count of a whole second.  It is not when
`reset_n` falls inside a window: the reset clears a running counter, the timer
takes that for an overflow, and two cycles later the partial count is
published as valid (`publication_tronquee`).

`ResetHorsFenetre` is the condition on one clock edge under which this does
not happen: `reset_n` is '0' only while a clear is already under way, or while
`tim_counter` is 0 and stays 0 for the two cycles the reset needs to reach it.
In a run that obeys it at every edge each publication closes a full window
(`publication_apres_fenetre`).

The induction carries the position of the window together with its past:
`Cours n` is the state of the block at position `n`, `Passe a t` what the
edges since the window opened at cycle `a` have seen.
-/
import BarreFranche.AnemometreFenetre

namespace BarreFranche.Anemometre

open Synchrone

/-- `reset_n` is sampled '0' only outside the part of a window where it would
clear a running counter. -/
def ResetHorsFenetre (e : AnemometreEntrees) (s : Anemometre) : Prop :=
  e.resetN = true ∨ s.internalReset = .one ∨ s.timer1hz.srstCompt1 = .one ∨
    (s.timer1hz.compt1 = 0 ∧ s.timer1hz.div.toNat + 2 < 9999)

instance (e : AnemometreEntrees) (s : Anemometre) : Decidable (ResetHorsFenetre e s) :=
  inferInstanceAs (Decidable (_ ∨ _))

/-! ## The states of a run whose resets stay outside the windows -/

/-- At position `n` of a window; a reset may be pending before the first count
and after the overflow only. -/
structure Cours (n : ℕ) (s : Anemometre) : Prop extends Tour 9999 4999 n s.timer1hz where
  actif : s.timerEnable = .one ∨ s.internalReset = .one ∨ n = 0
  reset : s.internalReset = .one → n < 9998 ∨ 50000001 ≤ n
  fin : n ≤ 50000003 ∧ (n = 50000003 → s.internalReset = .one)

section
variable {n : ℕ} {s : Anemometre} {e : AnemometreEntrees}

theorem Cours.second (h : Cours n s) : s.second = .one ↔ n = 50000002 := h.evenement

/-- A clean start is the beginning of a window, whatever is pending. -/
theorem cours_zero (h : Tour 9999 4999 0 s.timer1hz) : Cours 0 s :=
  { h with
    actif := Or.inr (Or.inr rfl)
    reset := fun _ => Or.inl (by omega)
    fin := ⟨by omega, fun h0 => absurd h0 (by omega)⟩ }

theorem cours_powerOn (u : PowerUp) : Cours 0 (powerOn u) :=
  cours_zero (repos_powerOn u).toTour

/-- The event at the end of position `n`. -/
theorem Cours.front_second (h : Cours n s) :
    (front e s).second = .one ↔ n + 1 = 50000002 := by
  change (Timer.front s.ports s.timer1hz).coUEV = .one ↔ _
  have hfin := h.fin.1
  rcases Nat.eq_zero_or_pos n with rfl | h1
  · rw [Timer.front_coUEV, h.retard rfl]
    simp
  · rw [h.suit.front_coUEV (by omega) h1, periode_seconde]
    omega

theorem Cours.compt1 (h : Cours n s) (hn : n < 9999 ∨ 50000001 ≤ n) :
    s.timer1hz.compt1 = 0 := by
  have hc := h.suit.compt1
  have hfin := h.fin.1
  have h0 : trajectoire 9999 4999 n = 0 := by
    rw [trajectoire_of_not (by rw [periode_seconde]; omega), periode_seconde]
    omega
  exact BitVec.eq_of_toNat_eq (hc.trans h0)

/-- A pending reset finds the counter at 0, and leaves nothing behind. -/
theorem Cours.front_reset (h : Cours n s) (hr : s.internalReset = .one) :
    Vide (front e s).timer1hz where
  efface := efface_of_reset (K := 9999) (A := 4999) hr
  compt1 := by
    have hc : (Anemometre.front e s).timer1hz.compt1.toNat = trajectoire 9999 4999 (n + 1) :=
      h.suit.front_compt1 (reglage s)
    have hfin := h.fin.1
    have hpos := h.reset hr
    have h0 : trajectoire 9999 4999 (n + 1) = 0 := by
      rw [trajectoire_of_not (by rw [periode_seconde]; omega), periode_seconde]
      omega
    exact BitVec.eq_of_toNat_eq (hc.trans h0)
  retard := h.compt1 (by have := h.reset hr; omega)

/-- Stopped: only position 0 is possible, and it is kept. -/
theorem Cours.front_arret (h : Cours n s) (hr : s.internalReset ≠ .one)
    (he : s.timerEnable ≠ .one) : n = 0 ∧ Cours 0 (front e s) := by
  have hn : n = 0 := by
    rcases h.actif with h1 | h1 | h1
    · exact absurd h1 he
    · exact absurd h1 hr
    · exact h1
  subst hn
  exact ⟨rfl, cours_zero (h.toTour.front_arret (reglage s) hr he)⟩

/-- Running: the next position.  This is where the condition on `reset_n` is
used: a '0' sampled here becomes a pending reset there. -/
theorem Cours.front (h : Cours n s) (hr : s.internalReset ≠ .one) (he : s.timerEnable = .one)
    (hrule : ResetHorsFenetre e s) : Cours (n + 1) (front e s) := by
  have hfin : n ≤ 50000002 := by
    have := h.fin
    by_contra hlt
    exact hr (this.2 (by omega))
  have htour : Tour 9999 4999 (n + 1) (Anemometre.front e s).timer1hz :=
    h.toTour.front (reglage s) hr he (by rw [periode_seconde]; omega)
  exact
    { htour with
      actif := by
        rw [front_timerEnable, front_internalReset]
        by_cases hsec : s.second = .one
        · exact Or.inr (Or.inl (Or.inl hsec))
        · exact Or.inl (Or.inr ⟨hsec, he⟩)
      reset := by
        rw [front_internalReset]
        rintro (hsec | hlow)
        · have := h.second.mp hsec
          omega
        · rcases hrule with h1 | h1 | h1 | ⟨h1, h2⟩
          · rw [hlow] at h1
            exact absurd h1 (by decide)
          · exact absurd h1 hr
          · rcases Nat.eq_zero_or_pos n with rfl | hn
            · omega
            · have := (h.suit.srst hn).mp h1
              rw [periode_seconde] at this
              omega
          · have hc := h.suit.compt1
            have hd := h.suit.div
            rw [h1, trajectoire, periode_seconde] at hc
            split_ifs at hc with hpic
            · exact absurd hc (by decide)
            · have h0 : 0 = (n + 1) % 50000000 / 10000 := hc
              omega
      fin := by
        refine ⟨by omega, ?_⟩
        intro h3
        rw [front_internalReset]
        exact Or.inl (h.second.mpr (by omega)) }

end

/-! ## The past of a window -/

variable {u : PowerUp} {w : ℕ → AnemometreEntrees}

/-- What the edges of a window opened at cycle `a` have seen before cycle `t`. -/
structure Passe (u : PowerUp) (w : ℕ → AnemometreEntrees) (a t : ℕ) : Prop where
  enable : ∀ k, a ≤ k → k < t → (cycle u w k).timerEnable = .one
  silence : ∀ k, a ≤ k → k < t → k < a + 50000002 → (cycle u w k).second ≠ .one
  resetN : ((cycle u w t).internalReset = .one → a + 50000001 ≤ t) →
    ∀ k, a ≤ k → k < t → k < a + 50000000 → (w k).resetN = true

theorem passe_vide (t : ℕ) : Passe u w t t where
  enable := fun _ h1 h2 => absurd h1 (by omega)
  silence := fun _ h1 h2 => absurd h1 (by omega)
  resetN := fun _ _ h1 h2 => absurd h1 (by omega)

theorem Passe.succ {a n t : ℕ} (h : Passe u w a t) (hn : a + n = t)
    (hc : Cours n (cycle u w t)) (hr : (cycle u w t).internalReset ≠ .one)
    (he : (cycle u w t).timerEnable = .one) : Passe u w a (t + 1) where
  enable := by
    intro k hak hk
    rcases Nat.lt_succ_iff_lt_or_eq.mp hk with hlt | rfl
    · exact h.enable k hak hlt
    · exact he
  silence := by
    intro k hak hk hka
    rcases Nat.lt_succ_iff_lt_or_eq.mp hk with hlt | rfl
    · exact h.silence k hak hlt hka
    · exact fun hs => absurd (hc.second.mp hs) (by omega)
  resetN := by
    intro hpend k hak hk hka
    rcases Nat.lt_succ_iff_lt_or_eq.mp hk with hlt | rfl
    · exact h.resetN (fun h1 => absurd h1 hr) k hak hlt hka
    · by_contra hlow
      have hρ : (cycle u w (k + 1)).internalReset = .one :=
        (front_internalReset _ _).mpr (Or.inr (by simpa using hlow))
      have := hpend hρ
      omega

/-- Cycle `t` is preceded, since the last publication, by 50,000,000
consecutive edges with `reset_n` and `timer_enable` at '1'. -/
def Precedee (u : PowerUp) (w : ℕ → AnemometreEntrees) (t : ℕ) : Prop :=
  ∃ a, a + 50000000 ≤ t ∧
    (∀ k, a ≤ k → k < a + 50000000 →
      (w k).resetN = true ∧ (cycle u w k).timerEnable = .one) ∧
    ∀ k, a ≤ k → k < t → (cycle u w k).second ≠ .one

theorem Passe.precedee {a t : ℕ} (h : Passe u w a t) (ha : a + 50000001 = t)
    (hc : Cours 50000001 (cycle u w t)) : Precedee u w (t + 1) := by
  refine ⟨a, by omega, ?_, ?_⟩
  · intro k hak hk
    exact ⟨h.resetN (fun _ => by omega) k hak (by omega) hk, h.enable k hak (by omega)⟩
  · intro k hak hk hs
    rcases Nat.lt_succ_iff_lt_or_eq.mp hk with hlt | rfl
    · exact h.silence k hak hlt (by omega) hs
    · exact absurd (hc.second.mp hs) (by omega)

/-- The invariant of the run: being cleared, or in a window whose past is
known; and every publication so far is accounted for. -/
theorem cours_cycle (hrule : ∀ k, ResetHorsFenetre (w k) (cycle u w k)) (t : ℕ) :
    (Vide (cycle u w t).timer1hz ∨
      ∃ a n, a + n = t ∧ Cours n (cycle u w t) ∧ Passe u w a t) ∧
    ((cycle u w t).second = .one → Precedee u w t) := by
  induction t with
  | zero =>
      exact ⟨Or.inr ⟨0, 0, rfl, cours_powerOn u, passe_vide 0⟩,
        fun h => absurd h (PowerUp.level_ne_one u)⟩
  | succ t ih =>
      rcases ih.1 with hvide | ⟨a, n, hn, hc, hp⟩
      · refine ⟨?_, fun hs => absurd hs (front_coUEV_of_retard hvide.retard)⟩
        by_cases hr : (cycle u w t).internalReset = .one
        · exact Or.inl (hvide.front_reset hr)
        · exact Or.inr ⟨t + 1, 0, rfl, cours_zero (hvide.front (reglage _) hr), passe_vide _⟩
      · constructor
        · by_cases hr : (cycle u w t).internalReset = .one
          · exact Or.inl (hc.front_reset hr)
          · by_cases he : (cycle u w t).timerEnable = .one
            · exact Or.inr ⟨a, n + 1, by omega, hc.front hr he (hrule t), hp.succ hn hc hr he⟩
            · obtain ⟨-, h0⟩ := hc.front_arret (e := w t) hr he
              exact Or.inr ⟨t + 1, 0, rfl, h0, passe_vide _⟩
        · intro hs
          have h1 : n = 50000001 := by
            have := hc.front_second.mp hs
            omega
          subst h1
          exact hp.precedee hn hc

/-- **A publication closes a full window**, in every run whose resets stay
outside the windows. -/
theorem publication_apres_fenetre
    (hrule : ∀ k, ResetHorsFenetre (w k) (cycle u w k)) (t : ℕ)
    (hpub : (cycle u w t).second = .one) :
    ∃ a, a + 50000000 ≤ t ∧
      (∀ k, a ≤ k → k < a + 50000000 →
        (w k).resetN = true ∧ (cycle u w k).timerEnable = .one) ∧
      ∀ k, a ≤ k → k < t → (cycle u w k).second ≠ .one :=
  (cours_cycle hrule t).2 hpub

/-! ## The first window of a run, and a reset inside it -/

/-- From power-on and without a reset the first publication is at `M + 2`. -/
theorem premiere_publication (hr : ∀ k, k < 50000002 → (w k).resetN = true) :
    (cycle u w 50000002).second = .one := by
  have h0 : Fenetre 0 (cycle u w 0) := (repos_powerOn u).fenetre rfl
  have h := (fenetre_publie h0 (fun k hk => hr (0 + k) (by omega))).1
  rwa [Nat.zero_add] at h

/-- The pins with nothing connected: no reset, no request, a silent sensor. -/
def sansDemande : ℕ → AnemometreEntrees := fun _ => ⟨false, true, false, false⟩

/-- In the first 9,997 positions of a window a reset is allowed. -/
theorem Fenetre.resetHorsFenetre {n : ℕ} {e : AnemometreEntrees} {s : Anemometre}
    (h : Fenetre n s) (hn : n < 9997) : ResetHorsFenetre e s := by
  have hc := h.suit.compt1
  have hd := h.suit.div
  rw [trajectoire_debut (by omega)] at hc
  exact Or.inr (Or.inr (Or.inr ⟨BitVec.eq_of_toNat_eq hc, by omega⟩))

/-- It takes one cycle, and opens a new window two cycles later. -/
theorem reset_reporte {n t : ℕ} (h : Fenetre n (cycle u w t)) (hn : n < 9997)
    (hlow : (w t).resetN = false) (h1 : (w (t + 1)).resetN = true)
    (h2 : (w (t + 2)).resetN = true) : Fenetre 0 (cycle u w (t + 3)) := by
  have c0 : Cours n (cycle u w t) :=
    { h.toTour with
      actif := Or.inl h.enable
      reset := fun hr => absurd hr h.reset
      fin := ⟨by omega, fun h0 => absurd h0 (by omega)⟩ }
  have c1 : Cours (n + 1) (cycle u w (t + 1)) :=
    c0.front h.reset h.enable (h.resetHorsFenetre hn)
  have s0 : (cycle u w t).second ≠ .one := fun hs => absurd (c0.second.mp hs) (by omega)
  have s1 : (cycle u w (t + 1)).second ≠ .one := fun hs => absurd (c1.second.mp hs) (by omega)
  have s2 : (cycle u w (t + 2)).second ≠ .one :=
    fun hs => absurd (c1.front_second.mp hs) (by omega)
  have r1 : (cycle u w (t + 1)).internalReset = .one :=
    (front_internalReset _ _).mpr (Or.inr hlow)
  have r2 : (cycle u w (t + 2)).internalReset ≠ .one := by
    rw [cycle_succ, Ne, front_internalReset]
    simp [s1, h1]
  have hvide : Vide (cycle u w (t + 2)).timer1hz := c1.front_reset r1
  have htour : Tour 9999 4999 0 (cycle u w (t + 3)).timer1hz := hvide.front (reglage _) r2
  refine { htour with enable := ?_, reset := ?_ }
  · have e1 := (front_timerEnable (w t) _).mpr (Or.inr ⟨s0, h.enable⟩)
    have e2 := (front_timerEnable (w (t + 1)) _).mpr (Or.inr ⟨s1, e1⟩)
    exact (front_timerEnable (w (t + 2)) _).mpr (Or.inr ⟨s2, e2⟩)
  · rw [cycle_succ, Ne, front_internalReset]
    simp [s2, h2]

/-- `reset_n` low for one cycle, 100 cycles after power-on. -/
def retarde : ℕ → AnemometreEntrees := fun k => ⟨false, decide (k ≠ 100), true, false⟩

/-- The reset is allowed, and the first publication comes 103 cycles late. -/
theorem publication_apres_fenetre_temoin :
    (retarde 100).resetN = false ∧ (cycle .simulation retarde 50000105).second = .one ∧
      ∃ a, a + 50000000 ≤ 50000105 ∧
        (∀ k, a ≤ k → k < a + 50000000 →
          (retarde k).resetN = true ∧ (cycle .simulation retarde k).timerEnable = .one) ∧
        ∀ k, a ≤ k → k < 50000105 → (cycle .simulation retarde k).second ≠ .one := by
  have hhaut : ∀ k, k ≠ 100 → (retarde k).resetN = true := fun k hk => decide_eq_true hk
  have h0 : Fenetre 0 (cycle .simulation retarde 0) := (repos_powerOn .simulation).fenetre rfl
  have h100 : Fenetre (0 + 100) (cycle .simulation retarde (0 + 100)) :=
    fenetre_run h0 (by omega) fun k hk => hhaut _ (by omega)
  have h103 : Fenetre 0 (cycle .simulation retarde (0 + 100 + 3)) :=
    reset_reporte h100 (by omega) rfl rfl rfl
  have hsec : (cycle .simulation retarde (0 + 100 + 3 + 50000002)).second = .one :=
    (fenetre_publie h103 fun k _ => hhaut _ (by omega)).1
  refine ⟨rfl, hsec, publication_apres_fenetre ?_ 50000105 hsec⟩
  intro k
  by_cases hk : k = 100
  · rw [hk]
    exact h100.resetHorsFenetre (by omega)
  · exact Or.inl (hhaut k hk)

/-- The converse of the condition: a reset sampled once the counter is about to
leave 0, and before it has overflowed, publishes four cycles later. -/
theorem reset_publie {n t : ℕ} (h : Fenetre n (cycle u w t)) (hn : 9997 ≤ n)
    (hnM : n ≤ 49999998) (hlow : (w t).resetN = false) :
    (cycle u w (t + 4)).second = .one := by
  have s1 : Suit 9999 4999 (n + 1) (cycle u w (t + 1)).timer1hz :=
    Suit.front h.suit (reglage _) h.reset h.enable
  have r1 : (cycle u w (t + 1)).internalReset = .one :=
    (front_internalReset _ _).mpr (Or.inr hlow)
  have c2 : (cycle u w (t + 2)).timer1hz.compt1.toNat = trajectoire 9999 4999 (n + 2) :=
    s1.front_compt1 (reglage _)
  have e2 : Represente 9999 4999 .efface (cycle u w (t + 2)).timer1hz := efface_of_reset r1
  refine reset_coUEV (K := 9999) (A := 4999) (p := (cycle u w (t + 2)).ports) e2 ?_
    (cycle u w (t + 3)).ports
  rw [c2, trajectoire, periode_seconde]
  split_ifs <;> omega

/-- `reset_n` low for one cycle, 9,997 cycles (0.2 ms) after power-on. -/
def impulsion : ℕ → AnemometreEntrees := fun k => ⟨false, decide (k ≠ 9997), true, false⟩

/-- **A reset inside a window publishes**: 10,001 cycles after power-on the
block raises `data_valid` on a window of 0.2 ms. -/
theorem publication_tronquee :
    (cycle .fpga impulsion 10001).second = .one ∧
      (cycle .fpga impulsion 10002).dataValid = .one ∧
      ¬ ∃ a, a + 50000000 ≤ 10001 ∧
        (∀ k, a ≤ k → k < a + 50000000 →
          (impulsion k).resetN = true ∧ (cycle .fpga impulsion k).timerEnable = .one) ∧
        ∀ k, a ≤ k → k < 10001 → (cycle .fpga impulsion k).second ≠ .one := by
  have h0 : Fenetre 0 (cycle .fpga impulsion 0) := (repos_powerOn .fpga).fenetre rfl
  have h1 : Fenetre (0 + 9997) (cycle .fpga impulsion (0 + 9997)) :=
    fenetre_run h0 (by omega) (fun k hk => by
      have : k ≠ 9997 := by omega
      simpa [impulsion] using this)
  have hsec : (cycle .fpga impulsion (0 + 9997 + 4)).second = .one :=
    reset_publie h1 (by omega) (by omega) (by simp [impulsion])
  refine ⟨hsec, ?_, ?_⟩
  · have hv := front_dataValid (impulsion (0 + 9997 + 4)) (cycle .fpga impulsion (0 + 9997 + 4))
    rw [if_pos hsec] at hv
    exact hv
  · rintro ⟨a, ha, -⟩
    omega

end BarreFranche.Anemometre
