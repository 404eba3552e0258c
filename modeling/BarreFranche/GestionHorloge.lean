/-
# `GestionHorloge` — the 1 s clock and the counter `Delay`

`timer_2hz` is cleared by every edge that samples `reset_n` at '0' and runs
otherwise, so `Clk500ms` rises at most once in `M = 50,000,000` cycles and at
least once in as many; `edge_detector_1` turns the rise into a pulse, and
`Delay` counts the pulses while `reset_Delay` is '0'.

`Avance j` is the state of the clock at position `j` of the timer.  What the
registers hold just after a reset is not known, but it takes three edges from
state 0 to a press, and by then the detector has forgotten it: the distance of
`present_State` from 0 never exceeds what the clock has done (`horloge_cycle`).
-/
import BarreFranche.GestionEtapes
import BarreFranche.Synchrone.Pulse

namespace BarreFranche.GestionBoutton

open Synchrone

variable {u : PowerUp} {w : ℕ → GestionEntrees}

theorem reglage2hz (r : Bool) : Reglage 9999 4999 (ports2hz r) where
  prescaler := rfl
  autoreload := rfl
  three_le := by omega
  lt_top := by omega

theorem ports2hz_reset {r : Bool} : (ports2hz r).reset = .one ↔ r = false := by
  simp [ports2hz, internalReset]

/-! ## The clock -/

/-- The clock at position `j`: the timer, the delayed copy of `Clk500ms`, and
the pulse, each from the cycle on at which the reset is forgotten. -/
structure Avance (j : ℕ) (s : GestionBoutton) : Prop where
  suit : Suit 9999 4999 j s.timer2hz
  retard : 1 ≤ j → (s.edgeDetector1.fInD = .zero ↔ 2500 < trajectoire 9999 4999 (j - 1))
  front : 2 ≤ j → (s.clkDetectedEdge = .one ↔ 50000002 ≤ j ∧ j % 50000000 = 2)

section
variable {e : GestionEntrees} {s : GestionBoutton} {j : ℕ}

theorem clk500ms_eq_zero (h : Suit 9999 4999 j s.timer2hz) :
    s.clk500ms = .zero ↔ 2500 < trajectoire 9999 4999 j := by
  rw [clk500ms, Timer.pwmOutput_eq_zero, h.compt1]
  rfl

theorem clk500ms_eq_one (h : Suit 9999 4999 j s.timer2hz) :
    s.clk500ms = .one ↔ trajectoire 9999 4999 j ≤ 2500 := by
  rw [clk500ms, Timer.pwmOutput_eq_one, h.compt1]
  exact ⟨fun h => h.1, fun h => ⟨h, rfl⟩⟩

theorem avance_zero (h : Represente 9999 4999 .efface s.timer2hz) (hr : e.resetN = true) :
    Avance 0 (etape e s) where
  suit := by
    rw [etape_timer2hz]
    exact suit_zero_of_efface (reglage2hz _) h (by simp [ports2hz_reset, hr])
  retard := fun h0 => absurd h0 (Nat.not_succ_le_zero 0)
  front := fun h0 => absurd h0 (Nat.not_succ_le_zero 1)

/-- The pulse comes two cycles after the counter falls to 0. -/
theorem Avance.etape (h : Avance j s) (hr : e.resetN = true) : Avance (j + 1) (etape e s) where
  suit := by
    rw [etape_timer2hz]
    exact h.suit.front (reglage2hz _) (by simp [ports2hz_reset, hr]) rfl
  retard := by
    intro _
    rw [etape_edgeDetector1]
    exact clk500ms_eq_zero h.suit
  front := by
    intro hj
    obtain ⟨i, rfl⟩ : ∃ i, j = i + 1 := ⟨j - 1, by omega⟩
    have hir : internalReset e.resetN ≠ .one := by simp [internalReset, hr]
    rw [clkDetectedEdge, etape_edgeDetector1, EdgeDetector.front_detected,
      h.retard (by omega), clk500ms_eq_one h.suit, Nat.add_sub_cancel]
    rw [and_iff_right hir, trajectoire_franchit (by omega) (by omega), periode_seconde]
    omega

end

/-! ## The distance from state 0 -/

/-- The number of edges it takes from state 0, at least. -/
def rang : Etat → ℕ
  | .e0 => 0
  | .e1 | .e2 | .e3 => 1
  | .e4 | .e5 => 2
  | .e6 | .e7 | .e8 | .e9 | .e10 | .e11 | .e12 | .e13 => 3

theorem rang_etatSuivant (s : GestionBoutton) (q : Etat) :
    rang (s.etatSuivant q) ≤ rang q + 1 := by
  cases q <;> simp only [etatSuivant] <;> split_ifs <;> decide

theorem rang_etape (e : GestionEntrees) (s : GestionBoutton) :
    rang (etape e s).presentState ≤ rang s.presentState + 1 := by
  by_cases h0 : (etape e s).presentState = .e0
  · rw [h0]
    exact Nat.zero_le _
  · rw [(etape_ne_e0 h0).2]
    refine (rang_etatSuivant s _).trans (Nat.add_le_add_right ?_ 1)
    rw [etatAvant]
    split_ifs
    · exact le_rfl
    · exact Nat.zero_le _

/-- The clock is being cleared, in state 0; or it runs, and has done at least
one edge less than `present_State`. -/
def Horloge : Minuterie → GestionBoutton → Prop
  | .efface, s => Represente 9999 4999 .efface s.timer2hz ∧ rang s.presentState = 0
  | .marche j, s => Avance j s ∧ rang s.presentState ≤ j + 1

theorem Horloge.etape {m : Minuterie} {s : GestionBoutton} (h : Horloge m s)
    (e : GestionEntrees) : ∃ m', Horloge m' (etape e s) := by
  cases hr : e.resetN with
  | false =>
      refine ⟨.efface, ?_, ?_⟩
      · rw [etape_timer2hz]
        exact efface_of_reset (ports2hz_reset.mpr hr)
      · rw [etape_presentState, if_pos hr]
        rfl
  | true =>
      have hrang := rang_etape e s
      cases m with
      | efface =>
          refine ⟨.marche 0, avance_zero h.1 hr, ?_⟩
          rwa [h.2] at hrang
      | marche j => exact ⟨.marche (j + 1), h.1.etape hr, hrang.trans (Nat.add_le_add_right h.2 1)⟩

theorem avance_powerOn (u : PowerUp) : Avance 0 (powerOn u) where
  suit := suit_powerOn u (by omega)
  retard := fun h0 => absurd h0 (Nat.not_succ_le_zero 0)
  front := fun h0 => absurd h0 (Nat.not_succ_le_zero 1)

theorem horloge_cycle (n : ℕ) : ∃ m, Horloge m (cycle u w n) :=
  cycle_at (I := fun _ s => ∃ m, Horloge m s)
    ⟨.marche 0, avance_powerOn u, Nat.zero_le _⟩ (fun n ⟨_, hm⟩ => hm.etape (w n)) n

/-- In a press the position is at least 2: the pulse is the clock's. -/
theorem avance_of_rang {n : ℕ} (h : rang (cycle u w n).presentState = 3) :
    ∃ j, 2 ≤ j ∧ Avance j (cycle u w n) := by
  obtain ⟨m, hm⟩ := horloge_cycle (u := u) (w := w) n
  cases m with
  | efface => exact absurd (h.symm.trans hm.2) (by omega)
  | marche j =>
      refine ⟨j, ?_, hm.1⟩
      have := hm.2
      omega

/-! ## The pulses of a visit -/

/-- The number of cycles of `[a, b)` with a pulse of the 1 s clock. -/
def battements (u : PowerUp) (w : ℕ → GestionEntrees) (a b : ℕ) : ℕ :=
  pulses (fun k => (cycle u w k).clkDetectedEdge = .one) a b

section
variable {y j d : ℕ} (h : Avance j (cycle u w y)) (hj : 2 ≤ j)
  (hr : ∀ k, k < d → SansReset (w (y + k)))

include h hr

theorem avance_run {k : ℕ} (hk : k ≤ d) : Avance (j + k) (cycle u w (y + k)) :=
  cycle_window (I := fun k => Avance (j + k)) h (fun k hk ha => ha.etape (hr k hk).2) k hk

include hj

theorem battement_iff {k : ℕ} (hk : k ≤ d) : (cycle u w (y + k)).clkDetectedEdge = .one ↔
    50000002 ≤ j + k ∧ (j + k) % 50000000 = 2 :=
  (avance_run h hr hk).front (by omega)

/-- No two pulses within a period. -/
theorem battements_le_un {k : ℕ} (hk : k ≤ d) (hM : k ≤ 50000000) :
    battements u w y (y + k) ≤ 1 := by
  refine pulses_spaced (d := 50000000) (by omega) ?_ (by omega)
  intro a b ha hab hb h1 h2
  obtain ⟨a, rfl⟩ : ∃ i, a = y + i := ⟨a - y, by omega⟩
  obtain ⟨b, rfl⟩ : ∃ i, b = y + i := ⟨b - y, by omega⟩
  obtain ⟨-, h1⟩ := (battement_iff h hj hr (by omega)).mp h1
  obtain ⟨-, h2⟩ := (battement_iff h hj hr (by omega)).mp h2
  omega

/-- Two pulses at least within two periods and a cycle. -/
theorem deux_battements (hd : 100000001 ≤ d) : 2 ≤ battements u w y (y + d) := by
  obtain ⟨i, hi, hpos⟩ : ∃ i, i ≤ 50000000 ∧
      50000002 ≤ j + i ∧ (j + i) % 50000000 = 2 :=
    ⟨((j - 2) / 50000000 + 1) * 50000000 + 2 - j, by omega, by omega, by omega⟩
  obtain ⟨i', hi'⟩ : ∃ i', i' = i + 50000000 := ⟨_, rfl⟩
  have h1 : (cycle u w (y + i)).clkDetectedEdge = .one :=
    (battement_iff h hj hr (by omega)).mpr hpos
  have h2 : (cycle u w (y + i')).clkDetectedEdge = .one :=
    (battement_iff h hj hr (by omega)).mpr ⟨by omega, by omega⟩
  have hsplit : battements u w y (y + d) =
      battements u w y (y + i') + battements u w (y + i') (y + d) :=
    pulses_add (by omega) (by omega)
  have hun : 1 ≤ battements u w y (y + i') :=
    pulses_pos (u := y + i) (by omega) (by omega) h1
  have hdeux : 1 ≤ battements u w (y + i') (y + d) :=
    pulses_pos (u := y + i') le_rfl (by omega) h2
  omega

end

/-- While `reset_Delay` is not '1', `Delay` counts the pulses. -/
theorem delay_succ {n : ℕ} (hr : (cycle u w n).sorties.resetDelay ≠ .one) :
    (cycle u w (n + 1)).delay =
      if (cycle u w n).clkDetectedEdge = .one then (cycle u w n).delay + 1
      else (cycle u w n).delay := by
  rw [cycle_succ, etape_delay, compteur_one, if_neg hr]

end BarreFranche.GestionBoutton
