/-
# `AnemometreDemande` — requests and measurements in single-shot mode

With `continu` at '0' a measurement should answer a request, a 0-to-1
transition of `start_stop`, and each request should get one at most.  Two
things stand against it: `timer_enable` powers up at '1', so the first window
runs unasked, and it is set by the level of `start_stop`, with priority over
the stop, so a request that is still held at a publication is served again.

Without resets the publications are a function of `start_stop` alone
(`publie_iff`):

    the first            at cycle 50,000,002
    after one at `p`     at max (p+2) f + 50,000,003, where `f` is the first
                         edge from `p` on that samples `start_stop` at '1'

and so is the condition for the discipline to hold (`discipline_iff`).
-/
import BarreFranche.AnemometreMesure

namespace BarreFranche.Anemometre

open Synchrone

/-- `start_stop` is sampled '1' at an edge and '0' at the edge before ('0'
before power-on). -/
def debutDemande (w : ℕ → AnemometreEntrees) : ℕ → Bool
  | 0 => (w 0).startStop
  | k + 1 => (w (k + 1)).startStop && !(w k).startStop

/-- The requests of the first `t` edges. -/
def demandes (w : ℕ → AnemometreEntrees) (t : ℕ) : ℕ :=
  pulses (fun k => debutDemande w k = true) 0 t

/-- The publications of the first `t` edges. -/
def publications (u : PowerUp) (w : ℕ → AnemometreEntrees) (t : ℕ) : ℕ :=
  pulses (fun k => (cycle u w k).second = .one) 0 t

/-- `Echeance w i p`: going by `start_stop`, the window number `i` (from 0) ends
at cycle `p`. -/
inductive Echeance (w : ℕ → AnemometreEntrees) : ℕ → ℕ → Prop
  | premiere : Echeance w 0 50000002
  | suivante {i p f : ℕ} :
      Echeance w i p →
      p ≤ f →
      (w f).startStop = true →
      (∀ k, p ≤ k → k < f → (w k).startStop = false) →
      Echeance w (i + 1) (max (p + 2) f + 50000003)

variable {u : PowerUp} {w : ℕ → AnemometreEntrees}

section
variable (hc : ∀ k, (w k).continu = false) (hr : ∀ k, (w k).resetN = true)

include hc in
/-- Until the next request there is no other publication. -/
theorem sansDemande_silence {p f : ℕ} (hsec : (cycle u w p).second = .one)
    (hoff : ∀ k, p ≤ k → k < f → (w k).startStop = false) {k : ℕ} (hk : p < k)
    (hkf : k ≤ f + 1) : (cycle u w k).second ≠ .one := by
  have hidle : ∀ j, p < j → j ≤ f → (cycle u w j).timerEnable = .zero := by
    intro j hj
    exact arret_apres hsec (fun i hi hi' => ⟨hc i, hoff i hi hi'⟩) hj
  exact (eteint_run hsec hidle hk hkf).2

include hr

/-- No publication before the end of the first window. -/
theorem premiere_silence {k : ℕ} (hk : k < 50000002) : (cycle u w k).second ≠ .one := by
  have h0 : Fenetre 0 (cycle u w 0) := (repos_powerOn u).fenetre rfl
  exact (fenetre_publie h0 (fun j _ => hr (0 + j))).2 k (Nat.zero_le k) (by omega)

/-- A request sampled while the timer is still being cleared: the window opens
three cycles after the publication. -/
theorem relance_efface {p f : ℕ} (hsec : (cycle u w p).second = .one) (hpf : p ≤ f)
    (hf : f ≤ p + 2) (hon : (w f).startStop = true) :
    (cycle u w (p + 3 + 50000002)).second = .one ∧
      ∀ k, p < k → k < p + 3 + 50000002 → (cycle u w k).second ≠ .one := by
  obtain ⟨h3, -⟩ := reprise hsec (hr _) (hr _)
  have hsil : ∀ k, p < k → k < p + 3 → (cycle u w k).second ≠ .one :=
    fun k => reprise_silence hsec (hr _) (hr _)
  -- nothing stops the timer before the window opens
  have hgarde : ∀ k, f + 1 ≤ k → k ≤ p + 3 → (cycle u w k).timerEnable = .one := by
    intro k hk
    induction k, hk using Nat.le_induction with
    | base => exact fun _ => (front_timerEnable _ _).mpr (Or.inl (Or.inr hon))
    | succ k hk ih =>
        intro hk3
        exact (front_timerEnable _ _).mpr
          (Or.inr ⟨hsil k (by omega) (by omega), ih (by omega)⟩)
  obtain ⟨hpub, hno⟩ := fenetre_publie
    (h3.fenetre (hgarde (p + 3) (by omega) le_rfl)) fun k _ => hr (p + 3 + k)
  refine ⟨hpub, ?_⟩
  intro k hk hk'
  rcases Nat.lt_or_ge k (p + 3) with hlt | hge
  · exact hsil k hk hlt
  · exact hno k hge hk'

include hc

/-- A request at `f` that finds the timer at rest: the window opens at once. -/
theorem relance_repos {p f : ℕ} (hsec : (cycle u w p).second = .one) (hf : p + 2 ≤ f)
    (hon : (w f).startStop = true)
    (hoff : ∀ k, p ≤ k → k < f → (w k).startStop = false) :
    (cycle u w (f + 1 + 50000002)).second = .one ∧
      ∀ k, p < k → k < f + 1 + 50000002 → (cycle u w k).second ≠ .one := by
  obtain ⟨-, -, hpub, hno⟩ := monocoup_publie hr hc hf hsec hoff hon
  refine ⟨hpub, ?_⟩
  intro k hk hk'
  rcases Nat.lt_or_ge f k with hlt | hge
  · exact hno k hlt hk'
  · exact sansDemande_silence hc hsec hoff hk (by omega)

/-- The next publication, when `f` is the first edge from `p` on with a
request. -/
theorem relance {p f : ℕ} (hsec : (cycle u w p).second = .one) (hpf : p ≤ f)
    (hon : (w f).startStop = true)
    (hoff : ∀ k, p ≤ k → k < f → (w k).startStop = false) :
    (cycle u w (max (p + 2) f + 50000003)).second = .one ∧
      ∀ k, p < k → k < max (p + 2) f + 50000003 → (cycle u w k).second ≠ .one := by
  rcases Nat.le_total f (p + 2) with hle | hge
  · rw [Nat.max_eq_left hle, show p + 2 + 50000003 = p + 3 + 50000002 by omega]
    exact relance_efface hr hsec hpf hle hon
  · rw [Nat.max_eq_right hge, show f + 50000003 = f + 1 + 50000002 by omega]
    exact relance_repos hc hr hsec hge hon hoff

/-! ## The schedule -/

/-- Every term of the schedule is a publication, and its number is right. -/
theorem Echeance.publie {i p : ℕ} (h : Echeance w i p) :
    (cycle u w p).second = .one ∧ publications u w (p + 1) = i + 1 := by
  induction h with
  | premiere =>
      have hpub : (cycle u w 50000002).second = .one := premiere_publication fun k _ => hr k
      refine ⟨hpub, ?_⟩
      unfold publications
      rw [pulses_succ (Nat.zero_le _), if_pos hpub,
        pulses_eq_zero fun k _ hk => premiere_silence hr hk]
  | @suivante i p f _ hpf hon hoff ih =>
      obtain ⟨hsec, hcount⟩ := ih
      obtain ⟨hpub, hno⟩ := relance hc hr hsec hpf hon hoff
      refine ⟨hpub, ?_⟩
      unfold publications at hcount ⊢
      rw [pulses_succ (Nat.zero_le _), if_pos hpub,
        pulses_add (b := p + 1) (Nat.zero_le _) (by omega), hcount,
        pulses_eq_zero fun k hk hk' => hno k (by omega) hk']

/-- Every publication is on the schedule.  The induction goes from one
publication to the last before it. -/
theorem echeance_de_publie (t : ℕ) (hs : (cycle u w t).second = .one) : ∃ i, Echeance w i t := by
  induction t using Nat.strong_induction_on with
  | _ t ih =>
      rcases neuf_ou_publie (u := u) (w := w) t with hnone | ⟨q, hq⟩
      · -- the first publication of the run
        have hfirst : (cycle u w 50000002).second = .one := premiere_publication fun k _ => hr k
        have ht : t = 50000002 := by
          rcases Nat.lt_trichotomy t 50000002 with hlt | heq | hgt
          · exact absurd hs (premiere_silence hr hlt)
          · exact heq
          · exact absurd hfirst (hnone _ hgt)
        exact ⟨0, ht ▸ .premiere⟩
      · -- some request restarted the timer, and the first of them says when
        obtain ⟨i, hi⟩ := ih q hq.avant hq.pulse
        have hex : ∃ f, q ≤ f ∧ (w f).startStop = true := by
          by_contra hnot
          refine sansDemande_silence hc hq.pulse (f := t) ?_ hq.avant (by omega) hs
          intro k hk _
          exact Bool.eq_false_iff.mpr fun h => hnot ⟨k, hk, h⟩
        obtain ⟨hqf, hon⟩ := Nat.find_spec hex
        have hoff : ∀ k, q ≤ k → k < Nat.find hex → (w k).startStop = false := by
          intro k hk hk'
          exact Bool.eq_false_iff.mpr fun h => Nat.find_min hex hk' ⟨hk, h⟩
        obtain ⟨hpub, hsil⟩ := relance hc hr hq.pulse hqf hon hoff
        have ht : t = max (q + 2) (Nat.find hex) + 50000003 := by
          rcases Nat.lt_trichotomy t (max (q + 2) (Nat.find hex) + 50000003) with hlt | heq | hgt
          · exact absurd hs (hsil t hq.avant hlt)
          · exact heq
          · exact absurd hpub (hq.silence _ (by omega) hgt)
        exact ⟨i + 1, ht ▸ hi.suivante hqf hon hoff⟩

/-- **The schedule**: the publications are its terms. -/
theorem publie_iff (t : ℕ) : (cycle u w t).second = .one ↔ ∃ i, Echeance w i t := by
  constructor
  · exact echeance_de_publie hc hr t
  · rintro ⟨i, h⟩
    exact (h.publie hc hr).1

/-- **The single-shot discipline.**  There are never more publications than
requests iff for every `i` the window number `i` of the schedule ends with more
than `i` requests made. -/
theorem discipline_iff :
    (∀ t, publications u w t ≤ demandes w t) ↔
      ∀ i p, Echeance w i p → i < demandes w (p + 1) := by
  constructor
  · intro h i p hp
    obtain ⟨-, hcount⟩ := hp.publie hc hr (u := u)
    have := h (p + 1)
    omega
  · intro h t
    induction t with
    | zero => simp [publications]
    | succ t ih =>
        by_cases hs : (cycle u w t).second = .one
        · obtain ⟨i, hi⟩ := (publie_iff hc hr t).mp hs
          rw [(hi.publie hc hr).2]
          exact h i t hi
        · have hpub : publications u w (t + 1) = publications u w t := by
            unfold publications
            rw [pulses_succ (Nat.zero_le t), if_neg hs, Nat.add_zero]
          rw [hpub]
          exact ih.trans (pulses_mono (Nat.zero_le t) (Nat.le_succ t))

end

/-- One request, at edge 10. -/
def uneDemande : ℕ → AnemometreEntrees := fun k => ⟨false, true, false, decide (k = 10)⟩

/-- It is answered by the first window, and no other one follows. -/
theorem discipline_iff_temoin :
    1 ≤ publications .fpga uneDemande 50000003 ∧
      ∀ t, publications .fpga uneDemande t ≤ demandes uneDemande t := by
  constructor
  · exact pulses_pos (u := 50000002) (by omega) (by omega) (premiere_publication fun _ _ => rfl)
  · refine (discipline_iff (fun _ => rfl) (fun _ => rfl)).mpr ?_
    intro i p h
    have hfin : p = 50000002 ∧ i = 0 := by
      induction h with
      | premiere => exact ⟨rfl, rfl⟩
      | suivante _ hpf hon _ ih =>
          rw [uneDemande, decide_eq_true_eq] at hon
          exact absurd hpf (by omega)
    rw [hfin.1, hfin.2]
    exact pulses_pos (u := 10) (by omega) (by omega) (by decide)

/-- **A measurement nobody asked for**: `start_stop` is never '1', and the
window that power-on has started is published. -/
theorem mesure_sansDemande :
    (∀ k, (sansDemande k).continu = false ∧ (sansDemande k).resetN = true) ∧
      demandes sansDemande 50000003 = 0 ∧ 1 ≤ publications .fpga sansDemande 50000003 := by
  refine ⟨fun _ => ⟨rfl, rfl⟩, ?_, ?_⟩
  · refine pulses_eq_zero ?_
    intro k _ _ hk
    cases k <;> simp [debutDemande, sansDemande] at hk
  · exact pulses_pos (u := 50000002) (by omega) (by omega) (premiere_publication fun _ _ => rfl)

end BarreFranche.Anemometre
