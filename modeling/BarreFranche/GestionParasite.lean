/-
# `GestionParasite` — a glitch of one button

A glitch is a level that a button shows at one tick and neither at the tick
before nor at the next.  It should change nothing: not the debounced level of the
button, and not `codeFonction`, which is compared with the run without it.

The three buttons are taken over together or not at all, so between two ticks
`BP_*` are the levels of the last tick or their opposites (`accord_cycle`).  A
glitch that is not taken over was refused because all three buttons had just
changed; without it the other two would have been taken over at once.  So the two
runs show the state machine different levels until the next tick (of the other
two, when the glitch leaves the debounced level), or until the button has been
stable again (of all three, when it goes back to it), and they stay together if
the state machine does not look (`Tolere`, `antirebond_iff`).
-/
import BarreFranche.GestionRebond

namespace BarreFranche.GestionBoutton

open Synchrone

/-! ## Two states apart from the debouncer -/

/-- The same contents but for `BP_*` and `PB_*_d`. -/
structure Semblables (s t : GestionBoutton) : Prop where
  presentState : t.presentState = s.presentState
  timer2hz : t.timer2hz = s.timer2hz
  timerPwm : t.timerPwm = s.timerPwm
  timerBip : t.timerBip = s.timerBip
  timerDebounce : t.timerDebounce = s.timerDebounce
  edgeDetector1 : t.edgeDetector1 = s.edgeDetector1
  delay : t.delay = s.delay
  sorties : t.sorties = s.sorties

/-- The edge takes `present_State` to the same next state if `BP_*` are `p`. -/
def Indifferent (e : GestionEntrees) (s : GestionBoutton) (p : Boutons StdLogic) : Prop :=
  e.resetN = false ∨
    etatSuivant { s with bp := p } (etatAvant e s) = s.etatSuivant (etatAvant e s)

section
variable {s t : GestionBoutton} {e e' : GestionEntrees}

theorem Semblables.refl (s : GestionBoutton) : Semblables s s :=
  ⟨rfl, rfl, rfl, rfl, rfl, rfl, rfl, rfl⟩

theorem Indifferent.refl (e : GestionEntrees) (s : GestionBoutton) : Indifferent e s s.bp :=
  Or.inr rfl

theorem Semblables.eq_with (h : Semblables s t) : t = { s with bp := t.bp, pbD := t.pbD } := by
  obtain ⟨h1, h2, h3, h4, h5, h6, h7, h8⟩ := h
  cases s
  cases t
  simp only at *
  rw [h1, h2, h3, h4, h5, h6, h7, h8]

/-- With the debouncer they are the same. -/
theorem Semblables.eq (h : Semblables s t) (hbp : t.bp = s.bp) (hpbD : t.pbD = s.pbD) : t = s := by
  rw [h.eq_with, hbp, hpbD]

theorem Semblables.etatSuivant (h : Semblables s t) (q : Etat) :
    t.etatSuivant q = GestionBoutton.etatSuivant { s with bp := t.bp } q := by
  rw [h.eq_with]
  cases q <;> rfl

theorem Semblables.affecte (h : Semblables s t) (q : Etat) : t.affecte q = s.affecte q := by
  rw [h.eq_with]
  cases q <;> rfl

/-- One cycle with the same levels of `reset_n`, whatever the buttons. -/
theorem Semblables.etape (h : Semblables s t) (hniv : e'.niveaux = e.niveaux)
    (hres : e'.resetN = e.resetN) (hq : Indifferent e s t.bp) :
    Semblables (etape e s) (etape e' t) := by
  have havant : etatAvant e' t = etatAvant e s := by
    rw [etatAvant, etatAvant, h.presentState]
    exact if_congr (by rw [SansReset, SansReset, hniv, hres]) rfl rfl
  have hetat : (GestionBoutton.etape e' t).presentState =
      (GestionBoutton.etape e s).presentState := by
    rw [etape_presentState, etape_presentState, havant, hres, h.etatSuivant]
    split_ifs with hr
    · rfl
    · exact hq.resolve_left hr
  refine ⟨hetat, ?_, ?_, ?_, ?_, ?_, ?_, ?_⟩
  · rw [etape_timer2hz, etape_timer2hz, hres, h.timer2hz]
  · rw [etape_timerPwm, etape_timerPwm, hres, h.timerPwm]
  · rw [etape_timerBip, etape_timerBip, portsBip, portsBip, notBipResetN, notBipResetN, h.sorties,
      h.timerBip]
  · rw [etape_timerDebounce, etape_timerDebounce, h.timerDebounce]
  · rw [etape_edgeDetector1, etape_edgeDetector1, hres, clk500ms, clk500ms, h.edgeDetector1,
      h.timer2hz]
  · rw [etape_delay, etape_delay, clkDetectedEdge, clkDetectedEdge, h.sorties, h.edgeDetector1,
      h.delay]
  · rw [etape_sorties, etape_sorties, hres, hetat, h.sorties, h.affecte]

end

/-! ## Taken over together -/

/-- The opposite levels. -/
def oppose (p : Boutons Bool) : Boutons Bool := ⟨!p.babord, !p.tribord, !p.stby⟩

@[simp] theorem oppose_oppose (p : Boutons Bool) : oppose (oppose p) = p := by
  simp [oppose]

@[simp] theorem get_oppose (p : Boutons Bool) (c : Bouton) : (oppose p).get c = !p.get c := by
  cases c <;> rfl

/-- `BP_*` are the levels of the last tick, or their opposites, or still 'U'. -/
inductive Accord (s : GestionBoutton) : Prop
  | pris (p : Boutons Bool) : s.pbD = p.niveaux → s.bp = p.niveaux → Accord s
  | refuse (p : Boutons Bool) : s.pbD = p.niveaux → s.bp = (oppose p).niveaux → Accord s
  | neuf : s.bp = ⟨.U, .U, .U⟩ → Accord s

/-- No button is stable: all three show the opposite of the last tick. -/
theorem oppose_de_refus {s : GestionBoutton} {p pb : Boutons Bool} (hd : s.pbD = p.niveaux)
    (h : ¬ Stable pb s) : pb = oppose p := by
  have hne : ∀ c : Bouton, p.get c ≠ pb.get c := by
    intro c hc
    exact h (stable_iff.mpr ⟨c, by rw [hd, Boutons.get_niveaux, hc]⟩)
  have hb := hne .babord
  have ht := hne .tribord
  have hs := hne .stby
  obtain ⟨b1, t1, s1⟩ := p
  obtain ⟨b2, t2, s2⟩ := pb
  simp only [Boutons.get] at hb ht hs
  simp [oppose, Bool.eq_not_of_ne (Ne.symm hb), Bool.eq_not_of_ne (Ne.symm ht),
    Bool.eq_not_of_ne (Ne.symm hs)]

variable {u : PowerUp} {w : ℕ → GestionEntrees}

/-- Three opposite levels are refused, and once more opposite they agree again. -/
theorem accord_cycle (n : ℕ) : Accord (cycle u w n) := by
  induction n with
  | zero =>
      cases u
      · exact .neuf rfl
      · exact .pris ⟨false, false, false⟩ rfl rfl
  | succ n ih =>
      have hd := pbD_succ (u := u) (w := w) n
      have hb := bp_succ (u := u) (w := w) n
      by_cases ht : (cycle u w n).miliS = .one
      · rw [if_pos ht] at hd
        by_cases hst : Stable (w n).pb (cycle u w n)
        · rw [if_pos ⟨ht, hst⟩] at hb
          exact .pris _ hd hb
        · rw [if_neg fun h => hst h.2] at hb
          cases ih with
          | pris p hp hbp =>
              have hop := oppose_de_refus hp hst
              rw [hop] at hd
              exact .refuse _ hd (by rw [hb, hbp, oppose_oppose])
          | refuse p hp hbp =>
              have hop := oppose_de_refus hp hst
              rw [hop] at hd
              exact .pris _ hd (hb.trans hbp)
          | neuf hU => exact .neuf (hb.trans hU)
      · rw [if_neg ht] at hd
        rw [if_neg fun h => ht h.1] at hb
        cases ih with
        | pris p hp hbp => exact .pris p (hd.trans hp) (hb.trans hbp)
        | refuse p hp hbp => exact .refuse p (hd.trans hp) (hb.trans hbp)
        | neuf hU => exact .neuf (hb.trans hU)

/-! ## The glitch and the run without it -/

/-- Button `b` shows a glitch at the tick after the `k`-th: it leaves its level
and is back at the next tick. -/
structure Parasite (w : ℕ → GestionEntrees) (b : Bouton) (k : ℕ) : Prop where
  un_le : 1 ≤ k
  depart : (w (tic (k + 1))).pb.get b ≠ (w (tic k)).pb.get b
  retour : (w (tic (k + 2))).pb.get b = (w (tic k)).pb.get b

/-- The levels `p` with `v` for button `b`. -/
def pose (p : Boutons Bool) (b : Bouton) (v : Bool) : Boutons Bool :=
  match b with
  | .babord => { p with babord := v }
  | .tribord => { p with tribord := v }
  | .stby => { p with stby := v }

@[simp] theorem get_pose (p : Boutons Bool) (b : Bouton) (v : Bool) : (pose p b v).get b = v := by
  cases b <;> rfl

/-- The same pins, but button `b` keeps the level of the `k`-th tick at the next one. -/
def sansParasite (w : ℕ → GestionEntrees) (b : Bouton) (k n : ℕ) : GestionEntrees :=
  if n = tic (k + 1) then { w n with pb := pose (w n).pb b ((w (tic k)).pb.get b) } else w n

/-- What the state machine must not look at for the glitch to pass.

* `BP` of the button is at its level of before: up to the next tick, the other
  two buttons.
* Otherwise: all three, until the button shows one level at two ticks in a row. -/
structure Tolere (u : PowerUp) (w : ℕ → GestionEntrees) (b : Bouton) (k : ℕ) : Prop where
  pris : (cycle u w (tic (k + 1))).bp.get b = .ofBool ((w (tic k)).pb.get b) →
    ∀ n, tic (k + 1) < n → n ≤ tic (k + 2) → ∀ p : Boutons StdLogic,
      p.get b = (cycle u w n).bp.get b → Indifferent (w n) (cycle u w n) p
  refuse : (cycle u w (tic (k + 1))).bp.get b ≠ .ofBool ((w (tic k)).pb.get b) →
    ∀ n, tic (k + 1) < n →
      (∀ j, k + 2 ≤ j → tic (j + 1) < n →
        (w (tic (j + 1))).pb.get b ≠ (w (tic j)).pb.get b) →
      ∀ p, Indifferent (w n) (cycle u w n) p

/-- The debounced level of the button stays as it was before the glitch up to the
second tick after it, and `codeFonction` is at every cycle as without the glitch. -/
structure SansEffet (u : PowerUp) (w : ℕ → GestionEntrees) (b : Bouton) (k : ℕ) : Prop where
  bp : ∀ n, tic (k + 1) ≤ n → n ≤ tic (k + 3) →
    (cycle u w n).bp.get b = (cycle u w (tic (k + 1))).bp.get b
  codeFonction : ∀ n, (cycle u w n).sorties.codeFonction =
    (cycle u (sansParasite w b k) n).sorties.codeFonction

/-- A level of button `b` is taken over only if it was seen at two ticks in a row,
and a glitch of `b` has no effect. -/
structure Antirebond (u : PowerUp) (w : ℕ → GestionEntrees) (b : Bouton) : Prop where
  filtre : Filtre u w b
  parasite : ∀ k, Parasite w b k → SansEffet u w b k

section
variable {b : Bouton} {k : ℕ}

theorem sansParasite_ne {n : ℕ} (h : n ≠ tic (k + 1)) : sansParasite w b k n = w n := if_neg h

theorem sansParasite_resets (n : ℕ) : (sansParasite w b k n).niveaux = (w n).niveaux ∧
    (sansParasite w b k n).resetN = (w n).resetN := by
  unfold sansParasite
  split <;> exact ⟨rfl, rfl⟩

theorem sansParasite_get :
    (sansParasite w b k (tic (k + 1))).pb.get b = (w (tic k)).pb.get b := by
  rw [sansParasite, if_pos rfl]
  exact get_pose _ _ _

/-- Up to the glitch the two runs are one. -/
theorem cycle_avantParasite (n : ℕ) (hn : n ≤ tic (k + 1)) :
    cycle u (sansParasite w b k) n = cycle u w n :=
  run_debut fun _ hm => sansParasite_ne (hm.trans_le hn).ne

/-- Two runs that differ in a glitch stay together apart from the debouncer, if as
long as `E` holds the state machine does not see the difference, and the debouncers
agree when it ends. -/
theorem semblables_run {E : ℕ → Prop} (h0 : E (tic (k + 1) + 1))
    (hind : ∀ n, tic (k + 1) < n → E n →
      Indifferent (w n) (cycle u w n) (cycle u (sansParasite w b k) n).bp)
    (hfin : ∀ n, tic (k + 1) < n → E n → ¬ E (n + 1) →
      (cycle u (sansParasite w b k) (n + 1)).bp = (cycle u w (n + 1)).bp ∧
        (cycle u (sansParasite w b k) (n + 1)).pbD = (cycle u w (n + 1)).pbD) (n : ℕ) :
    Semblables (cycle u w n) (cycle u (sansParasite w b k) n) := by
  rcases Nat.lt_or_ge (tic (k + 1)) n with hn | hn
  · have hrun : (E n ∧ Semblables (cycle u w n) (cycle u (sansParasite w b k) n)) ∨
        cycle u (sansParasite w b k) n = cycle u w n := by
      induction n, hn using Nat.le_induction with
      | base =>
          left
          refine ⟨h0, ?_⟩
          rw [cycle_succ, cycle_succ, cycle_avantParasite _ le_rfl]
          obtain ⟨hniv, hres⟩ := sansParasite_resets (w := w) (b := b) (k := k) (tic (k + 1))
          exact (Semblables.refl _).etape hniv hres (Indifferent.refl _ _)
      | succ n hn ih =>
          have hne : n ≠ tic (k + 1) := (Nat.lt_of_succ_le hn).ne'
          rcases ih with ⟨hE, hj⟩ | heq
          · have hnext :
                Semblables (cycle u w (n + 1)) (cycle u (sansParasite w b k) (n + 1)) := by
              rw [cycle_succ, cycle_succ, sansParasite_ne hne]
              exact hj.etape rfl rfl (hind n hn hE)
            by_cases hE' : E (n + 1)
            · exact Or.inl ⟨hE', hnext⟩
            · obtain ⟨hbp, hd⟩ := hfin n hn hE hE'
              exact Or.inr (hnext.eq hbp hd)
          · right
            rw [cycle_succ, cycle_succ, heq, sansParasite_ne hne]
    rcases hrun with ⟨-, hj⟩ | heq
    · exact hj
    · rw [heq]
      exact Semblables.refl _
  · rw [cycle_avantParasite n hn]
    exact Semblables.refl _

/-- At tick `j` the register shows the raw levels of the tick before. -/
theorem pbD_tic_succ {j : ℕ} (hj : 1 ≤ j) :
    (cycle u w (tic (j + 1))).pbD = (w (tic j)).pb.niveaux :=
  pbD_tic hj (tic_lt j.lt_succ_self) le_rfl

theorem bp_tic_succ {j : ℕ} (hj : 1 ≤ j) : (cycle u w (tic j + 1)).bp =
    if Stable (w (tic j)).pb (cycle u w (tic j)) then (w (tic j)).pb.niveaux
    else (cycle u w (tic j)).bp := by
  rw [bp_succ]
  exact if_congr (and_iff_right (miliS_tic hj)) rfl rfl

/-- A button that shows the level of the tick before is stable. -/
theorem stable_tic {j : ℕ} (hj : 1 ≤ j) (h : (w (tic (j + 1))).pb.get b = (w (tic j)).pb.get b) :
    Stable (w (tic (j + 1))).pb (cycle u w (tic (j + 1))) := by
  refine stable_iff.mpr ⟨b, ?_⟩
  rw [pbD_tic_succ hj, Boutons.get_niveaux, h]

/-- After any tick but the one of the glitch the raw levels are the same in both runs,
and so is what `PB_*_d` keep of them. -/
theorem pbD_commun {j : ℕ} (hj : k + 1 < j) :
    (cycle u (sansParasite w b k) (tic j + 1)).pbD = (cycle u w (tic j + 1)).pbD := by
  have ht := (miliS_iff (u := u) (w := w) (tic j)).mpr ⟨j, by omega, rfl⟩
  have ht' := (miliS_iff (u := u) (w := sansParasite w b k) (tic j)).mpr ⟨j, by omega, rfl⟩
  rw [pbD_succ, pbD_succ, if_pos ht, if_pos ht', sansParasite_ne (tic_ne hj.ne')]

/-- Two stable ticks in a row bring both runs together. -/
theorem bp_commun {j : ℕ} (hj : k + 2 ≤ j)
    (h : (w (tic (j + 1))).pb.get b = (w (tic j)).pb.get b) :
    (cycle u (sansParasite w b k) (tic (j + 1) + 1)).bp = (cycle u w (tic (j + 1) + 1)).bp := by
  have hne : sansParasite w b k (tic (j + 1)) = w (tic (j + 1)) :=
    sansParasite_ne (tic_ne (by omega))
  have hne' : sansParasite w b k (tic j) = w (tic j) := sansParasite_ne (tic_ne (by omega))
  rw [bp_tic_succ (by omega), bp_tic_succ (by omega), if_pos (stable_tic (by omega) h),
    if_pos (stable_tic (by omega) (by rw [hne, hne', h])), hne]

section
variable (h : Parasite w b k)

include h

/-- Without the glitch the button is stable at that tick, and all three are taken
over. -/
theorem bp_sansParasite : (cycle u (sansParasite w b k) (tic (k + 1) + 1)).bp =
    (sansParasite w b k (tic (k + 1))).pb.niveaux := by
  rw [bp_tic_succ (by omega), if_pos]
  refine stable_tic (b := b) h.un_le ?_
  rw [sansParasite_get, sansParasite_ne (tic_ne (by omega))]

variable (hr : ∀ t, SansRebond b (w t) (cycle u w t))

include hr

/-- A glitch that leaves the debounced level is refused. -/
theorem parasite_refuse
    (hset : (cycle u w (tic (k + 1))).bp.get b = .ofBool ((w (tic k)).pb.get b)) :
    ¬ Stable (w (tic (k + 1))).pb (cycle u w (tic (k + 1))) := by
  have hne : StdLogic.ofBool ((w (tic k)).pb.get b) ≠ .ofBool ((w (tic (k + 1))).pb.get b) := by
    rw [Ne, StdLogic.ofBool_inj]
    exact h.depart.symm
  have hd : (cycle u w (tic (k + 1))).pbD.get b = .ofBool ((w (tic k)).pb.get b) := by
    rw [pbD_tic_succ h.un_le, Boutons.get_niveaux]
  rcases hr (tic (k + 1)) (miliS_tic (by omega)) (by rw [hd]; exact hne) with h1 | h1
  · exact absurd (hset.symm.trans h1) hne
  · exact h1

/-- And with the next tick both runs have the same debounced levels again: if that
one is refused too, the buttons are back where they were before the glitch. -/
theorem bp_retour
    (hset : (cycle u w (tic (k + 1))).bp.get b = .ofBool ((w (tic k)).pb.get b)) :
    (cycle u (sansParasite w b k) (tic (k + 2) + 1)).bp = (cycle u w (tic (k + 2) + 1)).bp := by
  have hk := h.un_le
  have href := parasite_refuse h hr hset
  have hne : sansParasite w b k (tic (k + 2)) = w (tic (k + 2)) :=
    sansParasite_ne (tic_ne (by omega))
  have hst : Stable (sansParasite w b k (tic (k + 2))).pb
      (cycle u (sansParasite w b k) (tic (k + 2))) := by
    refine stable_tic (b := b) (by omega) ?_
    rw [hne, sansParasite_get, h.retour]
  rw [bp_tic_succ (by omega), if_pos hst, hne, bp_tic_succ (by omega)]
  split_ifs with h2
  · rfl
  · have hop1 := oppose_de_refus (pbD_tic_succ hk) href
    have hop2 := oppose_de_refus (pbD_tic_succ (by omega)) h2
    rw [hop2, hop1, oppose_oppose, bp_entre (tic_lt (by omega)) le_rfl, bp_tic_succ (by omega),
      if_neg href]
    have hd := pbD_tic_succ (u := u) (w := w) hk
    cases accord_cycle (u := u) (w := w) (tic (k + 1)) with
    | pris p hp hbp => rw [hbp, ← hp, hd]
    | refuse p hp hbp =>
        rw [hbp, Boutons.get_niveaux, get_oppose, StdLogic.ofBool_inj] at hset
        have hpb : StdLogic.ofBool (p.get b) = .ofBool ((w (tic k)).pb.get b) := by
          rw [← Boutons.get_niveaux, ← hp, hd, Boutons.get_niveaux]
        rw [StdLogic.ofBool_inj] at hpb
        rw [hpb] at hset
        exact absurd hset (Bool.not_ne_self _)
    | neuf hU =>
        rw [hU] at hset
        cases b <;> exact absurd hset.symm (StdLogic.ofBool_ne_U _)

omit h in
/-- A level that is not the one of the tick before is not taken over. -/
theorem bp_tient {j : ℕ} (hj : 1 ≤ j)
    (hne : (w (tic (j + 1))).pb.get b ≠ (w (tic j)).pb.get b) :
    (cycle u w (tic (j + 1) + 1)).bp.get b = (cycle u w (tic (j + 1))).bp.get b := by
  by_contra hch
  obtain ⟨ht, hst, hnew⟩ := bp_change hch
  have hd : (cycle u w (tic (j + 1))).pbD.get b ≠ .ofBool ((w (tic (j + 1))).pb.get b) := by
    rw [pbD_tic_succ hj, Boutons.get_niveaux, Ne, StdLogic.ofBool_inj]
    exact hne.symm
  rcases hr _ ht hd with h1 | h1
  · exact hch (hnew.trans h1.symm)
  · exact h1 hst

/-- The debounced level does not follow a glitch. -/
theorem bp_parasite (n : ℕ) (hn : tic (k + 1) ≤ n) (hn' : n ≤ tic (k + 3)) :
    (cycle u w n).bp.get b = (cycle u w (tic (k + 1))).bp.get b := by
  have hk := h.un_le
  have h1 := bp_tient hr hk h.depart
  have h2 := bp_tient hr (j := k + 1) (by omega) (by rw [h.retour]; exact h.depart.symm)
  rcases Nat.eq_or_lt_of_le hn with rfl | hlt
  · rfl
  · rcases Nat.lt_or_ge (tic (k + 2)) n with hlt2 | hle2
    · rw [bp_entre hlt2 hn', h2, bp_entre (tic_lt (by omega)) le_rfl, h1]
    · rw [bp_entre hlt hle2, h1]

/-- **A tolerated glitch** leaves the two runs together. -/
theorem semblables_parasite (ht : Tolere u w b k) (n : ℕ) :
    Semblables (cycle u w n) (cycle u (sansParasite w b k) n) := by
  have hk := h.un_le
  by_cases hset : (cycle u w (tic (k + 1))).bp.get b = .ofBool ((w (tic k)).pb.get b)
  · refine semblables_run (E := fun n => n ≤ tic (k + 2)) (tic_lt (by omega)) ?_ ?_ n
    · intro n hn hn2
      refine ht.pris hset n hn hn2 _ ?_
      rw [bp_entre hn hn2, bp_entre hn hn2, bp_sansParasite h, Boutons.get_niveaux,
        sansParasite_get, bp_tic_succ (by omega), if_neg (parasite_refuse h hr hset), hset]
    · intro n hn hn2 hlast
      obtain rfl : n = tic (k + 2) := by omega
      exact ⟨bp_retour h hr hset, pbD_commun (by omega)⟩
  · refine semblables_run (E := fun n => ∀ j, k + 2 ≤ j → tic (j + 1) < n →
      (w (tic (j + 1))).pb.get b ≠ (w (tic j)).pb.get b) ?_ ?_ ?_ n
    · intro j hj hlt
      have := tic_lt (show k + 1 < j + 1 by omega)
      omega
    · intro n hn hE
      exact ht.refuse hset n hn hE _
    · intro n hn hE hlast
      simp only [not_forall, not_not] at hlast
      obtain ⟨j, hj, hlt, heq⟩ := hlast
      have hnj : n = tic (j + 1) := by
        by_contra hne
        exact hE j hj (by omega) heq
      rw [hnj]
      exact ⟨bp_commun hj heq, pbD_commun (by omega)⟩

end

end

/-! ## A glitch that passes -/

/-- Port is held, with a glitch at the fourth tick; the other two buttons are
pressed at that tick, and stay so. -/
def tenu (n : ℕ) : GestionEntrees :=
  { niveaux := []
    resetN := true
    pb := ⟨decide (n = tic 4), decide (n < tic 4), decide (n < tic 4)⟩ }

theorem tenu_sansReset (n : ℕ) : SansReset (tenu n) := ⟨List.not_mem_nil, rfl⟩

theorem tenu_pb (j : ℕ) :
    (tenu (tic j)).pb = ⟨decide (j = 4), decide (j < 4), decide (j < 4)⟩ := by
  have h1 : tic j = tic 4 ↔ j = 4 := by
    unfold tic
    omega
  have h2 : tic j < tic 4 ↔ j < 4 := by
    unfold tic
    omega
  simp only [tenu, h1, h2]

/-- The glitch is refused: up to the fifth tick only port is pressed. -/
theorem tenu_bp {n : ℕ} (h2 : tic 2 < n) (h5 : n ≤ tic 5) :
    (cycle .simulation tenu n).bp = ⟨.zero, .one, .one⟩ := by
  have hstable : ∀ j, 1 ≤ j → j < 3 →
      (cycle .simulation tenu (tic (j + 1) + 1)).bp = ⟨.zero, .one, .one⟩ := by
    intro j hj hj3
    have hb : (tenu (tic (j + 1))).pb.get .babord = (tenu (tic j)).pb.get .babord := by
      rw [tenu_pb, tenu_pb]
      simp only [Boutons.get, decide_eq_decide]
      omega
    rw [bp_tic_succ (by omega), if_pos (stable_tic hj hb), tenu_pb]
    obtain rfl | rfl : j = 1 ∨ j = 2 := by omega
    · rfl
    · rfl
  have hrefus : (cycle .simulation tenu (tic 4 + 1)).bp = ⟨.zero, .one, .one⟩ := by
    rw [bp_tic_succ (by omega), if_neg, bp_entre (tic_lt (by omega)) le_rfl]
    · exact hstable 2 (by omega) (by omega)
    · rw [Stable, pbD_tic_succ (j := 3) (by omega), tenu_pb, tenu_pb]
      decide
  rcases Nat.lt_or_ge (tic 4) n with hlt | hge
  · rw [bp_entre hlt h5, hrefus]
  · rcases Nat.lt_or_ge (tic 3) n with hlt3 | hge3
    · rw [bp_entre hlt3 hge]
      exact hstable 2 (by omega) (by omega)
    · rw [bp_entre h2 hge3]
      exact hstable 1 (by omega) (by omega)

/-- Port in command, and waiting for its release. -/
theorem tenu_etat {n : ℕ} (h2 : tic 2 + 2 ≤ n) (h5 : n ≤ tic 5) :
    (cycle .simulation tenu n).presentState = .e1 := by
  have hveille : (cycle .simulation tenu (tic 2 + 1)).presentState = .e0 := by
    refine veille_run (d := tic 2 + 1) (fun k hk c => ?_) _ le_rfl
    rw [bp_debut (Nat.le_of_lt_succ hk)]
    cases c <;> decide
  have hdebut : (cycle .simulation tenu (tic 2 + 2)).presentState = .e1 := by
    rw [cycle_succ, etape_sansReset (tenu_sansReset _), hveille, etatSuivant,
      tenu_bp (Nat.lt_succ_self _) (tic_lt (by omega))]
    rfl
  refine attente_run h2 hdebut ?_
  intro k hk hkn
  refine ⟨tenu_sansReset k, ?_⟩
  rw [etatSuivant, tenu_bp (by omega) (by omega)]
  rfl

theorem tenu_parasite (k : ℕ) : Parasite tenu .babord k ↔ k = 3 := by
  constructor
  · rintro ⟨-, hne, heq⟩
    rw [tenu_pb, tenu_pb] at hne heq
    simp only [Boutons.get, Ne, decide_eq_decide] at hne heq
    omega
  · rintro rfl
    refine ⟨by omega, ?_, ?_⟩ <;> rw [tenu_pb, tenu_pb] <;> decide

theorem tenu_tolere : Tolere .simulation tenu .babord 3 where
  pris := by
    intro _ n hn hn5 p hp
    have h3 : tic 2 + 2 ≤ tic 3 := tic_add_le (by omega)
    have h3n : tic 3 < n := (tic_lt (by omega)).trans hn
    have hetat := tenu_etat (h3.trans h3n.le) hn5
    have hbp := tenu_bp ((tic_lt (by omega)).trans h3n) hn5
    right
    rw [etatAvant, if_pos (tenu_sansReset n), hetat, etatSuivant, etatSuivant, hbp]
    rw [hbp] at hp
    have hp' : p.babord = .zero := hp
    simp [hp']
  refuse := by
    intro hne
    refine absurd ?_ hne
    rw [tenu_bp (tic_lt (by omega)) (tic_le (by omega)), tenu_pb]
    rfl

end BarreFranche.GestionBoutton
