/-
# `GestionDebraye` — STBY disengages

Whatever the autopilot is doing, the helmsman has one gesture to get the helm back:
hold STBY, and let the other two buttons go.  It is not immediate, for the levels
have to pass the debouncer and a burst is played to its end, but the wait is bounded:

    1002003      the levels are those the block works with (`bp_tenu`)
    + 1          a long press is released, and its burst begins
    + 50000004   the burst is over, and the state is 4
    + 1          5

A ranking (`Reste`) follows the wait.  Only a press that `GestionAppui` calls
`Bloque` does not have one, and is not ended by STBY: `Delay` would have to wrap
around first, and even if it does so at once the burst that follows is longer than
the wait.  Hence `stby_debraye` is an equivalence.
-/
import BarreFranche.GestionBip
import BarreFranche.GestionCode

namespace BarreFranche.GestionBoutton

open Synchrone

variable {u : PowerUp} {w : ℕ → GestionEntrees} {b : Bord}

/-! ## The levels -/

/-- STBY held, the other two released, and no reset. -/
def TientStby (e : GestionEntrees) : Prop := SansReset e ∧ e.pb = ⟨true, true, false⟩

/-- Two ticks after the raw levels, at most, the debounced ones are the same. -/
theorem bp_tenu {c n : ℕ} (hn : c + 1002003 ≤ n) (hw : ∀ k, c ≤ k → k < n → TientStby (w k)) :
    (cycle u w n).bp = ⟨.one, .one, .zero⟩ := by
  obtain ⟨k, -, h1, h2⟩ := tic_encadre (n := n) (by unfold tic; omega)
  -- the tick before this one is in the window as well
  obtain ⟨j, rfl⟩ : ∃ j, k = j + 1 := ⟨k - 1, by unfold tic at h2; omega⟩
  have hj : 1 ≤ j ∧ c ≤ tic j := by
    unfold tic at h2 ⊢
    omega
  have hraw : ∀ i, c ≤ tic i → tic i < n → (w (tic i)).pb = ⟨true, true, false⟩ :=
    fun i hi hin => (hw _ hi hin).2
  have hjk : tic j < tic (j + 1) := tic_lt (Nat.lt_succ_self j)
  have hpbD : (cycle u w (tic (j + 1))).pbD = Boutons.niveaux ⟨true, true, false⟩ := by
    rw [pbD_tic hj.1 hjk le_rfl, hraw j hj.2 (hjk.trans h1)]
  have hpb := hraw (j + 1) (hj.2.trans hjk.le) h1
  have hstable : Stable (w (tic (j + 1))).pb (cycle u w (tic (j + 1))) := by
    rw [stable_iff, hpb, hpbD]
    exact ⟨.stby, rfl⟩
  rw [bp_entre h1 h2, bp_succ, if_pos ⟨miliS_tic (Nat.le_add_left 1 j), hstable⟩, hpb]
  rfl

/-- What an edge without a reset can do while STBY is held alone. -/
theorem etatSuivant_tenu {s : GestionBoutton} {q : Etat} (h : s.bp = ⟨.one, .one, .zero⟩) :
    s.etatSuivant q = match q with
      | .e0 | .e3 => .e3
      | .e1 | .e2 => .e0
      | .e4 | .e5 => .e5
      | .e6 => if s.delay < 2 then .e9 else .e6
      | .e7 => if s.delay < 2 then .e11 else .e7
      | .e12 => .e10
      | .e13 => .e8
      | q => if s.bipEnd = .one then .e4 else q := by
  cases q <;> simp [etatSuivant, h]

/-! ## The wait -/

/-- In at most `r` edges the block is in state 3 or 5, and stays there. -/
def Reste (r : ℕ) (s : GestionBoutton) : Prop :=
  match s.presentState with
  | .e3 | .e5 => True
  | .e0 | .e4 => 1 ≤ r
  | .e1 | .e2 => 2 ≤ r
  | .e6 | .e7 => s.delay < 2 ∧ 50000006 ≤ r
  | .e12 | .e13 => 50000006 ≤ r
  | .e8 | .e9 | .e10 | .e11 => ∃ k, k ≤ 50000003 ∧ Joue k s ∧ 50000005 ≤ r + k

theorem reste_salve {r : ℕ} {s : GestionBoutton} (hs : Salve s.presentState) :
    Reste r s ↔ ∃ k, k ≤ 50000003 ∧ Joue k s ∧ 50000005 ≤ r + k := by
  rcases hs with hs | hs | hs | hs <;> simp only [Reste, hs]

theorem reste_zero {s : GestionBoutton} (h : Reste 0 s) : codeEtat s.presentState = 0b0000 := by
  by_cases hs : Salve s.presentState
  · obtain ⟨k, hk, -, h5⟩ := (reste_salve hs).mp h
    omega
  · unfold Reste at h
    split at h <;> simp_all [codeEtat, Salve]

/-- A burst that has been entered has its whole length to go. -/
theorem reste_entree {n r : ℕ} (hn : ¬ Salve (cycle u w n).presentState)
    (hs : Salve (cycle u w (n + 1)).presentState) (hr : 50000005 ≤ r) :
    Reste r (cycle u w (n + 1)) := by
  obtain ⟨-, hj⟩ := salve_debut hs (fun h => hn (h ▸ hs)) rfl
  exact (reste_salve hs).mpr ⟨0, Nat.zero_le _, hj, hr⟩

/-- One edge of a burst. -/
theorem reste_salve_succ {n r : ℕ} (hr : SansReset (w n)) (hs : Salve (cycle u w n).presentState)
    (h : Reste r (cycle u w n)) : Reste (r - 1) (cycle u w (n + 1)) := by
  obtain ⟨k, hk, hj, h5⟩ := (reste_salve hs).mp h
  have hq : (cycle u w (n + 1)).presentState =
      if (cycle u w n).bipEnd = .one then .e4 else (cycle u w n).presentState := by
    rw [cycle_succ, etape_sansReset hr, etatSuivant_salve _ hs]
  by_cases hk' : k = 50000003
  · rw [if_pos (hj.bipEnd.mpr hk')] at hq
    simp only [Reste, hq]
    omega
  · rw [if_neg fun h1 => hk' (hj.bipEnd.mp h1)] at hq
    have hs' : Salve (cycle u w (n + 1)).presentState := hq ▸ hs
    refine (reste_salve hs').mpr ⟨k + 1, by omega, ?_, by omega⟩
    rw [cycle_succ]
    exact hj.etape hk (by rw [← cycle_succ]; exact bipReset_salve hs')

/-- One edge takes one from the wait. -/
theorem reste_succ {n r : ℕ} (hr : SansReset (w n)) (hbp : (cycle u w n).bp = ⟨.one, .one, .zero⟩)
    (h : Reste r (cycle u w n)) : Reste (r - 1) (cycle u w (n + 1)) := by
  by_cases hs : Salve (cycle u w n).presentState
  · exact reste_salve_succ hr hs h
  · have hq : (cycle u w (n + 1)).presentState =
        (cycle u w n).etatSuivant (cycle u w n).presentState := by
      rw [cycle_succ, etape_sansReset hr]
    rw [etatSuivant_tenu hbp] at hq
    unfold Reste at h
    split at h
    case h_1 h0 | h_2 h0 | h_3 h0 | h_4 h0 =>
      simp only [h0] at hq
      simp only [Reste, hq]
    case h_5 h0 | h_6 h0 =>
      simp only [h0] at hq
      simp only [Reste, hq]
      omega
    -- a press, short or long, gives way to its burst
    case h_7 h0 | h_8 h0 =>
      simp only [h0, h.1, if_true] at hq
      exact reste_entree hs (hq ▸ by decide) (by omega)
    case h_9 h0 | h_10 h0 =>
      simp only [h0] at hq
      exact reste_entree hs (hq ▸ by decide) (by omega)
    all_goals exact absurd (by simp [Salve, *]) hs

theorem reste_debut (t : ℕ) (hbp : (cycle u w t).bp = ⟨.one, .one, .zero⟩)
    (h : ∀ b, ¬ Bloque b (cycle u w t)) : Reste 50000006 (cycle u w t) := by
  by_cases hs : Salve (cycle u w t).presentState
  · obtain ⟨k, hk, hj⟩ := (bip_cycle t).salve hs
    exact (reste_salve hs).mpr ⟨k, hk, hj, by omega⟩
  · have h6 := h .babord
    have h7 := h .tribord
    unfold Reste
    split <;> simp_all [Salve, Bloque, Bord.appui, Bord.bouton, Boutons.get]

/-! ## A stuck press -/

/-- What a press that is stuck can have become `k` edges later. -/
def Coince (b : Bord) (k : ℕ) (s : GestionBoutton) : Prop :=
  (s.presentState = b.appui ∧ (k = 0 → 2 ≤ s.delay)) ∨
    (s.presentState = b.pas1 ∧ ∃ j, j ≤ 50000003 ∧ j + 2 ≤ k ∧ Joue j s) ∨
    (s.presentState = .e4 ∧ 50000006 ≤ k)

theorem coince_appui {n k : ℕ} (hr : SansReset (w n))
    (hbp : (cycle u w n).bp = ⟨.one, .one, .zero⟩) (h0 : (cycle u w n).presentState = b.appui)
    (hdelay : k = 0 → 2 ≤ (cycle u w n).delay) : Coince b (k + 1) (cycle u w (n + 1)) := by
  have hb : (cycle u w n).bp.get b.bouton = .one := by
    rw [hbp]
    cases b <;> rfl
  have hq : (cycle u w (n + 1)).presentState =
      if (cycle u w n).delay < 2 then b.pas1 else b.appui := by
    rw [cycle_succ, etape_sansReset hr, h0, etatSuivant_appui, hb]
    simp
  split_ifs at hq with hlt
  -- `Delay` has wrapped around, which it cannot have done at the start
  · have hk : k ≠ 0 := fun hk => absurd (hdelay hk) (BitVec.not_le.mpr hlt)
    obtain ⟨-, hj⟩ := salve_debut (salve_pas1 b) (by rw [h0]; cases b <;> decide) hq
    exact .inr (.inl ⟨hq, 0, Nat.zero_le _, by omega, hj⟩)
  · exact .inl ⟨hq, fun h => absurd h (Nat.succ_ne_zero k)⟩

theorem coince_pas1 {n j k : ℕ} (hr : SansReset (w n))
    (h0 : (cycle u w n).presentState = b.pas1) (hj : j ≤ 50000003) (hjk : j + 2 ≤ k)
    (hjo : Joue j (cycle u w n)) : Coince b (k + 1) (cycle u w (n + 1)) := by
  have hq : (cycle u w (n + 1)).presentState =
      if (cycle u w n).bipEnd = .one then .e4 else b.pas1 := by
    rw [cycle_succ, etape_sansReset hr, h0, etatSuivant_salve _ (salve_pas1 b)]
  split_ifs at hq with hend
  · have hj' := hjo.bipEnd.mp hend
    exact .inr (.inr ⟨hq, by omega⟩)
  · have hj' : j ≠ 50000003 := fun h => hend (hjo.bipEnd.mpr h)
    have hbip : (cycle u w (n + 1)).sorties.bipReset = .one :=
      bipReset_salve (hq ▸ salve_pas1 b)
    rw [cycle_succ] at hq hbip ⊢
    exact .inr (.inl ⟨hq, j + 1, by omega, by omega, hjo.etape hj hbip⟩)

theorem Coince.code {k : ℕ} {s : GestionBoutton} (h : Coince b k s) :
    codeEtat s.presentState ≠ 0b0000 := by
  rcases h with ⟨h, -⟩ | ⟨h, -⟩ | ⟨h, -⟩ <;> rw [h]
  · cases b <;> decide
  · cases b <;> decide
  · decide

/-! ## The gesture -/

section
variable {t d : ℕ} (hr : ∀ k, k < d → SansReset (w (t + k)))
  (hbp : ∀ k, k < d → (cycle u w (t + k)).bp = ⟨.one, .one, .zero⟩)
include hr hbp

theorem reste_run (h : Reste 50000006 (cycle u w t)) :
    ∀ k, k ≤ d → Reste (50000006 - k) (cycle u w (t + k))
  | 0, _ => h
  | k + 1, hk => reste_succ (hr k hk) (hbp k hk) (reste_run h k (Nat.le_of_lt hk))

theorem coince_run (hd : d ≤ 50000006) (h : Bloque b (cycle u w t)) :
    ∀ k, k ≤ d → Coince b k (cycle u w (t + k))
  | 0, _ => .inl ⟨h.1, fun _ => h.2.2⟩
  | k + 1, hk => by
      rcases coince_run hd h k (Nat.le_of_lt hk) with ⟨h0, hdelay⟩ | ⟨h0, j, hj, hjk, hjo⟩ | ⟨-, h4⟩
      · exact coince_appui (hr k hk) (hbp k hk) h0 hdelay
      · exact coince_pas1 (hr k hk) h0 hj hjk hjo
      · omega

end

/-- STBY held alone, from any state of any run: 51,002,009 cycles later the autopilot is
disengaged and the actuator stopped, for as long as STBY is held, iff no press is
stuck when the levels have got through. -/
theorem stby_debraye {c e : ℕ} (he : c + 51002009 ≤ e)
    (hw : ∀ n, c ≤ n → n < e → TientStby (w n)) :
    (∀ n, c + 51002009 ≤ n → n ≤ e → (cycle u w n).sorties.codeFonction = some 0b0000) ↔
      ∀ b, ¬ Bloque b (cycle u w (c + 1002003)) := by
  have hbp : ∀ n, c + 1002003 ≤ n → n < e → (cycle u w n).bp = ⟨.one, .one, .zero⟩ :=
    fun n h1 h2 => bp_tenu h1 fun k hk hkn => hw k hk (hkn.trans h2)
  have hcode : ∀ n, c < n → n ≤ e → (cycle u w n).sorties.codeFonction =
      some (codeEtat (cycle u w n).presentState) := by
    intro n h1 h2
    obtain ⟨m, rfl⟩ : ∃ m, n = m + 1 := ⟨n - 1, by omega⟩
    exact code_succ (hw m (by omega) (by omega)).1.2
  constructor
  · intro h b hb
    obtain ⟨d, hd⟩ : ∃ d, d = 50000006 := ⟨_, rfl⟩
    have hco := coince_run (t := c + 1002003) (d := d)
      (fun k hk => (hw _ (by omega) (by omega)).1) (fun k hk => hbp _ (by omega) (by omega))
      hd.le hb d le_rfl
    refine hco.code (Option.some.inj ?_)
    rw [← hcode _ (by omega) (by omega)]
    exact h _ (by omega) (by omega)
  · intro h n h1 h2
    obtain ⟨k, rfl⟩ : ∃ k, n = c + 1002003 + k := ⟨n - (c + 1002003), by omega⟩
    have hreste := reste_run (t := c + 1002003) (d := k)
      (fun i hi => (hw _ (by omega) (by omega)).1) (fun i hi => hbp _ (by omega) (by omega))
      (reste_debut _ (hbp _ (by omega) (by omega)) h) k le_rfl
    rw [Nat.sub_eq_zero_of_le (by omega)] at hreste
    rw [hcode _ (by omega) h2, reste_zero hreste]

/-! ## An autopilot that is disengaged -/

/-- A button that nobody touches is not seen pressed. -/
theorem bp_libre {c : Bouton} (hc : ∀ k, (w k).pb.get c = true) (n : ℕ) :
    (cycle .simulation w n).bp.get c ≠ .zero := by
  induction n with
  | zero => cases c <;> exact (by decide : StdLogic.U ≠ .zero)
  | succ n ih =>
      rw [bp_succ]
      split_ifs
      · rw [Boutons.get_niveaux, hc]
        decide
      · exact ih

/-- Without port and starboard there is no press to get stuck. -/
theorem etat_sansAppui (hr : ∀ k, SansReset (w k)) (hb : ∀ k, (w k).pb.get .babord = true)
    (ht : ∀ k, (w k).pb.get .tribord = true) (n : ℕ) :
    (cycle .simulation w n).presentState ∈ [Etat.e0, .e3, .e4, .e5] := by
  induction n with
  | zero => exact List.mem_cons_self
  | succ n ih =>
      have hbab : (cycle .simulation w n).bp.babord ≠ .zero := bp_libre hb n
      have htri : (cycle .simulation w n).bp.tribord ≠ .zero := bp_libre ht n
      rw [cycle_succ, etape_sansReset (hr n)]
      simp only [List.mem_cons, List.not_mem_nil, or_false] at ih
      rcases ih with h | h | h | h <;> rw [h, etatSuivant]
      · rw [if_neg htri, if_neg hbab]
        split_ifs <;> decide
      · split_ifs <;> decide
      · rw [if_neg hbab, if_neg htri]
        split_ifs <;> decide
      · split_ifs <;> decide

/-- STBY engages the autopilot at the third tick, and is held from the fifth on. -/
def barreReprise (n : ℕ) : GestionEntrees :=
  ⟨[], true, ⟨true, true, decide (n ≠ tic 3 ∧ n < tic 5)⟩⟩

theorem barreReprise_debut {k : ℕ} (hk : k < tic 5) : barreReprise k = croisiere 5 6 k := by
  simp [barreReprise, croisiere, hk]

theorem stby_debraye_temoin :
    (cycle .simulation barreReprise (tic 5)).sorties.codeFonction = some 0b0011 ∧
      (cycle .simulation barreReprise (tic 5 + 51002009)).sorties.codeFonction = some 0b0000 := by
  constructor
  · have hdebut :
        cycle .simulation barreReprise (tic 5) = cycle .simulation (croisiere 5 6) (tic 5) :=
      run_debut fun _ => barreReprise_debut
    have h4 : (cycle .simulation barreReprise (tic 5)).presentState = .e4 := by
      rw [hdebut]
      exact croisiere_engage le_rfl (tic_add_le (by omega)) (Nat.le_succ _)
    exact code_etat h4 (by decide)
  · refine (stby_debraye (c := tic 5) le_rfl ?_).mpr ?_ _ le_rfl le_rfl
    · intro n hn _
      have hoff : ¬ (n ≠ tic 3 ∧ n < tic 5) := fun h => Nat.not_lt.mpr hn h.2
      exact ⟨⟨List.not_mem_nil, rfl⟩, by rw [barreReprise, decide_eq_false hoff]⟩
    · rintro b ⟨hb, -⟩
      have hetat := etat_sansAppui (w := barreReprise) (fun _ => ⟨List.not_mem_nil, rfl⟩)
        (fun _ => rfl) (fun _ => rfl) (tic 5 + 1002003)
      rw [hb] at hetat
      cases b <;> exact absurd hetat (by decide)

end BarreFranche.GestionBoutton
