/-
# `GestionBip` — the length of a burst

A burst is a stay in one of the states 8 to 11; it ends with the event of
`timer_bip`, which state 4 clears through `bip_reset`.  A reset of the block
does not reach that timer, so state 4 may find it at any count, and clearing
it there raises one more event, two or three cycles later.  A burst must not
see it.

It does not, although state 9 is three edges from state 4.  If state 4 is
entered from state 3, a tick has just released STBY, and the press that
follows can only be released by another tick, 501,000 cycles later: `Nettoie`
counts the cycles in between.  If it is entered from a burst, the timer is at
rest.  So the timer of every burst starts clean, and its first event is the
one of position `M + 2`, with `M = 50,000,000` (`salve_duree`).
-/
import BarreFranche.GestionAppui

namespace BarreFranche.GestionBoutton

open Synchrone

variable {u : PowerUp} {w : ℕ → GestionEntrees} {b : Bord}

theorem reglageBip (s : GestionBoutton) : Reglage 9999 4999 s.portsBip where
  prescaler := rfl
  autoreload := rfl
  three_le := by omega
  lt_top := by omega

section
variable {n k : ℕ} {e : GestionEntrees} {s : GestionBoutton}

theorem portsBip_reset : s.portsBip.reset = .one ↔ s.sorties.bipReset = .zero := by
  simp [portsBip, notBipResetN]

theorem portsBip_actif (h : s.sorties.bipReset = .one) : s.portsBip.reset ≠ .one := by
  rw [Ne, portsBip_reset, h]
  decide

/-- The timer can be cleared, or is cleared, without an event. -/
def Pret (t : Timer 16) : Prop := Calme 3 t ∨ Vide t

/-- The first four cycles of state 4 after a release of STBY, by their distance
from the tick: the clear goes through the registers of the timer. -/
def Nettoie (n : ℕ) (t : Timer 16) : Prop :=
  n % 501000 = 4 ∨
    (Represente 9999 4999 .efface t ∧
      (n % 501000 = 5 ∨ (n % 501000 = 6 ∧ t.compt1 = 0) ∨
        (n % 501000 = 7 ∧ t.compt1 = 0 ∧ t.counterOverflowD = 0)))

/-- In an armed state: the timer is ready for a burst, or will be before the
press can be released. -/
structure Attente (n : ℕ) (s : GestionBoutton) : Prop where
  bipReset : s.sorties.bipReset = .zero
  timer : Pret s.timerBip ∨ (Nettoie n s.timerBip ∧
    ∀ b : Bord, s.presentState = b.appui ∨ s.presentState = b.maintien →
      s.bp.get b.bouton ≠ .one)

/-- At cycle `k` of a burst. -/
structure Joue (k : ℕ) (s : GestionBoutton) : Prop where
  bipReset : s.sorties.bipReset = .one
  debut : k = 0 → Vide s.timerBip ∧ s.bipEnd ≠ .one
  tour : ∀ j, k = j + 1 → Tour 9999 4999 j s.timerBip

/-! ## One edge of the timer -/

theorem Pret.etape (h : Pret s.timerBip) (hb : s.sorties.bipReset = .zero) :
    Vide (etape e s).timerBip ∧ (etape e s).bipEnd ≠ .one := by
  have hr : s.portsBip.reset = .one := portsBip_reset.mpr hb
  rw [bipEnd, etape_timerBip]
  rcases h with h | h
  · exact ⟨h.front_reset (reglageBip s) (by omega) hr, front_coUEV_of_retard h.retard⟩
  · exact ⟨h.front_reset hr, front_coUEV_of_retard h.retard⟩

theorem Nettoie.etape (h : Nettoie n s.timerBip) (hb : s.sorties.bipReset = .zero) :
    Vide (etape e s).timerBip ∨ Nettoie (n + 1) (etape e s).timerBip := by
  have hr : s.portsBip.reset = .one := portsBip_reset.mpr hb
  have heff : Represente 9999 4999 .efface (Timer.front s.portsBip s.timerBip) :=
    efface_of_reset hr
  rw [etape_timerBip]
  rcases h with h4 | ⟨he, h5 | ⟨h6, hc⟩ | ⟨-, hc, hov⟩⟩
  · exact Or.inr (Or.inr ⟨heff, Or.inl (by omega)⟩)
  · exact Or.inr (Or.inr ⟨heff, Or.inr (Or.inl ⟨by omega, compt1_of_efface he⟩)⟩)
  · exact Or.inr (Or.inr ⟨heff, Or.inr (Or.inr ⟨by omega, compt1_of_efface he, hc⟩)⟩)
  · exact Or.inl (Vide.front_reset ⟨he, hc, hov⟩ hr)

/-- The burst is over at cycle `M + 3` and not before. -/
theorem Joue.bipEnd (h : Joue k s) : s.bipEnd = .one ↔ k = 50000003 := by
  rcases Nat.eq_zero_or_pos k with rfl | hk
  · exact ⟨fun h1 => absurd h1 (h.debut rfl).2, fun h0 => absurd h0 (by omega)⟩
  · obtain ⟨j, rfl⟩ : ∃ j, k = j + 1 := ⟨k - 1, by omega⟩
    have he := (h.tour j rfl).evenement
    rw [periode_seconde] at he
    exact he.trans ⟨fun h => by omega, fun h => by omega⟩

theorem Joue.timer (h : Joue k s) (hk : k ≤ 50000003) :
    Tour 9999 4999 k (etape e s).timerBip := by
  have hr := portsBip_actif h.bipReset
  rw [etape_timerBip]
  rcases Nat.eq_zero_or_pos k with rfl | hk0
  · exact (h.debut rfl).1.front (reglageBip s) hr
  · obtain ⟨j, rfl⟩ : ∃ j, k = j + 1 := ⟨k - 1, by omega⟩
    exact (h.tour j rfl).front (reglageBip s) hr rfl (by rw [periode_seconde]; omega)

theorem Joue.etape (h : Joue k s) (hk : k ≤ 50000003)
    (hb : (etape e s).sorties.bipReset = .one) : Joue (k + 1) (etape e s) where
  bipReset := hb
  debut := fun h0 => absurd h0 (Nat.succ_ne_zero k)
  tour := fun j hj => by
    obtain rfl : k = j := Nat.succ.inj hj
    exact h.timer hk

/-- The timer is at rest when its event is seen. -/
theorem Joue.pret (h : Joue 50000003 s) : Pret (GestionBoutton.etape e s).timerBip :=
  Or.inl (Suit.calme (h.timer le_rfl).suit (by omega))

/-- A press, short or long, goes on from a press of the same side, or is taken
or turned into a long one with the button at '0'. -/
theorem vers_prise {q : Etat} (h : s.etatSuivant q = b.appui ∨ s.etatSuivant q = b.maintien) :
    Arme q ∧ ((q = b.appui ∨ q = b.maintien) ∨ s.bp.get b.bouton = .zero) := by
  rcases h with h | h
  · rcases vers_appui h with rfl | ⟨rfl, hz⟩
    · exact ⟨arme_appui b, Or.inl (Or.inl rfl)⟩
    · exact ⟨Or.inl rfl, Or.inr hz⟩
  · rcases vers_maintien h with ⟨rfl, hz, -⟩ | ⟨rfl, -⟩
    · exact ⟨arme_appui b, Or.inr hz⟩
    · exact ⟨arme_maintien b, Or.inl (Or.inr rfl)⟩

end

/-! ## Every run -/

/-- What holds at every cycle of every run. -/
structure Bip (n : ℕ) (s : GestionBoutton) : Prop where
  arme : Arme s.presentState → Attente n s
  salve : Salve s.presentState → ∃ k, k ≤ 50000003 ∧ Joue k s
  stby : s.presentState = .e3 → s.bp.stby = .one → n % 501000 = 3

/-- A debounced level changes right after a tick. -/
theorem apres_tic {n : ℕ} {c : Bouton}
    (h : (cycle u w (n + 1)).bp.get c ≠ (cycle u w n).bp.get c) : (n + 1) % 501000 = 3 := by
  obtain ⟨k, -, rfl⟩ := (miliS_iff n).mp (bp_change h).1
  unfold tic
  omega

theorem stby_succ {n : ℕ} (h3 : (cycle u w (n + 1)).presentState = .e3)
    (h1 : (cycle u w (n + 1)).bp.stby = .one) : (n + 1) % 501000 = 3 := by
  have hne : (etape (w n) (cycle u w n)).presentState ≠ .e0 := by
    rw [← cycle_succ, h3]
    decide
  have hbp : (cycle u w n).bp.stby ≠ .one := by
    rw [cycle_succ, (etape_ne_e0 hne).2] at h3
    rcases vers_e3 h3 with ⟨-, h⟩ | ⟨-, h⟩
    · exact h
    · exact StdLogic.ne_one_of_zero h
  exact apres_tic (c := .stby) fun h => hbp (h.symm.trans h1)

/-- The timer in an armed state, one edge later. -/
theorem attente_timer {n : ℕ} (h : Attente n (cycle u w n)) :
    Pret (cycle u w (n + 1)).timerBip ∨ (Nettoie (n + 1) (cycle u w (n + 1)).timerBip ∧
      n % 501000 ≠ 2 ∧ ∀ b : Bord, (cycle u w n).presentState = b.appui ∨
        (cycle u w n).presentState = b.maintien → (cycle u w n).bp.get b.bouton ≠ .one) := by
  obtain ⟨hb, hp | ⟨hn, hno⟩⟩ := h
  · exact Or.inl (Or.inr (hp.etape hb).1)
  · rcases hn.etape (e := w n) hb with hvide | hn'
    · exact Or.inl (Or.inr hvide)
    · refine Or.inr ⟨hn', ?_, hno⟩
      rcases hn with h4 | ⟨-, h5 | ⟨h6, -⟩ | ⟨h7, -⟩⟩ <;> omega

theorem attente_e4 {n : ℕ} (h : Bip n (cycle u w n))
    (h4 : (cycle u w (n + 1)).presentState = .e4) : Attente (n + 1) (cycle u w (n + 1)) where
  bipReset := bipReset_e4 h4
  timer := by
    have hno : ∀ b : Bord, (cycle u w (n + 1)).presentState = b.appui ∨
        (cycle u w (n + 1)).presentState = b.maintien →
        (cycle u w (n + 1)).bp.get b.bouton ≠ .one := by
      intro b hb
      rw [h4] at hb
      rcases hb with hb | hb <;> exact absurd hb (by cases b <;> decide)
    have hr : SansReset (w n) :=
      sansReset_of_haut (s := cycle u w n) (Or.inl (Or.inl h4))
    have hv : (cycle u w n).etatSuivant (cycle u w n).presentState = .e4 := by
      rw [← etape_sansReset hr]
      exact h4
    rcases vers_e4 hv with hq | ⟨hq, hone⟩ | ⟨hq, hend⟩
    · rcases attente_timer (h.arme (Or.inl hq)) with hp | ⟨hn, -⟩
      · exact Or.inl hp
      · exact Or.inr ⟨hn, hno⟩
    · have h3 := h.stby hq hone
      exact Or.inr ⟨Or.inl (by omega), hno⟩
    · obtain ⟨k, -, hk⟩ := h.salve hq
      obtain rfl : k = 50000003 := hk.bipEnd.mp hend
      exact Or.inl hk.pret

theorem attente_prise {n : ℕ} (h : Bip n (cycle u w n))
    (hs : (cycle u w (n + 1)).presentState = b.appui ∨
      (cycle u w (n + 1)).presentState = b.maintien) :
    Attente (n + 1) (cycle u w (n + 1)) := by
  have harme : Arme (etape (w n) (cycle u w n)).presentState := arme_prise hs
  have hr : SansReset (w n) := sansReset_of_haut (Or.inl harme)
  have hv : (cycle u w n).etatSuivant (cycle u w n).presentState = b.appui ∨
      (cycle u w n).etatSuivant (cycle u w n).presentState = b.maintien := by
    rw [← etape_sansReset hr]
    exact hs
  obtain ⟨hq, hbp⟩ := vers_prise hv
  have hatt := h.arme hq
  refine ⟨?_, ?_⟩
  · rw [cycle_succ, etape_sorties_of_ne harme.ne_e0]
    exact (affecte_bipReset _ hs).trans hatt.bipReset
  · rcases attente_timer hatt with hp | ⟨hn, hmod, hno⟩
    · exact Or.inl hp
    · -- no tick falls into these cycles, so the button has not moved
      have hcur : (cycle u w n).bp.get b.bouton ≠ .one := by
        rcases hbp with hq | hz
        · exact hno b hq
        · exact StdLogic.ne_one_of_zero hz
      refine Or.inr ⟨hn, ?_⟩
      intro b' hb' hone
      obtain rfl : b' = b := bord_unique hs hb'
      have h3 := apres_tic (u := u) (w := w) (n := n) (c := b'.bouton)
        fun heq => hcur (heq.symm.trans hone)
      omega

/-- A burst goes on, or the timer is ready for it. -/
theorem salve_vers {n : ℕ} (h : Bip n (cycle u w n))
    (hs : Salve (cycle u w (n + 1)).presentState) :
    (Salve (cycle u w n).presentState ∧ (cycle u w n).bipEnd ≠ .one ∧
        (cycle u w n).presentState = (cycle u w (n + 1)).presentState) ∨
      ((cycle u w n).sorties.bipReset = .zero ∧ Pret (cycle u w n).timerBip) := by
  have hr : SansReset (w n) := sansReset_of_haut (s := cycle u w n) (Or.inr hs)
  have hnext : (cycle u w (n + 1)).presentState =
      (cycle u w n).etatSuivant (cycle u w n).presentState := etape_sansReset hr
  rw [hnext] at hs ⊢
  rcases vers_salve hs with ⟨hq, hsame, hend⟩ | ⟨b, hone, hfrom⟩
  · exact Or.inl ⟨hq, hend, hsame.symm⟩
  · -- the press is released: the timer is ready
    right
    have hpress : (cycle u w n).presentState = b.appui ∨
        (cycle u w n).presentState = b.maintien := by
      rcases hfrom with ⟨hq, -⟩ | ⟨hq, -⟩
      · exact Or.inl hq
      · exact Or.inr hq
    obtain ⟨hb, hp | ⟨-, hno⟩⟩ := h.arme (arme_prise hpress)
    · exact ⟨hb, hp⟩
    · exact absurd hone (hno b hpress)

/-- The first cycle of a burst. -/
theorem salve_entree {n : ℕ} (hb : (cycle u w n).sorties.bipReset = .zero)
    (hp : Pret (cycle u w n).timerBip) (hs : Salve (cycle u w (n + 1)).presentState) :
    Joue 0 (cycle u w (n + 1)) where
  bipReset := bipReset_salve hs
  debut := fun _ => hp.etape hb
  tour := fun j hj => absurd hj (by omega)

theorem salve_succ {n : ℕ} (h : Bip n (cycle u w n))
    (hs : Salve (cycle u w (n + 1)).presentState) :
    ∃ k, k ≤ 50000003 ∧ Joue k (cycle u w (n + 1)) := by
  rcases salve_vers h hs with ⟨hq, hend, -⟩ | ⟨hb, hp⟩
  · obtain ⟨k, hk, hj⟩ := h.salve hq
    have hlt : k ≠ 50000003 := fun he => hend (hj.bipEnd.mpr he)
    exact ⟨k + 1, by omega, hj.etape hk (bipReset_salve hs)⟩
  · exact ⟨0, Nat.zero_le _, salve_entree hb hp hs⟩

theorem bip_powerOn (u : PowerUp) : Bip 0 (powerOn u) where
  arme := fun h => absurd rfl h.ne_e0
  salve := fun h => absurd rfl h.ne_e0
  stby := fun h => absurd h (by show Etat.e0 ≠ .e3; decide)

theorem bip_cycle (n : ℕ) : Bip n (cycle u w n) := by
  refine cycle_at (bip_powerOn u) ?_ n
  intro n hn
  rw [← cycle_succ]
  refine ⟨?_, salve_succ hn, stby_succ⟩
  intro h
  rcases arme_cas h with h4 | ⟨b, hb⟩
  · exact attente_e4 hn h4
  · exact attente_prise hn hb

/-! ## The length of a burst -/

/-- A burst goes on until its last cycle. -/
theorem salve_run {x d : ℕ} {q : Etat} (hq : Salve q) (hx : (cycle u w x).presentState = q)
    (h0 : Joue 0 (cycle u w x)) (hd : d ≤ 50000003)
    (hr : ∀ i, i < d → SansReset (w (x + i))) :
    (cycle u w (x + d)).presentState = q ∧ Joue d (cycle u w (x + d)) := by
  refine cycle_window (I := fun k s => s.presentState = q ∧ Joue k s) ⟨hx, h0⟩
    (fun k hk ⟨hs, hj⟩ => ?_) d le_rfl
  have hend : (cycle u w (x + k)).bipEnd ≠ .one := by
    rw [Ne, hj.bipEnd]
    omega
  have hs' : (etape (w (x + k)) (cycle u w (x + k))).presentState = q := by
    rw [etape_sansReset (hr k hk), hs, etatSuivant_salve _ hq, if_neg hend]
  refine ⟨hs', hj.etape (by omega) ?_⟩
  rw [← cycle_succ] at hs' ⊢
  exact bipReset_salve (by rw [hs']; exact hq)

/-- The cycle before a burst: the timer is ready, and starts clean. -/
theorem salve_debut {x : ℕ} {q : Etat} (hq : Salve q) (hne : (cycle u w x).presentState ≠ q)
    (hx : (cycle u w (x + 1)).presentState = q) :
    Pret (cycle u w x).timerBip ∧ Joue 0 (cycle u w (x + 1)) := by
  subst hx
  rcases salve_vers (bip_cycle x) hq with ⟨-, -, hsame⟩ | ⟨hb, hp⟩
  · exact absurd hsame hne
  · exact ⟨hp, salve_entree hb hp hq⟩

/-- The state during a burst, and after its last cycle. -/
theorem salve_etat {x k : ℕ} {q : Etat} (hq : Salve q) (hx : (cycle u w x).presentState = q)
    (h0 : Joue 0 (cycle u w x)) (hk : k ≤ 50000004) (hr : ∀ i, i < k → SansReset (w (x + i))) :
    (cycle u w (x + k)).presentState = if k < 50000004 then q else .e4 := by
  split_ifs with hlt
  · exact (salve_run hq hx h0 (by omega) hr).1
  · obtain ⟨j, rfl⟩ : ∃ j, k = j + 1 := ⟨k - 1, by omega⟩
    obtain ⟨hs, hjoue⟩ := salve_run hq hx h0 (d := j) (by omega) fun i hi => hr i (by omega)
    have hend : (cycle u w (x + j)).bipEnd = .one := hjoue.bipEnd.mpr (by omega)
    show (cycle u w (x + j + 1)).presentState = _
    rw [cycle_succ, etape_sansReset (hr j (Nat.lt_succ_self j)), hs, etatSuivant_salve _ hq,
      if_pos hend]

/-- **The length of a burst.**  Every stay in a state 8 to 11, from its first
cycle `x + 1` on and as long as no reset interrupts it, lasts `N` cycles and
ends in state 4, with one `N` for all runs. -/
theorem salve_duree : ∃ N, 50000000 ≤ N ∧ N ≤ 50000010 ∧
    ∀ (u : PowerUp) (w : ℕ → GestionEntrees) (x : ℕ) (q : Etat), Salve q →
      (cycle u w x).presentState ≠ q → (cycle u w (x + 1)).presentState = q →
      ∀ k, k ≤ N → (∀ i, i < k → SansReset (w (x + 1 + i))) →
        (cycle u w (x + 1 + k)).presentState = if k < N then q else .e4 := by
  refine ⟨50000004, by omega, by omega, ?_⟩
  intro u w x q hq hne hx k hk hr
  exact salve_etat hq hx (salve_debut hq hne hx).2 hk hr

/-- The burst of a press of one tick: in state 9 from its first cycle up to the last,
and in state 4 after it. -/
theorem salve_duree_temoin : ∃ N, 50000000 ≤ N ∧
    (cycle .simulation (croisiere 5 6) (tic 5 + 1 + 1 + 500999 + 1)).presentState = .e9 ∧
    (cycle .simulation (croisiere 5 6) (tic 5 + 1 + 1 + 500999 + 1 + (N - 1))).presentState =
      .e9 ∧
    (cycle .simulation (croisiere 5 6) (tic 5 + 1 + 1 + 500999 + 1 + N)).presentState = .e4 := by
  obtain ⟨N, hN, -, h⟩ := salve_duree
  obtain ⟨hs, hs'⟩ := croisiere_courte
  have hetat : ∀ k, k ≤ N → (cycle .simulation (croisiere 5 6)
      (tic 5 + 1 + 1 + 500999 + 1 + k)).presentState = if k < N then .e9 else .e4 :=
    fun k hk => h .simulation (croisiere 5 6) _ .e9 (by decide) (by rw [hs]; decide) hs' k hk
      fun i _ => croisiere_sansReset _
  refine ⟨N, hN, hs', ?_, ?_⟩
  · rw [hetat _ (Nat.sub_le N 1), if_pos (by omega)]
  · rw [hetat N le_rfl, if_neg (Nat.lt_irrefl N)]

end BarreFranche.GestionBoutton
