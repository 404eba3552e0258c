/-
# `GestionCode` — the actuator commands and `reset_n`

`codeFonction` is a register that `gestion_bp` writes in its clocked branch
only, so it shows the code of the state the last edge without a reset has
reached (`code_cycle`).  A '0' on `reset_n` clears `present_State` and leaves
the code where it is until the next edge after the release: a reset during a
manual command does not stop the actuator (`commande_pendant_reset`).

An `Instant` is what can be observed between two events, events being the
changes of `reset_n` and the clock edges, in any order.  A run is safe at all
its instants iff `reset_n` falls only in the states whose code is 0000
already, and in simulation not before the first edge (`surete_iff`).
-/
import BarreFranche.GestionRebond

namespace BarreFranche.GestionBoutton

open Synchrone

variable {u : PowerUp} {w : ℕ → GestionEntrees}

/-! ## The instants of a run -/

/-- The debounced buttons as the last edge before cycle `n` has read them. -/
def dernierFront (u : PowerUp) (w : ℕ → GestionEntrees) : ℕ → Option (Boutons StdLogic)
  | 0 => none
  | n + 1 => some (cycle u w n).bp

/-- What is observed: the level of `reset_n`, the block, and the buttons the
most recent edge has read. -/
structure Vue where
  resetN : Bool
  bloc : GestionBoutton
  dernier : Option (Boutons StdLogic)

/-- The instants of a run: in cycle `n` after each of the levels that precede
the edge, and right after the edge. -/
inductive Instant (u : PowerUp) (w : ℕ → GestionEntrees) : Vue → Prop
  | avant (n : ℕ) (l : List Bool) (r : Bool) :
      l ++ [r] <+: (w n).niveaux ++ [(w n).resetN] →
      Instant u w ⟨r, (l ++ [r]).foldl asynchrone (cycle u w n), dernierFront u w n⟩
  | apres (n : ℕ) :
      Instant u w ⟨(w n).resetN, cycle u w (n + 1), dernierFront u w (n + 1)⟩

/-- The code commands the actuator of side `b` only with `reset_n` at '1' and
the button read '0' by the last edge; and with `reset_n` at '0' it is 0000. -/
structure Surete (v : Vue) : Prop where
  commande : ∀ b : Bord, v.bloc.sorties.codeFonction = some (codeEtat b.manuel) →
    v.resetN = true ∧ ∃ bp, v.dernier = some bp ∧ bp.get b.bouton = .zero
  reset : v.resetN = false → v.bloc.sorties.codeFonction = some 0b0000

/-- `reset_n` may fall in this cycle: the code is 0000 already. -/
def ResetPermis (u : PowerUp) (n : ℕ) (s : GestionBoutton) : Prop :=
  (s.presentState = .e0 ∨ s.presentState = .e3 ∨ s.presentState = .e5) ∧
    (n = 0 → u = .fpga)

/-! ## The code of the state -/

theorem code_neutre {q : Etat} :
    codeEtat q = 0b0000 ↔ q = .e0 ∨ q = .e3 ∨ q = .e5 := by
  cases q <;> simp [codeEtat]

theorem code_manuel {q : Etat} {b : Bord} (h : codeEtat q = codeEtat b.manuel) :
    q = b.manuel := by
  cases q <;> cases b <;> first | rfl | exact absurd h (by decide)

theorem code_manuel_ne (b : Bord) : codeEtat b.manuel ≠ 0b0000 := by
  cases b <;> decide

/-- The levels before the edge leave the outputs alone. -/
theorem foldl_sorties (s : GestionBoutton) (l : List Bool) :
    (l.foldl asynchrone s).sorties = s.sorties := by
  rw [foldl_asynchrone]

theorem reset_de_prefixe {e : GestionEntrees} {l : List Bool}
    (h : l ++ [false] <+: e.niveaux ++ [e.resetN]) : ¬ SansReset e := by
  rintro ⟨h1, h2⟩
  have hmem : false ∈ e.niveaux ++ [e.resetN] := h.subset (by simp)
  rw [List.mem_append, h2] at hmem
  rcases hmem with hm | hm
  · exact h1 hm
  · exact absurd hm (by decide)

/-- A cycle with a reset has an instant before its edge with `reset_n` at '0'. -/
theorem prefixe_de_reset {e : GestionEntrees} (h : ¬ SansReset e) :
    ∃ l, l ++ [false] <+: e.niveaux ++ [e.resetN] := by
  have hmem : false ∈ e.niveaux ++ [e.resetN] := by
    by_contra hno
    simp only [List.mem_append, List.mem_singleton, not_or] at hno
    exact h ⟨hno.1, by simpa using hno.2⟩
  obtain ⟨l, r, hl⟩ := List.append_of_mem hmem
  exact ⟨l, r, by rw [hl]; simp⟩

/-- After an edge with `reset_n` at '1' the code is that of the state. -/
theorem code_succ {n : ℕ} (h : (w n).resetN = true) :
    (cycle u w (n + 1)).sorties.codeFonction =
      some (codeEtat (cycle u w (n + 1)).presentState) := by
  rw [cycle_succ, etape_sorties, h, if_neg (by decide), affecte_codeFonction]

/-- After an edge that samples `reset_n` at '0' the code is what it was. -/
theorem code_reset {n : ℕ} (h : (w n).resetN = false) :
    (cycle u w (n + 1)).sorties.codeFonction = (cycle u w n).sorties.codeFonction ∧
      (cycle u w (n + 1)).presentState = .e0 := by
  rw [cycle_succ, etape_sorties, etape_presentState, if_pos h, if_pos h]
  exact ⟨rfl, rfl⟩

/-! ## Safe runs -/

section
variable (h : ∀ n, ¬ SansReset (w n) → ResetPermis u n (cycle u w n))

include h

/-- In a run whose resets are permitted the code is always that of the state,
but for the first cycle of a simulation. -/
theorem code_cycle : ∀ n, (n = 0 → u = .fpga) →
    (cycle u w n).sorties.codeFonction = some (codeEtat (cycle u w n).presentState)
  | 0, hu => by
      rw [hu rfl]
      rfl
  | n + 1, _ => by
      cases hr : (w n).resetN with
      | true => exact code_succ hr
      | false =>
          obtain ⟨hq, hu⟩ := h n (not_sansReset hr)
          obtain ⟨h1, h2⟩ := code_reset (u := u) hr
          rw [h1, h2, code_cycle n hu, code_neutre.mpr hq]
          rfl

/-- A reset finds the code at 0000. -/
theorem code_au_reset {n : ℕ} (hn : ¬ SansReset (w n)) :
    (cycle u w n).sorties.codeFonction = some 0b0000 := by
  obtain ⟨hq, hu⟩ := h n hn
  rw [code_cycle h n hu, code_neutre.mpr hq]

/-- A command on display was read from the button by the last edge. -/
theorem commande_cycle {n : ℕ} {b : Bord}
    (hc : (cycle u w n).sorties.codeFonction = some (codeEtat b.manuel)) :
    ∃ bp, dernierFront u w n = some bp ∧ bp.get b.bouton = .zero := by
  cases n with
  | zero =>
      cases u with
      | simulation => exact absurd hc.symm (Option.some_ne_none _)
      | fpga => exact absurd (Option.some.inj hc).symm (code_manuel_ne b)
  | succ n =>
      rw [code_cycle h (n + 1) (fun h0 => absurd h0 (Nat.succ_ne_zero n))] at hc
      have hq : (etape (w n) (cycle u w n)).presentState = b.manuel :=
        code_manuel (Option.some.inj hc)
      refine ⟨(cycle u w n).bp, rfl, ?_⟩
      rw [(etape_ne_e0 (by rw [hq]; exact manuel_ne_e0 b)).2] at hq
      rcases vers_manuel hq with ⟨h1, h2⟩ | ⟨-, h2⟩
      · obtain ⟨hm, -⟩ := etatAvant_ne_e0 (manuel_ne_e0 b) h1
        by_contra hz
        exact pris_defini b n (Or.inl hm) (StdLogic.eq_U_of_ne hz h2)
      · exact h2

theorem surete_instant {v : Vue} (hv : Instant u w v) : Surete v := by
  cases hv with
  | avant n l r hl =>
      constructor
      · intro b hc
        rw [foldl_sorties] at hc
        refine ⟨?_, commande_cycle h hc⟩
        cases r with
        | true => rfl
        | false =>
            rw [code_au_reset h (reset_de_prefixe hl)] at hc
            exact absurd (Option.some.inj hc).symm (code_manuel_ne b)
      · intro hr
        obtain rfl : r = false := hr
        rw [foldl_sorties]
        exact code_au_reset h (reset_de_prefixe hl)
  | apres n =>
      have hcode : (w n).resetN = false →
          (cycle u w (n + 1)).sorties.codeFonction = some 0b0000 := by
        intro hr
        rw [(code_reset hr).1]
        exact code_au_reset h (not_sansReset hr)
      refine ⟨fun b hc => ⟨?_, commande_cycle h hc⟩, hcode⟩
      cases hr : (w n).resetN with
      | true => rfl
      | false =>
          rw [hcode hr] at hc
          exact absurd (Option.some.inj hc).symm (code_manuel_ne b)

end

/-- **Safety of the manual commands.**  Every instant of a run is safe iff
`reset_n` falls only in states 0, 3 and 5, and in simulation not before the
first edge. -/
theorem surete_iff :
    (∀ v, Instant u w v → Surete v) ↔
      ∀ n, ¬ SansReset (w n) → ResetPermis u n (cycle u w n) := by
  refine ⟨?_, fun h v => surete_instant h⟩
  intro h n hn
  obtain ⟨l, hl⟩ := prefixe_de_reset hn
  have hcode : (cycle u w n).sorties.codeFonction = some 0b0000 := by
    have := (h _ (.avant n l false hl)).reset rfl
    rwa [foldl_sorties] at this
  cases n with
  | zero =>
      refine ⟨Or.inl rfl, fun _ => ?_⟩
      cases u with
      | simulation => exact absurd hcode.symm (Option.some_ne_none _)
      | fpga => rfl
  | succ n =>
      refine ⟨?_, fun h0 => absurd h0 (Nat.succ_ne_zero n)⟩
      cases hr : (w n).resetN with
      | false => exact Or.inl (code_reset hr).2
      | true =>
          rw [code_succ hr] at hcode
          exact code_neutre.mp (Option.some.inj hcode)

/-- `reset_n` falls for a moment in the first cycle of a manual command. -/
def resetEnCommande : ℕ → List Bool := fun n => if n = tic 3 + 2 then [false] else []

/-- **A reset does not stop the actuator**: `reset_n` is '0' and the code is
still 0001. -/
theorem commande_pendant_reset :
    ¬ ∀ v, Instant .simulation (parasite resetEnCommande) v → Surete v := by
  intro h
  have hr : resetEnCommande (tic 3 + 2) = [false] := if_pos rfl
  have hvide : resetEnCommande (tic 3 + 1) = [] := if_neg (by omega)
  obtain ⟨-, hcode⟩ := parasite_commande resetEnCommande hvide
  have hv := h _ (.avant (tic 3 + 2) [] false (by simp [parasite, hr]))
  have hzero := hv.reset rfl
  rw [foldl_sorties, hcode] at hzero
  exact absurd hzero (by decide)

end BarreFranche.GestionBoutton
