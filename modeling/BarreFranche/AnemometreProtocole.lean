/-
# `AnemometreProtocole` — `data_valid` against the requests

With `continu` at '0' a stop of `start_stop` should take `data_valid` back, and
`data_valid` at '1' should stand for a measurement of the current request.
Nothing takes it back once it is '1' (`dataValid_iff`), so both hold of a run
only if there is nothing to take back:

    the stops      come with a publication, or (FPGA) before the first one
    the requests   are all made before the first publication

(`arret_iff`).  A measurement belongs to a request made `d` cycles before it is
published, or earlier; the result is for every `d` from 2, the cycles `data_valid`
is given to follow, and with `d` = 50,000,002 the request precedes the window.
-/
import BarreFranche.AnemometreDemande

namespace BarreFranche.Anemometre

open Synchrone

/-- `start_stop` is sampled '1' at edge `j` and '0' at the next. -/
def Arret (w : ℕ → AnemometreEntrees) (j : ℕ) : Prop :=
  (w j).startStop = true ∧ (w (j + 1)).startStop = false

/-- After the stop request of edge `j + 1`: `data_valid` is '0' two edges later
and until the next publication, unless one of these two edges publishes. -/
def ArretObei (u : PowerUp) (w : ℕ → AnemometreEntrees) (j : ℕ) : Prop :=
  ((cycle u w (j + 2)).second = .one ∨ (cycle u w (j + 3)).second = .one) ∨
    ∀ t, j + 4 ≤ t → (∀ k, j + 4 ≤ k → k < t → (cycle u w k).second ≠ .one) →
      (cycle u w t).dataValid = .zero

/-- At cycle `n` the outputs hold a measurement of the current request: the last
request that is two edges old was made `d` cycles before the last publication,
or earlier. -/
def MesureDemandee (u : PowerUp) (w : ℕ → AnemometreEntrees) (d n : ℕ) : Prop :=
  ∃ f p, Dernier (fun k => debutDemande w k = true) (n - 1) f ∧
    DernierePublication u w n p ∧ f + d ≤ p

/-- Every stop is obeyed, and `data_valid` at '1' always stands for a measurement
of the current request. -/
structure Protocole (u : PowerUp) (w : ℕ → AnemometreEntrees) (d : ℕ) : Prop where
  arret : ∀ j, Arret w j → ArretObei u w j
  demande : ∀ n, (cycle u w n).dataValid = .one → MesureDemandee u w d n

/-- There are requests, all of them `d` cycles before cycle 50,000,002 or earlier;
every stop comes before that cycle in a block whose `data_valid` powers up at
'0', or two or three cycles before one of the cycles 50,000,002, 100,000,007,
150,000,012 and so on. -/
structure SansReprise (u : PowerUp) (w : ℕ → AnemometreEntrees) (d : ℕ) : Prop where
  demande : ∃ f, debutDemande w f = true
  avant : ∀ f, debutDemande w f = true → f + d ≤ 50000002
  arret : ∀ j, Arret w j → (u = .fpga ∧ j ≤ 50000000) ∨
    ∃ i, j + 2 = 50000002 + 50000005 * i ∨ j + 3 = 50000002 + 50000005 * i

variable {u : PowerUp} {w : ℕ → AnemometreEntrees}

/-- Between a '0' and a '1' of `start_stop` there is a request. -/
theorem debut_entre {k j : ℕ} (hk : (w k).startStop = false) (hkj : k < j) :
    (w j).startStop = true → ∃ f, k < f ∧ debutDemande w f = true := by
  induction j, hkj using Nat.le_induction with
  | base =>
      intro hj
      exact ⟨k + 1, k.lt_succ_self, by simp [debutDemande, hk, hj]⟩
  | succ j hkj ih =>
      intro hj
      cases hon : (w j).startStop with
      | true => exact ih hon
      | false => exact ⟨j + 1, Nat.lt_succ_of_lt hkj, by simp [debutDemande, hon, hj]⟩

theorem Echeance.le {i p : ℕ} (h : Echeance w i p) : 50000002 ≤ p := by
  induction h with
  | premiere => exact le_rfl
  | suivante _ _ _ _ ih => omega

section
variable {j : ℕ} (hon : ∀ k, 50000002 ≤ k → k ≤ j → (w k).startStop = true)

include hon

/-- While the request is held the schedule is periodic. -/
theorem Echeance.tenue {i p : ℕ} (h : Echeance w i p) :
    p ≤ j + 3 → p = 50000002 + 50000005 * i := by
  induction h with
  | premiere => exact fun _ => rfl
  | @suivante i p f hp hpf _ hoff ih =>
      intro hle
      have hpj : p ≤ j := by omega
      have hf : f = p := by
        rcases Nat.eq_or_lt_of_le hpf with heq | hlt
        · exact heq.symm
        · exact absurd (hon p hp.le hpj) (by rw [hoff p le_rfl hlt]; decide)
      have := ih (by omega)
      omega

theorem echeance_tenue (i : ℕ) (hi : 50000002 + 50000005 * i ≤ j + 3) :
    Echeance w i (50000002 + 50000005 * i) := by
  induction i with
  | zero => exact .premiere
  | succ i ih =>
      have hle : 50000002 + 50000005 * i ≤ j := by omega
      have h := (ih (by omega)).suivante le_rfl (hon _ (Nat.le_add_right _ _) hle)
        fun k hk hk' => absurd hk' (Nat.not_lt.mpr hk)
      rwa [show max (50000002 + 50000005 * i + 2) (50000002 + 50000005 * i) + 50000003 =
        50000002 + 50000005 * (i + 1) by omega] at h

end

section
variable (hc : ∀ k, (w k).continu = false) (hr : ∀ k, (w k).resetN = true)

include hc hr

theorem publie_tenue {j : ℕ} (hon : ∀ k, 50000002 ≤ k → k ≤ j → (w k).startStop = true) {t : ℕ}
    (ht : t ≤ j + 3) : (cycle u w t).second = .one ↔ ∃ i, t = 50000002 + 50000005 * i := by
  rw [publie_iff hc hr]
  constructor
  · rintro ⟨i, hi⟩
    exact ⟨i, hi.tenue hon ht⟩
  · rintro ⟨i, rfl⟩
    exact ⟨i, echeance_tenue hon i ht⟩

omit hc in
/-- `data_valid` rises with the first publication. -/
theorem dataValid_premiere (n : ℕ) : (cycle u w n).dataValid = .one ↔ 50000002 < n := by
  rw [dataValid_iff]
  constructor
  · rintro ⟨k, hk, hs⟩
    by_contra hn
    exact premiere_silence hr (by omega) hs
  · intro hn
    exact ⟨50000002, hn, premiere_publication fun k _ => hr k⟩

omit hc in
/-- A stop without a publication at the next two edges. -/
theorem arretObei_sans {j : ℕ} (h2 : (cycle u w (j + 2)).second ≠ .one)
    (h3 : (cycle u w (j + 3)).second ≠ .one) :
    ArretObei u w j ↔ u = .fpga ∧ j + 4 ≤ 50000002 := by
  constructor
  · rintro ((h | h) | h)
    · exact absurd h h2
    · exact absurd h h3
    · obtain ⟨hu, hno⟩ := (dataValid_zero_iff _).mp (h (j + 4) le_rfl fun k hk hk' => by omega)
      refine ⟨hu, ?_⟩
      by_contra hlt
      exact hno 50000002 (by omega) (premiere_publication fun k _ => hr k)
  · rintro ⟨hu, hj⟩
    right
    intro t ht hno
    refine (dataValid_zero_iff t).mpr ⟨hu, ?_⟩
    intro k hk
    refine premiere_silence hr ?_
    by_contra hlt
    exact hno 50000002 hj (by omega) (premiere_publication fun k _ => hr k)

/-- The stop of a request that has been held since the first publication. -/
theorem arretObei_iff {j : ℕ} (hon : ∀ k, 50000002 ≤ k → k ≤ j → (w k).startStop = true) :
    ArretObei u w j ↔ (u = .fpga ∧ j ≤ 50000000) ∨
      ∃ i, j + 2 = 50000002 + 50000005 * i ∨ j + 3 = 50000002 + 50000005 * i := by
  have hpub : (cycle u w (j + 2)).second = .one ∨ (cycle u w (j + 3)).second = .one ↔
      ∃ i, j + 2 = 50000002 + 50000005 * i ∨ j + 3 = 50000002 + 50000005 * i := by
    rw [publie_tenue hc hr hon (Nat.le_succ _), publie_tenue hc hr hon le_rfl, exists_or]
  rw [← hpub]
  by_cases h : (cycle u w (j + 2)).second = .one ∨ (cycle u w (j + 3)).second = .one
  · exact iff_of_true (Or.inl h) (Or.inr h)
  · obtain ⟨h2, h3⟩ := not_or.mp h
    rw [arretObei_sans hr h2 h3, or_iff_left h]
    refine and_congr_right ?_
    rintro -
    have hne2 : j + 2 ≠ 50000002 := fun he => h (hpub.mpr ⟨0, Or.inl he⟩)
    have hne3 : j + 3 ≠ 50000002 := fun he => h (hpub.mpr ⟨0, Or.inr he⟩)
    omega

variable {d : ℕ} (hd : 2 ≤ d)

omit hc in
/-- Requests that come in time: every measurement on the outputs is the one of the
last of them. -/
theorem mesureDemandee_de_avant (hav : ∀ f, debutDemande w f = true → f + d ≤ 50000002) {g : ℕ}
    (hg : debutDemande w g = true) {n : ℕ} (hg1 : g < n - 1) (hn : 50000002 < n) :
    MesureDemandee u w d n := by
  obtain ⟨f, hf⟩ := (dernier_ou_aucun (fun k => debutDemande w k = true) (n - 1)).resolve_left
    fun hno => hno g hg1 hg
  obtain ⟨p, hp⟩ := (neuf_ou_publie (u := u) (w := w) n).resolve_left
    fun hno => hno 50000002 hn (premiere_publication fun k _ => hr k)
  have hp1 : 50000002 ≤ p := by
    by_contra hlt
    exact premiere_silence hr (Nat.not_le.mp hlt) hp.pulse
  exact ⟨f, p, hf, hp, (hav f hf.pulse).trans hp1⟩

omit hr hc in
/-- And `start_stop` is held until it is released for good. -/
theorem tient_de_avant (hav : ∀ f, debutDemande w f = true → f + d ≤ 50000002) {j : ℕ}
    (hj : (w j).startStop = true) {k : ℕ} (hk : 50000002 ≤ k) (hkj : k ≤ j) :
    (w k).startStop = true := by
  by_contra hoff
  rw [Bool.not_eq_true] at hoff
  rcases Nat.eq_or_lt_of_le hkj with rfl | hlt
  · exact Bool.false_ne_true (hoff.symm.trans hj)
  · obtain ⟨f, hkf, hf⟩ := debut_entre hoff hlt hj
    have := hav f hf
    omega

include hd

omit hc in
/-- A request that comes too late leaves a measurement on the outputs that is not
its own. -/
theorem Protocole.avant (h : Protocole u w d) {f : ℕ} (hf : debutDemande w f = true) :
    f + d ≤ 50000002 := by
  obtain ⟨n, hn⟩ : ∃ n, n = max (f + 2) 50000003 := ⟨_, rfl⟩
  obtain ⟨g, p, hg, hp, hgp⟩ := h.demande n ((dataValid_premiere hr n).mpr (by omega))
  have hfg : f ≤ g := by
    by_contra hlt
    exact hg.silence f (by omega) (by omega) hf
  have hpn := hp.avant
  omega

/-- **The stop and the request.**  In single-shot mode without resets `data_valid`
keeps the protocol iff no request comes after the first publication and every stop
comes with a publication, or before the first one in a block that powers up with
`data_valid` at '0'. -/
theorem arret_iff : Protocole u w d ↔ SansReprise u w d := by
  constructor
  · intro h
    have hav : ∀ f, debutDemande w f = true → f + d ≤ 50000002 := fun f => h.avant hr hd
    obtain ⟨f, -, hf, -⟩ := h.demande 50000003 ((dataValid_premiere hr _).mpr (by decide))
    refine ⟨⟨f, hf.pulse⟩, hav, ?_⟩
    intro j hj
    exact (arretObei_iff hc hr fun _ => tient_de_avant hav hj.1).mp (h.arret j hj)
  · intro h
    refine ⟨?_, ?_⟩
    · intro j hj
      exact (arretObei_iff hc hr fun _ => tient_de_avant h.avant hj.1).mpr (h.arret j hj)
    · intro n hn
      have hlt := (dataValid_premiere hr n).mp hn
      obtain ⟨g, hg⟩ := h.demande
      have hgd := h.avant g hg
      exact mesureDemandee_de_avant hr h.avant hg (by omega) hlt

end

/-- A request held from power-on up to edge `j`. -/
def demande (j : ℕ) : ℕ → AnemometreEntrees := fun k => ⟨false, true, false, decide (k ≤ j)⟩

theorem debut_demande {j k : ℕ} : debutDemande (demande j) k = true ↔ k = 0 := by
  cases k with
  | zero => simp [debutDemande, demande]
  | succ k =>
      simp only [debutDemande, demande, Bool.and_eq_true, Bool.not_eq_true', decide_eq_true_eq,
        decide_eq_false_iff_not]
      omega

theorem arret_demande {j k : ℕ} : Arret (demande j) k ↔ k = j := by
  simp only [Arret, demande, decide_eq_true_eq, decide_eq_false_iff_not]
  omega

/-- Released two edges before the first publication. -/
theorem arret_iff_temoin : Protocole .simulation (demande 50000000) 50000002 := by
  refine (arret_iff (fun _ => rfl) (fun _ => rfl) (by decide)).mpr ?_
  refine ⟨⟨0, debut_demande.mpr rfl⟩, ?_, ?_⟩
  · intro f hf
    rw [debut_demande.mp hf, Nat.zero_add]
  · intro j hj
    exact Or.inr ⟨0, Or.inl (by rw [arret_demande.mp hj])⟩

/-- **A stop request leaves `data_valid` at '1'.** -/
theorem arret_ignore :
    (∀ k, (demande 50000003 k).continu = false ∧ (demande 50000003 k).resetN = true) ∧
      Arret (demande 50000003) 50000003 ∧ ¬ ArretObei .fpga (demande 50000003) 50000003 := by
  have hfirst : (cycle .fpga (demande 50000003) 50000002).second = .one :=
    premiere_publication fun _ _ => rfl
  obtain ⟨h3, -⟩ := reprise hfirst rfl rfl
  refine ⟨fun _ => ⟨rfl, rfl⟩, arret_demande.mpr rfl, ?_⟩
  have h5 : (cycle .fpga (demande 50000003) 50000005).second ≠ .one := h3.second
  have h6 : (cycle .fpga (demande 50000003) 50000006).second ≠ .one := h3.front_second
  rw [arretObei_sans (fun _ => rfl) h5 h6]
  rintro ⟨-, hle⟩
  exact absurd hle (by decide)

end BarreFranche.Anemometre
