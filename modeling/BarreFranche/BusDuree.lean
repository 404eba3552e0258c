/-
# `BusDuree` — how long an access takes

An access to the slave is never blocked by anything but the slave.  If it is made to
wait for `d` cycles, it is done at the edge after them; the master is told of a
read one cycle later, and of a write at that edge or, if it did not have to wait,
one cycle later (`duree`).  Nothing of what went before, nor what the other slaves
show, changes this.
-/
import BarreFranche.BusEchange

namespace BarreFranche.Bus

open Synchrone

variable {ι σ : Type*}

/-- Nothing is accepted; `b` says whether the access has been made to wait. -/
structure Pret (s : Bus σ) (b : Bool) : Prop where
  read : s.readAccepted = false
  write : s.writeAccepted = false
  attend : s.endBegintransfer = b
  hold : s.holdWaitrequest = false

section
variable {E : Esclave ι σ} {e : BusEntrees ι} {s : Bus σ} {b : Bool}

/-- After the last cycle of an access, or without one. -/
theorem Coherent.pret_front (h : Coherent E e.av s) (hun : ¬ (e.av.read = true ∧ e.av.write = true))
    (hn : Voisinage E e s) (hfin : Demande e.av → avWaitrequest E e s = false) :
    Pret (front E e s) false := by
  cases hr : s.readAccepted with
  | true =>
      have haread := h.read hr
      have hawrite : e.av.write = false := eq_false_of_ne_true fun hw => hun ⟨haread, hw⟩
      have hav := hfin (Or.inl haread)
      have hrdv : readdatavalid E e s = true := by
        rw [avWaitrequest, haread] at hav
        simpa using hav
      have hb := h.accepte (Or.inr hr)
      constructor <;>
        simp [front, hr, hrdv, hav, begintransfer, uavRead, uavWrite, hawrite, hb]
  | false =>
      cases hw : s.writeAccepted with
      | true =>
          have hawrite := h.write hw
          have haread : e.av.read = false := eq_false_of_ne_true fun hr => hun ⟨hr, hawrite⟩
          have hav := hfin (Or.inr hawrite)
          have hb := h.accepte (Or.inl hw)
          constructor <;>
            simp [front, hr, hav, begintransfer, uavRead, uavWrite, haread, hw, hb]
      | false =>
          by_cases hd : Demande e.av
          · have hav := hfin hd
            have hwait : uavWaitrequest E e s = false := by
              refine eq_false_of_ne_true fun hwait => ?_
              exact absurd ((h.avWaitrequest_attend hn hr hw hwait).symm.trans hav) (by decide)
            constructor <;> simp [front, hr, hav, hwait]
          · have hb : s.endBegintransfer = false := eq_false_of_ne_true fun hb => hd (h.attend hb)
            obtain ⟨haread, hawrite⟩ := not_or.mp hd
            rw [Bool.not_eq_true] at haread hawrite
            constructor <;>
              simp [front, hr, hw, begintransfer, uavRead, uavWrite, haread, hawrite, hb]

/-- After a cycle that made the access wait. -/
theorem Coherent.pret_attend (h : Coherent E e.av s) (hn : Voisinage E e s) (hp : Pret s b)
    (hd : Demande e.av) (hwait : uavWaitrequest E e s = true) :
    Pret (front E e s) true := by
  have hav := h.avWaitrequest_attend hn hp.read hp.write hwait
  have hdo : (uavWrite e s || uavRead e s) = true := by
    rw [uavWrite, uavRead, hp.read, hp.write, Bool.not_false, Bool.and_true, Bool.and_true,
      Bool.or_eq_true]
    exact hd.symm
  constructor
  · simp [front, hp.read, hav, hwait]
  · simp [front, hp.write, hav, hwait]
  · simp [front, begintransfer, hdo, hwait]
  · rfl

theorem Coherent.uavWaitrequest_pret (h : Coherent E e.av s) (hv : Vise E e.av) (hp : Pret s b) :
    uavWaitrequest E e s = E.waitrequest (demande e.av) s.esclave := by
  rw [h.uavWaitrequest_vise hv, hp.hold, Bool.false_or, m0Waitrequest,
    h.acces_eq hv hp.hold hp.read hp.write]

end

section
variable {E : Esclave ι σ} {esclave : σ} {w : ℕ → BusEntrees ι} {k d : ℕ}

/-- A new access: the one before is over. -/
def Debut (E : Esclave ι σ) (esclave : σ) (w : ℕ → BusEntrees ι) (k : ℕ) : Prop :=
  Demande (w (k + 1)).av ∧
    (Demande (w k).av → avWaitrequest E (w k) (cycle E esclave w k) = false)

variable (hm : Maitre E esclave w) (hn : Voisins E esclave w)

include hm hn

theorem pret_debut (hdeb : Debut E esclave w k) : Pret (cycle E esclave w (k + 1)) false := by
  rw [cycle_succ]
  exact (coherent_cycle hm hn k).pret_front (hm.un k) (hn k) hdeb.2

/-- For as long as the slave makes it wait, the access stands. -/
theorem attente (hdeb : Debut E esclave w k) (hv : Vise E (w (k + 1)).av)
    (hwait : ∀ i, i < d →
      E.waitrequest (demande (w (k + 1)).av) (cycle E esclave w (k + 1 + i)).esclave = true)
    {i : ℕ} (hi : i ≤ d) : (w (k + 1 + i)).av = (w (k + 1)).av ∧
      Pret (cycle E esclave w (k + 1 + i)) (decide (i ≠ 0)) := by
  induction i with
  | zero => exact ⟨rfl, pret_debut hm hn hdeb⟩
  | succ i ih =>
      obtain ⟨hav, hp⟩ := ih (Nat.le_of_succ_le hi)
      have h := coherent_cycle hm hn (k + 1 + i)
      have hd : Demande (w (k + 1 + i)).av := hav ▸ hdeb.1
      have hgo : uavWaitrequest E (w (k + 1 + i)) (cycle E esclave w (k + 1 + i)) = true := by
        rw [h.uavWaitrequest_pret (hav ▸ hv) hp, hav]
        exact hwait i hi
      have hmw := h.avWaitrequest_attend (hn _) hp.read hp.write hgo
      rw [← Nat.add_assoc]
      refine ⟨(hm.tient _ hd hmw).trans hav, ?_⟩
      rw [cycle_succ]
      exact h.pret_attend (hn _) hp hd hgo

/-- Until then the master waits. -/
theorem avWaitrequest_attente (hdeb : Debut E esclave w k) (hv : Vise E (w (k + 1)).av)
    (hwait : ∀ i, i < d →
      E.waitrequest (demande (w (k + 1)).av) (cycle E esclave w (k + 1 + i)).esclave = true)
    {i : ℕ} (hi : i < d) :
    avWaitrequest E (w (k + 1 + i)) (cycle E esclave w (k + 1 + i)) = true := by
  obtain ⟨hav, hp⟩ := attente hm hn hdeb hv hwait hi.le
  have h := coherent_cycle hm hn (k + 1 + i)
  refine h.avWaitrequest_attend (hn _) hp.read hp.write ?_
  rw [h.uavWaitrequest_pret (hav ▸ hv) hp, hav]
  exact hwait i hi

/-- A read: the master is told one cycle after. -/
theorem avWaitrequest_lue {n : ℕ} {b : Bool} (hp : Pret (cycle E esclave w n) b)
    (hv : Vise E (w n).av) (haread : (w n).av.read = true)
    (hgo : uavWaitrequest E (w n) (cycle E esclave w n) = false) :
    avWaitrequest E (w n) (cycle E esclave w n) = true ∧ (w (n + 1)).av = (w n).av ∧
      avWaitrequest E (w (n + 1)) (cycle E esclave w (n + 1)) = false := by
  have h := coherent_cycle hm hn n
  have h' := coherent_cycle hm hn (n + 1)
  have hav := h.avWaitrequest_lecture (E := E) (hn n) hp.read haread
  have hx := hm.tient n (Or.inl haread) hav
  refine ⟨hav, hx, ?_⟩
  have hr' : (cycle E esclave w (n + 1)).readAccepted = true := by
    rw [cycle_succ]
    simp [front, hp.read, hav, haread, hgo]
  have hrdv : readdatavalid E (w (n + 1)) (cycle E esclave w (n + 1)) = true :=
    h'.readdatavalid_iff.mpr (Or.inr (h'.shift.mpr ⟨hr', hx ▸ hv⟩))
  rw [avWaitrequest, hx, haread, hrdv]
  rfl

omit hn in
/-- A write: at once if it had to wait, else one cycle after. -/
theorem avWaitrequest_ecrite {n : ℕ} {b : Bool} (hp : Pret (cycle E esclave w n) b)
    (hawrite : (w n).av.write = true)
    (hgo : uavWaitrequest E (w n) (cycle E esclave w n) = false) :
    avWaitrequest E (w n) (cycle E esclave w n) = !b ∧ (b = false → (w (n + 1)).av = (w n).av ∧
      avWaitrequest E (w (n + 1)) (cycle E esclave w (n + 1)) = false) := by
  have haread : (w n).av.read = false := eq_false_of_ne_true fun hr => hm.un n ⟨hr, hawrite⟩
  have hav : avWaitrequest E (w n) (cycle E esclave w n) = !b := by
    rw [avWaitrequest, haread, hawrite, begintransfer, uavWrite, hawrite, hgo, hp.write, hp.attend]
    simp
  refine ⟨hav, fun hb => ?_⟩
  rw [hb] at hav
  have hx := hm.tient n (Or.inr hawrite) hav
  have hw' : (cycle E esclave w (n + 1)).writeAccepted = true := by
    rw [cycle_succ]
    simp [front, hav, uavWrite, hawrite, hp.write, hgo]
  refine ⟨hx, ?_⟩
  rw [avWaitrequest, hx, haread, hawrite, hw']
  simp

/-- A read ends one cycle after the edge that does it. -/
theorem lecture_finie (hdeb : Debut E esclave w k) (hv : Vise E (w (k + 1)).av)
    (haread : (w (k + 1)).av.read = true)
    (hwait : ∀ i, i < d →
      E.waitrequest (demande (w (k + 1)).av) (cycle E esclave w (k + 1 + i)).esclave = true)
    (hgo : E.waitrequest (demande (w (k + 1)).av) (cycle E esclave w (k + 1 + d)).esclave = false)
    {i : ℕ} (hi : i ≤ d + 1) : (w (k + 1 + i)).av = (w (k + 1)).av ∧
      (avWaitrequest E (w (k + 1 + i)) (cycle E esclave w (k + 1 + i)) = false ↔ i = d + 1) := by
  obtain ⟨havd, hpd⟩ := attente hm hn hdeb hv hwait le_rfl
  have hgod : uavWaitrequest E (w (k + 1 + d)) (cycle E esclave w (k + 1 + d)) = false := by
    rw [(coherent_cycle hm hn (k + 1 + d)).uavWaitrequest_pret (havd ▸ hv) hpd, havd]
    exact hgo
  obtain ⟨hd, hx, hlast⟩ := avWaitrequest_lue hm hn hpd (havd ▸ hv) (havd ▸ haread) hgod
  rcases Nat.lt_trichotomy i d with hlt | rfl | hgt
  · have hw := avWaitrequest_attente hm hn hdeb hv hwait hlt
    exact ⟨(attente hm hn hdeb hv hwait hlt.le).1, iff_of_false (by simp [hw]) (by omega)⟩
  · exact ⟨havd, iff_of_false (by simp [hd]) (by omega)⟩
  · obtain rfl : i = d + 1 := by omega
    exact ⟨hx.trans havd, iff_of_true hlast rfl⟩

/-- A write ends with that edge, but takes two cycles. -/
theorem ecriture_finie (hdeb : Debut E esclave w k) (hv : Vise E (w (k + 1)).av)
    (hawrite : (w (k + 1)).av.write = true)
    (hwait : ∀ i, i < d →
      E.waitrequest (demande (w (k + 1)).av) (cycle E esclave w (k + 1 + i)).esclave = true)
    (hgo : E.waitrequest (demande (w (k + 1)).av) (cycle E esclave w (k + 1 + d)).esclave = false)
    {i : ℕ} (hi : i ≤ max 1 d) : (w (k + 1 + i)).av = (w (k + 1)).av ∧
      (avWaitrequest E (w (k + 1 + i)) (cycle E esclave w (k + 1 + i)) = false ↔ i = max 1 d) := by
  obtain ⟨havd, hpd⟩ := attente hm hn hdeb hv hwait le_rfl
  have hgod : uavWaitrequest E (w (k + 1 + d)) (cycle E esclave w (k + 1 + d)) = false := by
    rw [(coherent_cycle hm hn (k + 1 + d)).uavWaitrequest_pret (havd ▸ hv) hpd, havd]
    exact hgo
  obtain ⟨hd, hlast⟩ := avWaitrequest_ecrite hm hpd (havd ▸ hawrite) hgod
  rcases Nat.eq_zero_or_pos d with rfl | hpos
  · obtain ⟨hx, hlast⟩ := hlast rfl
    rcases Nat.eq_zero_or_pos i with rfl | hi0
    · exact ⟨havd, iff_of_false (by simp [hd]) (by omega)⟩
    · obtain rfl : i = 1 := by omega
      exact ⟨hx.trans havd, iff_of_true hlast rfl⟩
  · rw [Nat.max_eq_right hpos] at hi ⊢
    rcases Nat.lt_or_eq_of_le hi with hlt | rfl
    · have hw := avWaitrequest_attente hm hn hdeb hv hwait hlt
      exact ⟨(attente hm hn hdeb hv hwait hlt.le).1, iff_of_false (by simp [hw]) (by omega)⟩
    · exact ⟨havd, iff_of_true (by simp [hd, hpos.ne']) rfl⟩

/-- The last cycle of an access that has been made to wait for `d` cycles. -/
def derniere (a : Av) (d : ℕ) : ℕ := if a.read = true then d + 1 else max 1 d

/-- **Never blocked.**  An access to the slave that begins at cycle `k + 1`, and that
the slave makes wait for `d` cycles, ends for the master with the cycle
`derniere` says, and not before. -/
theorem duree (hdeb : Debut E esclave w k) (hv : Vise E (w (k + 1)).av)
    (hwait : ∀ i, i < d →
      E.waitrequest (demande (w (k + 1)).av) (cycle E esclave w (k + 1 + i)).esclave = true)
    (hgo : E.waitrequest (demande (w (k + 1)).av) (cycle E esclave w (k + 1 + d)).esclave = false)
    {i : ℕ} (hi : i ≤ derniere (w (k + 1)).av d) :
    (w (k + 1 + i)).av = (w (k + 1)).av ∧
      (avWaitrequest E (w (k + 1 + i)) (cycle E esclave w (k + 1 + i)) = false ↔
        i = derniere (w (k + 1)).av d) := by
  rcases hdeb.1 with haread | hawrite
  · rw [derniere, if_pos haread] at hi ⊢
    exact lecture_finie hm hn hdeb hv haread hwait hgo hi
  · rw [derniere, if_neg fun hr => hm.un (k + 1) ⟨hr, hawrite⟩] at hi ⊢
    exact ecriture_finie hm hn hdeb hv hawrite hwait hgo hi

omit hm hn in
/-- Reads at 0x1008, for ever: the second one begins at cycle 3, and ends at 4. -/
theorem duree_temoin :
    avWaitrequest echo (toujours ⟨true, false, 0x1008, 15, 0⟩ () 4)
      (cycle echo () (toujours ⟨true, false, 0x1008, 15, 0⟩ ()) 4) = false :=
  (duree (k := 2) (d := 0) (i := 1) (maitre_toujours (by decide)) (voisins_toujours _ _)
    ⟨Or.inl rfl, fun _ => by decide⟩ (by decide) (fun _ hi => absurd hi (Nat.not_lt_zero _)) rfl
    (by decide)).2.mpr rfl

end

end BarreFranche.Bus
