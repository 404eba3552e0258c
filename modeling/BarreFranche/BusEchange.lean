/-
# `BusEchange` — every access once

A master that holds its controls while `av_waitrequest` is '1', and makes one access
at a time, finds each of its accesses to the slave done there exactly once, in
order, with its own address, data and byte enables, and gets the data of each read
(`livraison`).

The path keeps at most one access that the slave has done and the master has not
been told of (`enCours`).  A read is kept in `av_readdata_pre`, and the bit that
says so is the one of the response queue; a write, in `write_accepted`, unless the
master has already been made to wait for it: then the edge that does it also
completes it.  `Coherent` says how the bits of the path belong together.
-/
import BarreFranche.Bus

namespace BarreFranche.Bus

open Synchrone

variable {ι σ : Type*}

/-- One of the other slaves has an answer. -/
def Autre (E : Esclave ι σ) (e : BusEntrees ι) : Prop :=
  ∃ i, i < 5 ∧ i ≠ E.indice ∧ (e.voisin i).rpValid = true

/-- The other slaves answer only while a read of one of them is accepted and has no
answer yet. -/
def Voisinage (E : Esclave ι σ) (e : BusEntrees ι) (s : Bus σ) : Prop :=
  Autre E e → s.readAccepted = true ∧ ¬ Vise E e.av

/-- The bits of the path, under the controls of the master. -/
structure Coherent (E : Esclave ι σ) (a : Av) (s : Bus σ) : Prop where
  write : s.writeAccepted = true → a.write = true
  read : s.readAccepted = true → a.read = true
  accepte : s.writeAccepted = true ∨ s.readAccepted = true → s.endBegintransfer = false
  attend : s.endBegintransfer = true → Demande a
  shift : s.readLatencyShiftReg = true ↔ s.readAccepted = true ∧ Vise E a
  override : s.waitrequestResetOverride = true → s.holdWaitrequest = true
  fifo : ∃ r, ScFifo.Contient (if s.readLatencyShiftReg then [r] else []) s.rspFifo

/-- Done at the slave, and not completed for the master. -/
def enCours (E : Esclave ι σ) (a : Av) (s : Bus σ) : List Echange :=
  if s.readLatencyShiftReg then [⟨demande a, some s.avReaddataPre⟩]
  else if s.writeAccepted = true ∧ Vise E a then [⟨demande a, none⟩]
  else []

/-! ## The signals of a coherent path -/

section
variable {E : Esclave ι σ} {e : BusEntrees ι} {s : Bus σ}

theorem nonpostedWrite_eq : nonpostedWrite E e s = false := by
  rw [nonpostedWrite, localWrite, paquet]
  cases uavWrite e s <;> simp

theorem localRead_iff : localRead E e s = true ↔
    Vise E e.av ∧ uavRead e s = true ∧ s.holdWaitrequest = false := by
  simp only [localRead, cpValid, paquet, Vise, Bool.and_eq_true, Bool.or_eq_true,
    Bool.not_eq_true']
  exact ⟨fun ⟨⟨hc, _, hh⟩, hr⟩ => ⟨hc, hr, hh⟩, fun ⟨hc, hr, hh⟩ => ⟨⟨hc, Or.inr hr, hh⟩, hr⟩⟩

theorem localWrite_iff : localWrite E e s = true ↔
    Vise E e.av ∧ uavWrite e s = true ∧ s.holdWaitrequest = false := by
  simp only [localWrite, cpValid, paquet, Vise, Bool.and_eq_true, Bool.or_eq_true,
    Bool.not_eq_true']
  exact ⟨fun ⟨⟨hc, _, hh⟩, hw⟩ => ⟨hc, hw, hh⟩, fun ⟨hc, hw, hh⟩ => ⟨⟨hc, Or.inl hw, hh⟩, hw⟩⟩

/-- An access to the slave selects its channel alone. -/
theorem channel_vise {a : Av} (h : Vise E a) {i : ℕ} (hi : i < 5) :
    (channel E a).getLsbD i = decide (i = E.indice) := by
  rw [channel, E.unique _ h, BitVec.getLsbD_twoPow, Bool.eq_iff_iff]
  simp only [Bool.and_eq_true, decide_eq_true_eq]
  omega

/-- The alignment touches the lowest two bits only. -/
theorem aligne_extract (a : BitVec 16) {k n : ℕ} (hk : 2 ≤ k) (hn : k + n ≤ 16) :
    (aligne a).extractLsb' k n = a.extractLsb' k n := by
  refine BitVec.eq_of_getLsbD_eq fun i hi => ?_
  rw [aligne, BitVec.getLsbD_extractLsb', BitVec.getLsbD_append, BitVec.getLsbD_extractLsb',
    BitVec.getLsbD_extractLsb', if_neg (by omega), decide_eq_true hi,
    decide_eq_true (by omega : k + i - 2 < 14), show 2 + (k + i - 2) = k + i by omega]
  rfl

namespace Coherent

theorem outValid_eq {a : Av} (h : Coherent E a s) : s.rspFifo.outValid = s.readLatencyShiftReg := by
  obtain ⟨r, hr⟩ := h.fifo
  rw [Bool.eq_iff_iff, hr.outValid_iff]
  cases s.readLatencyShiftReg <;> simp

theorem rpValid_eq {a : Av} (h : Coherent E a s) : rpValid s = s.readLatencyShiftReg := by
  rw [rpValid, uncompressorValid, uavReaddatavalid, h.outValid_eq]
  cases s.readLatencyShiftReg <;> simp

theorem rfSinkReady_eq {a : Av} (h : Coherent E a s) :
    rfSinkReady s = s.readLatencyShiftReg := by
  rw [rfSinkReady, uncompressorValid, uavReaddatavalid, h.rpValid_eq, h.outValid_eq]
  cases s.readLatencyShiftReg <;> simp

/-- The queue has room for one more. -/
theorem ready {a : Av} (h : Coherent E a s) : readyForCommand s = true := by
  obtain ⟨r, hr⟩ := h.fifo
  rw [readyForCommand, hr.inReady_iff]
  refine Or.inl ?_
  cases s.readLatencyShiftReg <;> simp

theorem acces_read_iff {a : Av} (h : Coherent E a s) : (acces E e s).read = true ↔
    Vise E e.av ∧ uavRead e s = true ∧ s.holdWaitrequest = false := by
  show (readyForCommand s && localRead E e s) = true ↔ _
  rw [h.ready, Bool.true_and, localRead_iff]

theorem acces_write_iff {a : Av} (h : Coherent E a s) : (acces E e s).write = true ↔
    Vise E e.av ∧ uavWrite e s = true ∧ s.holdWaitrequest = false := by
  show (readyForCommand s && localWrite E e s) = true ↔ _
  rw [h.ready, Bool.true_and, localWrite_iff]

/-- An access that is not done yet is the one of the master. -/
theorem acces_eq {a : Av} (h : Coherent E a s) (hv : Vise E e.av) (hh : s.holdWaitrequest = false)
    (hr : s.readAccepted = false) (hw : s.writeAccepted = false) :
    acces E e s = demande e.av := by
  have hread : (acces E e s).read = e.av.read := by
    rw [Bool.eq_iff_iff, h.acces_read_iff, uavRead, hr]
    simp [hv, hh]
  have hwrite : (acces E e s).write = e.av.write := by
    rw [Bool.eq_iff_iff, h.acces_write_iff, uavWrite, hw]
    simp [hv, hh]
  rw [demande, ← hread, ← hwrite, ← aligne_extract _ le_rfl (by decide)]
  rfl

theorem uavWaitrequest_vise {a : Av} (h : Coherent E a s) (hv : Vise E e.av) :
    uavWaitrequest E e s = (s.holdWaitrequest || m0Waitrequest E e s) := by
  have hready : cmdReady E e s = cpReady E e s := by
    rw [Bool.eq_iff_iff, cmdReady, List.any_eq_true]
    constructor
    · rintro ⟨i, hi, hbit⟩
      rw [channel_vise hv (List.mem_range.mp hi), Bool.and_eq_true, decide_eq_true_eq] at hbit
      obtain ⟨rfl, hc⟩ := hbit
      rwa [cinq, if_pos rfl] at hc
    · intro hc
      refine ⟨E.indice, List.mem_range.mpr E.place, ?_⟩
      rw [channel_vise hv E.place, cinq, if_pos rfl, hc]
      simp
  rw [uavWaitrequest, hready, cpReady, h.ready]
  simp

/-- What the master sees of the answers. -/
theorem readdatavalid_iff {a : Av} (h : Coherent E a s) :
    readdatavalid E e s = true ↔ Autre E e ∨ s.readLatencyShiftReg = true := by
  rw [readdatavalid, List.any_eq_true]
  constructor
  · rintro ⟨i, hi, hv⟩
    by_cases hc : i = E.indice
    · rw [rspValid, cinq, if_pos hc, h.rpValid_eq] at hv
      exact Or.inr hv
    · rw [rspValid, cinq, if_neg hc] at hv
      exact Or.inl ⟨i, List.mem_range.mp hi, hc, hv⟩
  · rintro (⟨i, hi, hc, hv⟩ | hs)
    · exact ⟨i, List.mem_range.mpr hi, by rw [rspValid, cinq, if_neg hc, hv]⟩
    · exact ⟨E.indice, List.mem_range.mpr E.place, by rw [rspValid, cinq, if_pos rfl,
        h.rpValid_eq, hs]⟩

/-- The answer of the slave comes alone. -/
theorem avReaddata_eq {a : Av} (h : Coherent E a s) (hs : s.readLatencyShiftReg = true)
    (ha : ¬ Autre E e) : avReaddata E e s = s.avReaddataPre := by
  have hici : rspPayload E e s E.indice = s.avReaddataPre := by
    rw [rspPayload, rspValid, cinq, if_pos rfl, h.rpValid_eq, if_pos hs, cinq, if_pos rfl]
  have hnul : ∀ i, i < 5 → i ≠ E.indice → rspPayload E e s i = 0 := fun i hi hc => by
    rw [rspPayload, rspValid, cinq, if_neg hc, if_neg fun hv => ha ⟨i, hi, hc, hv⟩]
  have hp := E.place
  obtain h0 | h0 | h0 | h0 | h0 : E.indice = 0 ∨ E.indice = 1 ∨ E.indice = 2 ∨ E.indice = 3 ∨
      E.indice = 4 := by omega
  all_goals
    rw [h0] at hici hnul
    simp [avReaddata, hici, hnul]

/-- Without a read pending nobody answers. -/
theorem readdatavalid_false (h : Coherent E e.av s) (hn : Voisinage E e s)
    (hr : s.readAccepted = false) : readdatavalid E e s = false := by
  refine eq_false_of_ne_true fun hv => ?_
  have hone : s.readAccepted = true := by
    rcases h.readdatavalid_iff.mp hv with ha | hs
    · exact (hn ha).1
    · exact (h.shift.mp hs).1
  exact Bool.false_ne_true (hr.symm.trans hone)

/-- A read that is not accepted waits. -/
theorem avWaitrequest_lecture (h : Coherent E e.av s) (hn : Voisinage E e s)
    (hr : s.readAccepted = false) (haread : e.av.read = true) : avWaitrequest E e s = true := by
  rw [avWaitrequest, haread, h.readdatavalid_false hn hr]
  rfl

/-- What waits further on makes the master wait. -/
theorem avWaitrequest_attend (h : Coherent E e.av s) (hn : Voisinage E e s)
    (hr : s.readAccepted = false) (hw : s.writeAccepted = false)
    (hwait : uavWaitrequest E e s = true) : avWaitrequest E e s = true := by
  cases haread : e.av.read with
  | true => exact h.avWaitrequest_lecture hn hr haread
  | false =>
      rw [avWaitrequest, haread, hwait, hw]
      cases e.av.write <;> simp

/-! ## One edge -/

/-- The queue follows the bit. -/
theorem fifo_front (h : Coherent E e.av s) : ∃ r,
    ScFifo.Contient (if (front E e s).readLatencyShiftReg then [r] else [])
      (front E e s).rspFifo := by
  have hsource : rfSourceValid E e s = (front E e s).readLatencyShiftReg := by
    rw [rfSourceValid, nonpostedWrite_eq, cpReady, h.ready, Bool.or_false, front]
    show _ = (readyForCommand s && localRead E e s && _ && _)
    rw [h.ready]
    cases hl : localRead E e s with
    | false => rfl
    | true =>
        have hov : s.waitrequestResetOverride = false := by
          rw [← Bool.not_eq_true]
          intro ho
          exact absurd ((h.override ho).symm.trans (localRead_iff.mp hl).2.2) (by decide)
        rw [hov]
        cases m0Waitrequest E e s <;> rfl
  obtain ⟨r, hr⟩ := h.fifo
  have hf := hr.front (e := fifoEntrees s (rfSourceData E e s) (rfSourceValid E e s))
  have hread : ScFifo.read (fifoEntrees s (rfSourceData E e s) (rfSourceValid E e s)) s.rspFifo =
      s.readLatencyShiftReg := by
    rw [ScFifo.read, h.outValid_eq]
    show ((rfSinkReady s || !s.readLatencyShiftReg) && s.readLatencyShiftReg) = _
    rw [h.rfSinkReady_eq]
    cases s.readLatencyShiftReg <;> rfl
  have hwrite : ScFifo.write (fifoEntrees s (rfSourceData E e s) (rfSourceValid E e s))
      s.rspFifo = (front E e s).readLatencyShiftReg := by
    rw [← hsource]
    show (readyForCommand s && rfSourceValid E e s) = _
    rw [h.ready, Bool.true_and]
  rw [hread, hwrite] at hf
  refine ⟨rfSourceData E e s, ?_⟩
  cases hs : s.readLatencyShiftReg <;> cases hs' : (front E e s).readLatencyShiftReg <;>
    rw [hs, hs'] at hf <;> exact hf

/-- An edge after which nothing is under way. -/
theorem libre (a' : Av) (h : Coherent E e.av s) (hr : (front E e s).readAccepted = false)
    (hw : (front E e s).writeAccepted = false) (hb : (front E e s).endBegintransfer = false)
    (hs : (front E e s).readLatencyShiftReg = false) :
    Coherent E a' (front E e s) ∧ enCours E a' (front E e s) = [] := by
  refine ⟨⟨?_, ?_, fun _ => hb, ?_, ?_, ?_, h.fifo_front⟩, ?_⟩
  · exact fun h1 => absurd (hw.symm.trans h1) Bool.false_ne_true
  · exact fun h1 => absurd (hr.symm.trans h1) Bool.false_ne_true
  · exact fun h1 => absurd (hb.symm.trans h1) Bool.false_ne_true
  · rw [hs, hr]
    simp
  · exact fun h1 => absurd h1 Bool.false_ne_true
  · rw [enCours, hs, hw]
    simp

/-- The slave is not asked. -/
theorem transfert_none (hr : (acces E e s).read = false) (hw : (acces E e s).write = false) :
    transfert E e s = none := by
  rw [transfert, hr, hw]
  rfl

/-- The access of the master is what the slave does. -/
theorem transfert_some (h : Coherent E e.av s) (hv : Vise E e.av) (hd : Demande e.av)
    (hr : s.readAccepted = false) (hw : s.writeAccepted = false)
    (hwait : uavWaitrequest E e s = false) : transfert E e s =
      some ⟨demande e.av,
        if e.av.read then some (E.readdata (acces E e s) s.esclave) else none⟩ := by
  rw [h.uavWaitrequest_vise hv, Bool.or_eq_false_iff] at hwait
  have hacces := h.acces_eq hv hwait.1 hr hw
  have hdo : ((demande e.av).read || (demande e.av).write) = true := by
    rw [Bool.or_eq_true]
    exact hd
  rw [transfert, hwait.2, hacces, hdo]
  rfl

/-- Made to wait, or elsewhere. -/
theorem transfert_attend (h : Coherent E e.av s)
    (hno : Vise E e.av → uavWaitrequest E e s = true) : transfert E e s = none := by
  by_cases hv : Vise E e.av
  · have hwait := hno hv
    rw [h.uavWaitrequest_vise hv, Bool.or_eq_true] at hwait
    rcases hwait with hh | hm
    · refine transfert_none ?_ ?_ <;> rw [← Bool.not_eq_true]
      · exact fun hr => absurd (hh.symm.trans (h.acces_read_iff.mp hr).2.2) (by decide)
      · exact fun hw => absurd (hh.symm.trans (h.acces_write_iff.mp hw).2.2) (by decide)
    · rw [transfert, hm]
      simp
  · refine transfert_none ?_ ?_ <;> rw [← Bool.not_eq_true]
    · exact fun hr => hv (h.acces_read_iff.mp hr).1
    · exact fun hw => hv (h.acces_write_iff.mp hw).1

end Coherent

/-- What the edge makes of a coherent path, under the controls `a'` that come next. -/
structure Suite (E : Esclave ι σ) (e : BusEntrees ι) (s : Bus σ) (a' : Av) : Prop where
  coherent : Coherent E a' (front E e s)
  conserve : enCours E e.av s ++ (transfert E e s).toList =
    (acheve E e s).toList ++ enCours E a' (front E e s)

section
variable {a' : Av} (h : Coherent E e.av s) (hun : ¬ (e.av.read = true ∧ e.av.write = true))
  (hn : Voisinage E e s) (ht : Demande e.av → avWaitrequest E e s = true → a' = e.av)

include h

/-- Nobody asks. -/
theorem suite_repos (hr : s.readAccepted = false) (hw : s.writeAccepted = false)
    (hd : ¬ Demande e.av) : Suite E e s a' := by
  obtain ⟨haread, hawrite⟩ := not_or.mp hd
  rw [Bool.not_eq_true] at haread hawrite
  have hb : s.endBegintransfer = false := eq_false_of_ne_true fun hb => hd (h.attend hb)
  have hs : s.readLatencyShiftReg = false :=
    eq_false_of_ne_true fun hs => Bool.false_ne_true (hr.symm.trans (h.shift.mp hs).1)
  have hread : (acces E e s).read = false := by
    rw [← Bool.not_eq_true, h.acces_read_iff, uavRead, haread]
    simp
  have hwrite : (acces E e s).write = false := by
    rw [← Bool.not_eq_true, h.acces_write_iff, uavWrite, hawrite]
    simp
  obtain ⟨hc, he⟩ := h.libre a' (by simp [front, hr, haread])
    (by simp [front, hw, uavWrite, hawrite]) (by simp [front, begintransfer, uavWrite, uavRead,
      haread, hawrite, hb]) (by simp [front, hread])
  refine ⟨hc, ?_⟩
  rw [he, Coherent.transfert_none hread hwrite, acheve, enCours, hs, hw]
  simp [hd]

include hun

/-- The second cycle of a write. -/
theorem suite_ecrite (hw : s.writeAccepted = true) : Suite E e s a' := by
  have hawrite := h.write hw
  have haread : e.av.read = false := eq_false_of_ne_true fun hr => hun ⟨hr, hawrite⟩
  have hr : s.readAccepted = false :=
    eq_false_of_ne_true fun hr => Bool.false_ne_true (haread.symm.trans (h.read hr))
  have hb := h.accepte (Or.inl hw)
  have hs : s.readLatencyShiftReg = false :=
    eq_false_of_ne_true fun hs => Bool.false_ne_true (hr.symm.trans (h.shift.mp hs).1)
  have hread : uavRead e s = false := by rw [uavRead, haread]; rfl
  have hwrite : uavWrite e s = false := by rw [uavWrite, hw, Bool.not_true, Bool.and_false]
  have haccr : (acces E e s).read = false := by
    rw [← Bool.not_eq_true, h.acces_read_iff, hread]
    simp
  have haccw : (acces E e s).write = false := by
    rw [← Bool.not_eq_true, h.acces_write_iff, hwrite]
    simp
  have hwait : avWaitrequest E e s = false := by
    rw [avWaitrequest, haread, hawrite, hw]
    simp
  obtain ⟨hc, he⟩ := h.libre a' (by simp [front, hr, hwait])
    (by simp [front, hwait]) (by simp [front, begintransfer, hread, hwrite, hb])
    (by simp [front, haccr])
  refine ⟨hc, ?_⟩
  rw [he, Coherent.transfert_none haccr haccw, enCours, hs, hw, acheve, hwait, haread]
  by_cases hv : Vise E e.av <;> simp [hv, Demande, hawrite]

include ht

/-- A write is done: for a master that has just come, it takes one more cycle to
say so. -/
theorem suite_ecriture (hr : s.readAccepted = false) (hw : s.writeAccepted = false)
    (hawrite : e.av.write = true) (hwait : uavWaitrequest E e s = false) : Suite E e s a' := by
  have haread : e.av.read = false := eq_false_of_ne_true fun hr => hun ⟨hr, hawrite⟩
  have hs : s.readLatencyShiftReg = false :=
    eq_false_of_ne_true fun hs => Bool.false_ne_true (hr.symm.trans (h.shift.mp hs).1)
  have hr' : (front E e s).readAccepted = false := by simp [front, hr, haread]
  have hb' : (front E e s).endBegintransfer = false := by simp [front, hwait]
  have hread : (acces E e s).read = false := by
    rw [← Bool.not_eq_true, h.acces_read_iff, uavRead, haread]
    simp
  have hs' : (front E e s).readLatencyShiftReg = false := by simp [front, hread]
  have hav : avWaitrequest E e s = !s.endBegintransfer := by
    rw [avWaitrequest, haread, hawrite, begintransfer, uavWrite, hawrite, hwait, hw]
    simp
  have htr : transfert E e s = if Vise E e.av then some ⟨demande e.av, none⟩ else none := by
    by_cases hv : Vise E e.av
    · rw [h.transfert_some hv (Or.inr hawrite) hr hw hwait, haread, if_pos hv]
      rfl
    · rw [h.transfert_attend fun hv' => absurd hv' hv, if_neg hv]
  cases hb : s.endBegintransfer with
  | true =>
      rw [hb] at hav
      obtain ⟨hc, he⟩ := h.libre a' hr' (by simp [front, hav]) hb' hs'
      refine ⟨hc, ?_⟩
      rw [he, htr, acheve, hav, enCours, hs, hw, haread]
      by_cases hv : Vise E e.av <;> simp [hv, Demande, hawrite]
  | false =>
      rw [hb] at hav
      obtain rfl := ht (Or.inr hawrite) hav
      have hw' : (front E e s).writeAccepted = true := by
        simp [front, hav, uavWrite, hawrite, hw, hwait]
      refine ⟨⟨fun _ => hawrite, ?_, fun _ => hb', ?_, ?_, ?_, h.fifo_front⟩, ?_⟩
      · exact fun h1 => absurd (hr'.symm.trans h1) Bool.false_ne_true
      · exact fun h1 => absurd (hb'.symm.trans h1) Bool.false_ne_true
      · rw [hs', hr']
        simp
      · exact fun h1 => absurd h1 Bool.false_ne_true
      · rw [htr, acheve, hav, enCours, enCours, hs, hs', hw, hw']
        by_cases hv : Vise E e.av <;> simp [hv]

include hn

/-- A read that is accepted and not yet answered, or answered now. -/
theorem suite_lue (hr : s.readAccepted = true) : Suite E e s a' := by
  have haread := h.read hr
  have hawrite : e.av.write = false := eq_false_of_ne_true fun hw => hun ⟨haread, hw⟩
  have hw : s.writeAccepted = false :=
    eq_false_of_ne_true fun hw => Bool.false_ne_true (hawrite.symm.trans (h.write hw))
  have hb := h.accepte (Or.inr hr)
  have hread : uavRead e s = false := by rw [uavRead, hr, Bool.not_true, Bool.and_false]
  have hwrite : uavWrite e s = false := by rw [uavWrite, hawrite]; rfl
  have haccr : (acces E e s).read = false := by
    rw [← Bool.not_eq_true, h.acces_read_iff, hread]
    simp
  have haccw : (acces E e s).write = false := by
    rw [← Bool.not_eq_true, h.acces_write_iff, hwrite]
    simp
  have hwait : avWaitrequest E e s = !readdatavalid E e s := by rw [avWaitrequest, haread]; rfl
  have hw' : (front E e s).writeAccepted = false := by simp [front, hwrite, hw]
  have hb' : (front E e s).endBegintransfer = false := by
    simp [front, begintransfer, hread, hwrite, hb]
  have hs' : (front E e s).readLatencyShiftReg = false := by simp [front, haccr]
  have htr : transfert E e s = none := Coherent.transfert_none haccr haccw
  cases hrdv : readdatavalid E e s with
  | true =>
      rw [hrdv] at hwait
      obtain ⟨hc, he⟩ := h.libre a' (by simp [front, hr, hrdv]) hw' hb' hs'
      refine ⟨hc, ?_⟩
      rw [he, htr, acheve, hwait]
      by_cases hv : Vise E e.av
      · have hs := h.shift.mpr ⟨hr, hv⟩
        have ha : ¬ Autre E e := fun ha => (hn ha).2 hv
        rw [enCours, hs, haread, h.avReaddata_eq hs ha]
        simp [hv, Demande, haread]
      · have hs : s.readLatencyShiftReg = false :=
          eq_false_of_ne_true fun hs => hv (h.shift.mp hs).2
        rw [enCours, hs, hw]
        simp [hv]
  | false =>
      rw [hrdv] at hwait
      have hs : s.readLatencyShiftReg = false := eq_false_of_ne_true fun hs =>
        Bool.false_ne_true (hrdv.symm.trans (h.readdatavalid_iff.mpr (Or.inr hs)))
      have hv : ¬ Vise E e.av := fun hv =>
        Bool.false_ne_true (hs.symm.trans (h.shift.mpr ⟨hr, hv⟩))
      obtain rfl := ht (Or.inl haread) hwait
      have hr' : (front E e s).readAccepted = true := by
        simp [front, hr, hrdv]
      refine ⟨⟨?_, fun _ => haread, fun _ => hb', ?_, ?_, ?_, h.fifo_front⟩, ?_⟩
      · exact fun h1 => absurd (hw'.symm.trans h1) Bool.false_ne_true
      · exact fun h1 => absurd (hb'.symm.trans h1) Bool.false_ne_true
      · rw [hs']
        simp [hv]
      · exact fun h1 => absurd h1 Bool.false_ne_true
      · rw [htr, acheve, hwait, enCours, enCours, hs', hw', hs, hw]
        simp

omit hun in
/-- An access that waits: it is made again, unchanged. -/
theorem suite_attend (hr : s.readAccepted = false) (hw : s.writeAccepted = false)
    (hd : Demande e.av) (hwait : uavWaitrequest E e s = true) : Suite E e s a' := by
  have hs : s.readLatencyShiftReg = false :=
    eq_false_of_ne_true fun hs => Bool.false_ne_true (hr.symm.trans (h.shift.mp hs).1)
  have hav := h.avWaitrequest_attend hn hr hw hwait
  obtain rfl := ht hd hav
  have hr' : (front E e s).readAccepted = false := by simp [front, hr, hav, hwait]
  have hw' : (front E e s).writeAccepted = false := by simp [front, hw, hav, hwait]
  have hs' : (front E e s).readLatencyShiftReg = false := by
    show ((acces E e s).read && !m0Waitrequest E e s && !s.waitrequestResetOverride) = false
    refine eq_false_of_ne_true fun hgo => ?_
    simp only [Bool.and_eq_true, Bool.not_eq_true'] at hgo
    obtain ⟨⟨hread, hm⟩, -⟩ := hgo
    obtain ⟨hv, -, hh⟩ := h.acces_read_iff.mp hread
    rw [h.uavWaitrequest_vise hv, hh, hm] at hwait
    exact Bool.false_ne_true hwait
  refine ⟨⟨?_, ?_, ?_, fun _ => hd, ?_, ?_, h.fifo_front⟩, ?_⟩
  · exact fun h1 => absurd (hw'.symm.trans h1) Bool.false_ne_true
  · exact fun h1 => absurd (hr'.symm.trans h1) Bool.false_ne_true
  · rw [hw', hr']
    exact fun h1 => absurd h1 (by decide)
  · rw [hs', hr']
    simp
  · exact fun h1 => absurd h1 Bool.false_ne_true
  · rw [h.transfert_attend fun _ => hwait, acheve, hav, enCours, enCours, hs, hs', hw, hw']
    simp

/-- A read is accepted: it is done, and its data kept. -/
theorem suite_lecture (hr : s.readAccepted = false) (hw : s.writeAccepted = false)
    (haread : e.av.read = true) (hwait : uavWaitrequest E e s = false) : Suite E e s a' := by
  have hawrite : e.av.write = false := eq_false_of_ne_true fun hw => hun ⟨haread, hw⟩
  have hs : s.readLatencyShiftReg = false :=
    eq_false_of_ne_true fun hs => Bool.false_ne_true (hr.symm.trans (h.shift.mp hs).1)
  have hav := h.avWaitrequest_lecture (E := E) hn hr haread
  obtain rfl := ht (Or.inl haread) hav
  have hr' : (front E e s).readAccepted = true := by simp [front, hr, hav, haread, hwait]
  have hw' : (front E e s).writeAccepted = false := by
    simp [front, hw, hav, uavWrite, hawrite]
  have hb' : (front E e s).endBegintransfer = false := by simp [front, hwait]
  have hs' : (front E e s).readLatencyShiftReg = true ↔ Vise E e.av := by
    show ((acces E e s).read && !m0Waitrequest E e s && !s.waitrequestResetOverride) = true ↔ _
    simp only [Bool.and_eq_true, Bool.not_eq_true', h.acces_read_iff]
    constructor
    · exact fun h1 => h1.1.1.1
    · intro hv
      rw [h.uavWaitrequest_vise hv, Bool.or_eq_false_iff] at hwait
      refine ⟨⟨⟨hv, ?_, hwait.1⟩, hwait.2⟩, eq_false_of_ne_true fun ho => ?_⟩
      · rw [uavRead, haread, hr]
        rfl
      · exact Bool.false_ne_true (hwait.1.symm.trans (h.override ho))
  refine ⟨⟨?_, fun _ => haread, fun _ => hb', ?_, ?_, ?_, h.fifo_front⟩, ?_⟩
  · exact fun h1 => absurd (hw'.symm.trans h1) Bool.false_ne_true
  · exact fun h1 => absurd (hb'.symm.trans h1) Bool.false_ne_true
  · rw [hs', hr']
    simp
  · exact fun h1 => absurd h1 Bool.false_ne_true
  · rw [acheve, hav, enCours, enCours, hs, hw, hw']
    by_cases hv : Vise E e.av
    · rw [h.transfert_some hv (Or.inl haread) hr hw hwait, hs'.mpr hv, haread]
      simp [front]
    · rw [h.transfert_attend fun hv' => absurd hv' hv, eq_false_of_ne_true fun h1 => hv (hs'.mp h1)]
      simp

/-- **Every edge** keeps the path coherent, and loses no access. -/
theorem Coherent.suite : Suite E e s a' := by
  cases hr : s.readAccepted with
  | true => exact suite_lue h hun hn ht hr
  | false =>
      cases hw : s.writeAccepted with
      | true => exact suite_ecrite h hun hw
      | false =>
          by_cases hd : Demande e.av
          · cases hwait : uavWaitrequest E e s with
            | true => exact suite_attend h hn ht hr hw hd hwait
            | false =>
                rcases hd with haread | hawrite
                · exact suite_lecture h hun hn ht hr hw haread hwait
                · exact suite_ecriture h hun ht hr hw hawrite hwait
          · exact suite_repos h hr hw hd

end

/-! ## What the slave is shown -/

/-- The bits of an access that stands at the slave. -/
theorem Coherent.presente (h : Coherent E e.av s) (hun : ¬ (e.av.read = true ∧ e.av.write = true))
    (hdo : (acces E e s).read = true ∨ (acces E e s).write = true) :
    Vise E e.av ∧ s.holdWaitrequest = false ∧ Demande e.av ∧ s.readAccepted = false ∧
      s.writeAccepted = false := by
  rcases hdo with hread | hwrite
  · obtain ⟨hv, hr, hh⟩ := h.acces_read_iff.mp hread
    rw [uavRead, Bool.and_eq_true, Bool.not_eq_true'] at hr
    exact ⟨hv, hh, Or.inl hr.1, hr.2, eq_false_of_ne_true fun hw => hun ⟨hr.1, h.write hw⟩⟩
  · obtain ⟨hv, hw, hh⟩ := h.acces_write_iff.mp hwrite
    rw [uavWrite, Bool.and_eq_true, Bool.not_eq_true'] at hw
    exact ⟨hv, hh, Or.inr hw.1, eq_false_of_ne_true fun hr => hun ⟨h.read hr, hw.1⟩, hw.2⟩

/-- While it makes an access wait, the same one. -/
theorem Coherent.acces_attend {x : BusEntrees ι} (h : Coherent E e.av s)
    (h' : Coherent E x.av (front E e s)) (hun : ¬ (e.av.read = true ∧ e.av.write = true))
    (hn : Voisinage E e s) (ht : Demande e.av → avWaitrequest E e s = true → x.av = e.av)
    (hdo : (acces E e s).read = true ∨ (acces E e s).write = true)
    (hm : m0Waitrequest E e s = true) : acces E x (front E e s) = acces E e s := by
  obtain ⟨hv, hh, hd, hr, hw⟩ := h.presente hun hdo
  have hwait : uavWaitrequest E e s = true := by
    rw [h.uavWaitrequest_vise hv, hm, Bool.or_true]
  have hav := h.avWaitrequest_attend hn hr hw hwait
  have hx := ht hd hav
  rw [h.acces_eq hv hh hr hw, ← hx]
  exact h'.acces_eq (hx ▸ hv) rfl (by simp [front, hr, hav, hwait])
    (by simp [front, hw, hav, hwait])

/-- After a read, nothing. -/
theorem Coherent.acces_repos {x : BusEntrees ι} (h : Coherent E e.av s)
    (h' : Coherent E x.av (front E e s)) (hun : ¬ (e.av.read = true ∧ e.av.write = true))
    (hn : Voisinage E e s) (ht : Demande e.av → avWaitrequest E e s = true → x.av = e.av)
    (hread : (acces E e s).read = true) (hm : m0Waitrequest E e s = false) :
    (acces E x (front E e s)).read = false ∧ (acces E x (front E e s)).write = false := by
  obtain ⟨hv, hh, -, hr, -⟩ := h.presente hun (Or.inl hread)
  obtain ⟨-, haread, -⟩ := h.acces_read_iff.mp hread
  rw [uavRead, hr, Bool.not_false, Bool.and_true] at haread
  have hav := h.avWaitrequest_lecture (E := E) hn hr haread
  have hwait : uavWaitrequest E e s = false := by
    rw [h.uavWaitrequest_vise hv, hm, hh]
    rfl
  have hx := ht (Or.inl haread) hav
  have hr' : (front E e s).readAccepted = true := by simp [front, hr, hav, haread, hwait]
  constructor
  · rw [← Bool.not_eq_true, h'.acces_read_iff, uavRead, hr']
    simp
  · rw [← Bool.not_eq_true, h'.acces_write_iff, uavWrite, hx,
      eq_false_of_ne_true fun hw => hun ⟨haread, hw⟩]
    simp

/-- What is under way is completed by the next edge. -/
theorem Coherent.enCours_acheve (h : Coherent E e.av s)
    (hun : ¬ (e.av.read = true ∧ e.av.write = true)) (hn : Voisinage E e s) :
    enCours E e.av s <+: (acheve E e s).toList := by
  cases hs : s.readLatencyShiftReg with
  | true =>
      obtain ⟨hr, hv⟩ := h.shift.mp hs
      have haread := h.read hr
      have hrdv : readdatavalid E e s = true := h.readdatavalid_iff.mpr (Or.inr hs)
      have hwait : avWaitrequest E e s = false := by rw [avWaitrequest, haread, hrdv]; rfl
      have hac : acheve E e s = some ⟨demande e.av, some s.avReaddataPre⟩ := by
        rw [acheve, if_pos ⟨Or.inl haread, hv, hwait⟩, haread,
          h.avReaddata_eq hs fun ha => (hn ha).2 hv]
        rfl
      rw [enCours, hs, hac]
      exact List.prefix_rfl
  | false =>
      rw [enCours, hs]
      cases hw : s.writeAccepted with
      | false => exact List.nil_prefix
      | true =>
          have hawrite := h.write hw
          have haread : e.av.read = false := eq_false_of_ne_true fun hr => hun ⟨hr, hawrite⟩
          have hwait : avWaitrequest E e s = false := by
            rw [avWaitrequest, haread, hawrite, hw]
            simp
          by_cases hv : Vise E e.av
          · have hac : acheve E e s = some ⟨demande e.av, none⟩ := by
              rw [acheve, if_pos ⟨Or.inr hawrite, hv, hwait⟩, haread]
              rfl
            simp [hv, hac]
          · simp [hv]

end

/-! ## Runs -/

section
variable (E : Esclave ι σ) (esclave : σ) (w : ℕ → BusEntrees ι)

/-- A master that makes one access at a time and keeps to the protocol. -/
structure Maitre : Prop where
  un : ∀ k, ¬ ((w k).av.read = true ∧ (w k).av.write = true)
  tient : ∀ k, Demande (w k).av → avWaitrequest E (w k) (cycle E esclave w k) = true →
    (w (k + 1)).av = (w k).av

/-- The other slaves, in a run. -/
def Voisins : Prop := ∀ k, Voisinage E (w k) (cycle E esclave w k)

/-- What edge `k` does at the slave. -/
def fait (k : ℕ) : Option Echange := transfert E (w k) (cycle E esclave w k)

/-- What edge `k` completes for the master at the slave. -/
def rendu (k : ℕ) : Option Echange := acheve E (w k) (cycle E esclave w k)

/-- The pins of the slave. -/
def broches (k : ℕ) : Acces := acces E (w k) (cycle E esclave w k)

end

section
variable {E : Esclave ι σ} {esclave : σ} {w : ℕ → BusEntrees ι}

theorem cycle_succ (k : ℕ) : cycle E esclave w (k + 1) =
    front E (w k) (cycle E esclave w k) := run_succ k

theorem coherent_powerOn (a : Av) : Coherent E a (powerOn esclave) where
  write := fun h => absurd h Bool.false_ne_true
  read := fun h => absurd h Bool.false_ne_true
  accepte := fun _ => rfl
  attend := fun h => absurd h Bool.false_ne_true
  shift := ⟨fun h => absurd h Bool.false_ne_true, fun h => absurd h.1 Bool.false_ne_true⟩
  override := fun _ => rfl
  fifo := ⟨default, ScFifo.contient_vide⟩

/-- A slave at every address, that answers with the offset. -/
def echo : Esclave Unit Unit :=
  { srcChannel := fun _ => 0b10000
    indice := 4
    place := by decide
    unique := fun _ _ => rfl
    waitrequest := fun _ _ => false
    readdata := fun a _ => a.address.zeroExtend 32
    front := fun _ _ _ => () }

/-- A master that shows the same controls all the time, and other slaves that are
silent. -/
def toujours (a : Av) (x : ι) : ℕ → BusEntrees ι := fun _ => ⟨a, fun _ => ⟨true, false, 0⟩, x⟩

theorem maitre_toujours {a : Av} {x : ι} (ha : ¬ (a.read = true ∧ a.write = true)) :
    Maitre E esclave (toujours a x) where
  un := fun _ => ha
  tient := fun _ _ _ => rfl

theorem voisins_toujours (a : Av) (x : ι) : Voisins E esclave (toujours a x) := by
  rintro k ⟨i, -, -, h⟩
  exact absurd h Bool.false_ne_true

variable (hm : Maitre E esclave w) (hn : Voisins E esclave w)

include hm hn

theorem coherent_cycle (k : ℕ) : Coherent E (w k).av (cycle E esclave w k) := by
  induction k with
  | zero => exact coherent_powerOn _
  | succ k ih =>
      rw [cycle_succ]
      exact (ih.suite (hm.un k) (hn k) (hm.tient k)).coherent

/-- What has been done and not been completed is under way. -/
theorem passe_conserve (n : ℕ) : passe (fait E esclave w) 0 n =
    passe (rendu E esclave w) 0 n ++ enCours E (w n).av (cycle E esclave w n) := by
  refine file_traverse (l := fun k => enCours E (w k).av (cycle E esclave w k)) fun k _ => ?_
  rw [Nat.zero_add, cycle_succ]
  exact ((coherent_cycle hm hn k).suite (hm.un k) (hn k) (hm.tient k)).conserve

/-- What has been done is completed by the next edge. -/
theorem fait_prefixe (n : ℕ) :
    passe (fait E esclave w) 0 n <+: passe (rendu E esclave w) 0 (n + 1) := by
  rw [passe_conserve hm hn n, passe_succ, Nat.zero_add]
  exact (List.prefix_append_right_inj _).mpr
    ((coherent_cycle hm hn n).enCours_acheve (hm.un n) (hn n))

/-- The master is given what the slave showed one cycle before. -/
theorem rendu_lu {k : ℕ} {a : Acces} {v : BitVec 32}
    (h : rendu E esclave w k = some ⟨a, some v⟩) : ∃ m, k = m + 1 ∧
      v = E.readdata (broches E esclave w m) (cycle E esclave w m).esclave := by
  have hc := coherent_cycle hm hn k
  rw [rendu, acheve] at h
  split_ifs at h with hfin hread
  · obtain ⟨-, hv, hwait⟩ := hfin
    have hautre : ¬ Autre E (w k) := fun ha => (hn k ha).2 hv
    have hs : (cycle E esclave w k).readLatencyShiftReg = true := by
      rw [avWaitrequest, hread] at hwait
      exact (hc.readdatavalid_iff.mp (by simpa using hwait)).resolve_left hautre
    rw [hc.avReaddata_eq hs hautre] at h
    cases k with
    | zero => exact absurd hs Bool.false_ne_true
    | succ m =>
        refine ⟨m, rfl, ?_⟩
        rw [← Option.some_inj.mp (Prod.mk.inj (Option.some_inj.mp h)).2, cycle_succ]
        rfl
  · exact absurd (Prod.mk.inj (Option.some_inj.mp h)).2 (by simp)

/-- **Every access once.**  In every run since a reset, for every slave: what has
been done at the slave is what has been completed for the master, in the same
order, with the same address, data and byte enables, and the data of the reads;
and then at most one more. -/
theorem livraison (n : ℕ) : ∃ l, l.length ≤ 1 ∧
    passe (fait E esclave w) 0 n = passe (rendu E esclave w) 0 n ++ l := by
  refine ⟨enCours E (w n).av (cycle E esclave w n), ?_, passe_conserve hm hn n⟩
  rw [enCours]
  split_ifs <;> simp

omit hm hn in
/-- Reads at 0x1008, for ever. -/
theorem livraison_temoin : ∃ l, l.length ≤ 1 ∧
    passe (fait echo () (toujours ⟨true, false, 0x1008, 15, 0⟩ ())) 0 6 =
      passe (rendu echo () (toujours ⟨true, false, 0x1008, 15, 0⟩ ())) 0 6 ++ l :=
  livraison (maitre_toujours (by decide)) (voisins_toujours _ _) 6

theorem broches_un (k : ℕ) :
    ¬ ((broches E esclave w k).read = true ∧ (broches E esclave w k).write = true) := by
  have h := coherent_cycle hm hn k
  rintro ⟨hr, hw⟩
  obtain ⟨-, hr, -⟩ := h.acces_read_iff.mp hr
  obtain ⟨-, hw, -⟩ := h.acces_write_iff.mp hw
  rw [uavRead, Bool.and_eq_true] at hr
  rw [uavWrite, Bool.and_eq_true] at hw
  exact hm.un k ⟨hr.1, hw.1⟩

theorem broches_tient (k : ℕ)
    (hdo : (broches E esclave w k).read = true ∨ (broches E esclave w k).write = true)
    (hwait : E.waitrequest (broches E esclave w k) (cycle E esclave w k).esclave = true) :
    broches E esclave w (k + 1) = broches E esclave w k := by
  have h' := coherent_cycle hm hn (k + 1)
  rw [cycle_succ] at h'
  rw [broches, cycle_succ]
  exact (coherent_cycle hm hn k).acces_attend h' (hm.un k) (hn k) (hm.tient k) hdo hwait

theorem broches_repos (k : ℕ) (hr : (broches E esclave w k).read = true)
    (hwait : E.waitrequest (broches E esclave w k) (cycle E esclave w k).esclave = false) :
    (broches E esclave w (k + 1)).read = false ∧ (broches E esclave w (k + 1)).write = false := by
  have h' := coherent_cycle hm hn (k + 1)
  rw [cycle_succ] at h'
  rw [broches, cycle_succ]
  exact (coherent_cycle hm hn k).acces_repos h' (hm.un k) (hn k) (hm.tient k) hr hwait

/-- **The protocol at the slave.**  It is never asked for two things at once, is shown
the same access for as long as it makes it wait, and nothing in the cycle after a
read. -/
theorem protocole (k : ℕ) :
    ¬ ((broches E esclave w k).read = true ∧ (broches E esclave w k).write = true) ∧
      ((broches E esclave w k).read = true ∨ (broches E esclave w k).write = true →
        E.waitrequest (broches E esclave w k) (cycle E esclave w k).esclave = true →
          broches E esclave w (k + 1) = broches E esclave w k) ∧
      ((broches E esclave w k).read = true →
        E.waitrequest (broches E esclave w k) (cycle E esclave w k).esclave = false →
          (broches E esclave w (k + 1)).read = false ∧
            (broches E esclave w (k + 1)).write = false) :=
  ⟨broches_un hm hn k, broches_tient hm hn k, broches_repos hm hn k⟩

omit hm hn in
theorem protocole_temoin :
    (broches echo () (toujours ⟨true, false, 0x1008, 15, 0⟩ ()) 2).read = false ∧
      (broches echo () (toujours ⟨true, false, 0x1008, 15, 0⟩ ()) 2).write = false :=
  (protocole (maitre_toujours (by decide)) (voisins_toujours _ _) 1).2.2 (by decide) rfl

end

end BarreFranche.Bus
