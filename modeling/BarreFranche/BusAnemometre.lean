/-
# `BusAnemometre` — from the sensor to `printf`

The whole of the wind speed measurement in the Nios system of `SOPC_dev`: the block
that counts the edges of the sensor, the peripheral compiled into the system, its
translator, the path from the data master, and the loop of `hello_world_small.c`
that reads it.

Nothing is assumed of the processor but that its accesses to the peripheral are, in
order, those of the program (`deroule`): at any time, with any delay between them,
and with any others in between.  What `printf` is given then goes back to the block:

    config_cycle          the control bits are those of the last write done
    valeur_affichee       every value is the one last published, never an old one
    frequence_lue         and counts the edges of one second, less than two old

The second of `frequence_lue` has to be a whole one, hence a publication after
the configuration and one more after that: what is shown before has been counted
under other controls.
-/
import BarreFranche.AnemometreCopie
import BarreFranche.BusFixe

namespace BarreFranche

open Synchrone

namespace AnemometreCopie

/-! ## The peripheral on the bus -/

/-- The address decoder of the router; what no span holds goes to channel 4. -/
def srcChannel (a : BitVec 16) : BitVec 6 :=
  if a.extractLsb' 3 13 = 0x1205 then 0b00001
  else if a.extractLsb' 3 13 = 0x1204 then 0b00010
  else if a.extractLsb' 4 12 = 0x900 then 0b01000
  else if a.extractLsb' 11 5 = 0x11 then 0b00100
  else 0b10000

theorem srcChannel_unique (a : BitVec 16) (h : (srcChannel a).getLsbD 1 = true) :
    srcChannel a = BitVec.twoPow 6 1 := by
  unfold srcChannel at *
  split_ifs at * with h1 h2 h3 h4
  · exact absurd h (by decide)
  · rfl
  · exact absurd h (by decide)
  · exact absurd h (by decide)
  · exact absurd h (by decide)

theorem place : 1 < 5 := by decide

/-- The pins of the peripheral: the sensor, and what the translator shows. -/
def broches (inFreqAnemometre : Bool) (b : Broches) : AnemometreAvalonEntrees :=
  { niveaux := []
    resetN := true
    inFreqAnemometre := inFreqAnemometre
    address := b.address.getLsbD 0
    writedata := b.writedata
    writeN := !b.write
    chipselect := b.chipselect }

/-- The peripheral and its place, 8 bytes at 0x9020. -/
def fixe : EsclaveFixe Bool AnemometreAvalon :=
  { srcChannel := srcChannel
    indice := 1
    place := place
    unique := srcChannel_unique
    readdata := fun _ s => AnemometreAvalon.readdata s
    front := fun x b s => etape (broches x b) s }

/-! ## The control bits -/

/-- The three registers the program writes. -/
structure Config where
  startStop : Bool
  continu : Bool
  internalReset : Bool
deriving DecidableEq, Repr

namespace Config

def de (s : AnemometreAvalon) : Config := ⟨s.sStartStop, s.sContinu, s.sInternalReset⟩

/-- After one more access. -/
def apres (c : Config) (y : Bus.Echange) : Config :=
  if y.2 = none ∧ y.1.address.getLsbD 0 = false then
    ⟨y.1.writedata.getLsbD 2, y.1.writedata.getLsbD 1, y.1.writedata.getLsbD 0⟩
  else c

end Config

theorem config_etape (x : Bool) (b : Broches) (s : AnemometreAvalon) :
    Config.de (etape (broches x b) s) =
      if (b.chipselect = true ∧ b.write = true) ∧ b.address.getLsbD 0 = false then
        ⟨b.writedata.getLsbD 2, b.writedata.getLsbD 1, b.writedata.getLsbD 0⟩
      else Config.de s := by
  have hiff : AnemometreAvalon.Ecriture (broches x b) ↔
      (b.chipselect = true ∧ b.write = true) ∧ b.address.getLsbD 0 = false := by
    rw [AnemometreAvalon.Ecriture, broches, Bool.not_eq_false']
  have hreset : ¬ (broches x b).resetN = false := Bool.noConfusion
  show Config.de (AnemometreAvalon.front (broches x b) s) = _
  simp only [Config.de, AnemometreAvalon.front, hiff, if_neg hreset]
  split_ifs <;> rfl

theorem config_vu {b : Broches} {s : AnemometreAvalon} {e : Option Bus.Echange} (x : Bool)
    (h : Traducteur.Vu fixe b s e) :
    Config.de (etape (broches x b) s) = e.toList.foldl Config.apres (Config.de s) := by
  rw [config_etape]
  cases h with
  | rien hb => simp [hb]
  | lu a hread hb => simp [hb, Config.apres]
  | ecrit a hread hwrite hb => simp [hb, Config.apres]

/-! ## The program -/

/-- Where the program stands: before `ANEMOMETRE_Config`, before the read it tests,
before the one it shows. -/
inductive Point where
  | config
  | teste
  | affiche
deriving DecidableEq, Repr

/-- The next access to the peripheral and where it leads; `none` is not one of the
program's. -/
def Point.suivant : Point → Bus.Echange → Option Point
  | .config, (a, none) =>
      if a.address = 0 ∧ a.writedata = AnemometreAvalon.config 1 1 1 then some .teste else none
  | .teste, (a, some mot) =>
      if a.address = 0 then
        some (if AnemometreAvalon.teste mot = true then .affiche else .teste)
      else none
  | .affiche, (a, some _) => if a.address = 0 then some .teste else none
  | _, _ => none

/-- The program, along its accesses so far. -/
def deroule (l : List Bus.Echange) : Option Point := l.foldlM Point.suivant .config

section
variable {p q : Point} {y : Bus.Echange} {l m : List Bus.Echange} {c : Config}

/-- The configuration is written once. -/
theorem suivant_config (h : p.suivant y = some q) : q ≠ .config := by
  obtain ⟨a, d⟩ := y
  cases p <;> cases d <;> simp only [Point.suivant, reduceCtorEq] at h
  all_goals split_ifs at h <;> obtain rfl := Option.some_inj.mp h <;> decide

theorem suivant_apres (h : p.suivant y = some q) :
    c.apres y = if p = .config then ⟨true, true, true⟩ else c := by
  obtain ⟨a, d⟩ := y
  cases p <;> cases d <;> simp only [Point.suivant, reduceCtorEq] at h
  · split_ifs at h with ha
    rw [Config.apres, ha.1, ha.2]
    rfl
  all_goals rfl

theorem deroule_append : deroule (l ++ [y]) = (deroule l).bind fun p => p.suivant y := by
  rw [deroule, List.foldlM_append]
  simp [deroule]

/-- The program has written its configuration. -/
def Configure (l : List Bus.Echange) : Prop := ∃ p, deroule l = some p ∧ p ≠ .config

/-- From then on the control bits are set. -/
theorem configure_config (h : Configure l) : l.foldl Config.apres c = ⟨true, true, true⟩ := by
  induction l using List.reverseRecOn with
  | nil =>
      obtain ⟨p, hp, hne⟩ := h
      exact absurd (Option.some_inj.mp hp).symm hne
  | append_singleton l y ih =>
      obtain ⟨q, hq, -⟩ := h
      rw [deroule_append, Option.bind_eq_some_iff] at hq
      obtain ⟨p, hp, hy⟩ := hq
      rw [List.foldl_append, List.foldl_cons, List.foldl_nil, suivant_apres hy]
      split_ifs with hc
      · rfl
      · exact ih ⟨p, hp, hc⟩

theorem deroule_prefixe (hlm : l <+: m) (hm : (deroule m).isSome = true) :
    (deroule l).isSome = true := by
  obtain ⟨r, rfl⟩ := hlm
  rw [deroule, List.foldlM_append] at hm
  exact Option.isSome_of_isSome_bind hm

/-- And the program goes on. -/
theorem configure_prefixe (h : Configure l) (hlm : l <+: m) (hm : (deroule m).isSome = true) :
    Configure m := by
  obtain ⟨r, rfl⟩ := hlm
  rcases List.eq_nil_or_concat' r with rfl | ⟨r, y, rfl⟩
  · rwa [List.append_nil]
  · rw [← List.append_assoc] at hm ⊢
    obtain ⟨q, hq⟩ := Option.isSome_iff_exists.mp hm
    have hb := hq
    rw [deroule_append, Option.bind_eq_some_iff] at hb
    obtain ⟨p, -, hy⟩ := hb
    exact ⟨q, hq, suivant_config hy⟩

/-- What is shown comes after a test. -/
theorem suivant_affiche (h : p.suivant y = some .affiche) :
    ∃ mot, y.2 = some mot ∧ AnemometreAvalon.teste mot = true := by
  obtain ⟨a, d⟩ := y
  cases d with
  | none => cases p <;> simp [Point.suivant] at h
  | some mot =>
      refine ⟨mot, rfl, ?_⟩
      cases p <;> simp [Point.suivant] at h
      exact h.2

theorem affiche_teste (h : deroule l = some .affiche) :
    ∃ a mot, (a, some mot) ∈ l ∧ AnemometreAvalon.teste mot = true := by
  rcases List.eq_nil_or_concat' l with rfl | ⟨l, y, rfl⟩
  · exact absurd h (by decide)
  · rw [deroule_append, Option.bind_eq_some_iff] at h
    obtain ⟨p, -, hy⟩ := h
    obtain ⟨mot, hmot, ht⟩ := suivant_affiche hy
    exact ⟨y.1, mot, List.mem_append_right _ (List.mem_singleton.mpr (Prod.ext rfl hmot.symm)), ht⟩

end

/-! ## Runs -/

/-- The pins of the peripheral from power-on: those before the bus was out of reset,
for `r` cycles, and then those on the bus. -/
def total (avant : ℕ → AnemometreAvalonEntrees) (r : ℕ) (w : ℕ → BusEntrees Bool) (n : ℕ) :
    AnemometreAvalonEntrees :=
  if n < r then avant n
  else broches (w (n - r)).externe (Bus.brochesFixe fixe (cycle avant r) w (n - r))

/-- What the block samples. -/
def capteur (avant : ℕ → AnemometreAvalonEntrees) (r : ℕ) (w : ℕ → BusEntrees Bool) :
    ℕ → AnemometreEntrees :=
  entrees (total avant r w)

end AnemometreCopie

namespace Bus

open AnemometreCopie

section
variable {avant : ℕ → AnemometreAvalonEntrees} {r : ℕ} {w : ℕ → BusEntrees Bool}

theorem cycle_avant {n : ℕ} (hn : n ≤ r) :
    AnemometreCopie.cycle (total avant r w) n = AnemometreCopie.cycle avant n := by
  induction n with
  | zero => rfl
  | succ n ih =>
      show etape (total avant r w n) (AnemometreCopie.cycle (total avant r w) n) = etape _ _
      rw [ih (Nat.le_of_succ_le hn), total, if_pos (Nat.lt_of_succ_le hn)]
      rfl

/-- The peripheral on the bus runs as the peripheral alone. -/
theorem interne_cycle (k : ℕ) : interne fixe (AnemometreCopie.cycle avant r) w k =
    AnemometreCopie.cycle (total avant r w) (r + k) := by
  induction k with
  | zero => exact (cycle_avant le_rfl).symm
  | succ k ih =>
      rw [interne_succ, ih, ← Nat.add_assoc]
      show etape _ _ = etape _ _
      congr 1
      rw [total, if_neg (by omega), Nat.add_sub_cancel_left]

theorem capteur_resetN (k : ℕ) : (capteur avant r w (r + k)).resetN = true := by
  show (total avant r w (r + k)).resetN = true
  rw [total, if_neg (by omega)]
  rfl

theorem capteur_continu (k : ℕ) : (capteur avant r w (r + k)).continu =
    (interne fixe (AnemometreCopie.cycle avant r) w k).sContinu := by
  show (AnemometreAvalon.avantFront (total avant r w (r + k))
    (AnemometreCopie.cycle (total avant r w) (r + k))).sContinu = _
  rw [← interne_cycle, total, if_neg (by omega)]
  rfl

/-- A word other than 0 has been published. -/
theorem mot_publie {x : ℕ → AnemometreAvalonEntrees} {n : ℕ}
    (h : AnemometreAvalon.readdata (AnemometreCopie.cycle x n) ≠ 0) :
    ∃ j, Anemometre.DernierePublication .fpga (AnemometreCopie.entrees x) n j := by
  rcases Anemometre.neuf_ou_publie (u := .fpga) (w := AnemometreCopie.entrees x) n with hno | hj
  · obtain ⟨hdata, hvalid⟩ := Anemometre.sorties_neuves hno
    rw [Ne, AnemometreAvalon.readdata_eq_zero, AnemometreCopie.cycle_anemometre1, hdata,
      hvalid] at h
    exact absurd ⟨by decide, rfl⟩ h
  · exact hj

/-- The low byte is what the last publication has left. -/
theorem getFreq_publie {x : ℕ → AnemometreAvalonEntrees} {n j : ℕ}
    (hj : Anemometre.DernierePublication .fpga (AnemometreCopie.entrees x) n j) :
    AnemometreAvalon.getFreq (AnemometreAvalon.readdata (AnemometreCopie.cycle x n)) =
      (Anemometre.cycle .fpga (AnemometreCopie.entrees x) (j + 1)).dataAnemometre.setWidth 32 := by
  rw [AnemometreAvalon.getFreq_readdata, AnemometreCopie.cycle_anemometre1,
    (Anemometre.sorties_publiees hj).1]

/-- In continuous mode the last publication is a second old at most. -/
theorem derniere_seconde {x : ℕ → AnemometreEntrees} {b t n : ℕ} (hbt : b < t)
    (hrun : ∀ k, b ≤ k → (x k).continu = true ∧ (x k).resetN = true)
    (ht : (Anemometre.cycle .fpga x t).second = .one) (hn : t + 50000005 < n) :
    ∃ q, t ≤ q ∧ (Anemometre.cycle .fpga x q).second = .one ∧ q + 50000005 < n ∧
      n ≤ q + 2 * 50000005 := by
  have hsec : ∀ i, (Anemometre.cycle .fpga x (t + i * 50000005)).second = .one := by
    intro i
    induction i with
    | zero => rwa [Nat.zero_mul]
    | succ i ih =>
        rw [Nat.succ_mul, ← Nat.add_assoc]
        exact Anemometre.continu_publie (by omega) hrun ih
  exact ⟨t + ((n - 1 - t) / 50000005 - 1) * 50000005, by omega, hsec _, by omega, by omega⟩

variable (hm : Maitre fixe.surBus (.powerOn (AnemometreCopie.cycle avant r)) w)
  (hn : Voisins fixe.surBus (.powerOn (AnemometreCopie.cycle avant r)) w)

include hm hn

/-- The control bits are those of the last write done. -/
theorem config_cycle (n : ℕ) : Config.de (interne fixe (AnemometreCopie.cycle avant r) w n) =
    (passe (fait fixe.surBus (.powerOn (AnemometreCopie.cycle avant r)) w) 0 n).foldl Config.apres
      (Config.de (AnemometreCopie.cycle avant r)) := by
  induction n with
  | zero => rfl
  | succ n ih =>
      rw [passe_succ, List.foldl_append, ← ih, interne_succ, Nat.zero_add]
      exact config_vu _ (vu_cycle hm hn n)

/-- After its configuration the program leaves the control bits set. -/
theorem continu_programme
    (hprog : ∀ n, (deroule (passe (rendu fixe.surBus (.powerOn (AnemometreCopie.cycle avant r)) w)
      0 n)).isSome = true)
    {c : ℕ} (hc : Configure (passe (rendu fixe.surBus (.powerOn (AnemometreCopie.cycle avant r)) w)
      0 c))
    (d : ℕ) : (interne fixe (AnemometreCopie.cycle avant r) w (c + d)).sContinu = true := by
  have hfait : Configure
      (passe (fait fixe.surBus (.powerOn (AnemometreCopie.cycle avant r)) w) 0 (c + d)) := by
    have hcd : passe (rendu fixe.surBus (.powerOn (AnemometreCopie.cycle avant r)) w) 0 c <+:
        passe (fait fixe.surBus (.powerOn (AnemometreCopie.cycle avant r)) w) 0 (c + d) := by
      refine List.IsPrefix.trans ?_ (passe_prefixe d)
      rw [passe_conserve hm hn c]
      exact List.prefix_append _ _
    exact configure_prefixe hc hcd (deroule_prefixe (fait_prefixe hm hn (c + d)) (hprog _))
  have hconfig := config_cycle hm hn (c + d)
  rw [configure_config hfait] at hconfig
  exact congrArg Config.continu hconfig

/-- Every word the program reads has been on the pins one cycle before. -/
theorem mot_lu {k : ℕ} {a : Acces} {v : BitVec 32}
    (h : rendu fixe.surBus (.powerOn (AnemometreCopie.cycle avant r)) w k = some ⟨a, some v⟩) :
    ∃ m, k = m + 1 ∧
      v = AnemometreAvalon.readdata (AnemometreCopie.cycle (total avant r w) (r + m)) := by
  obtain ⟨m, hkm, hv⟩ := rendu_lu hm hn h
  refine ⟨m, hkm, ?_⟩
  rw [← interne_cycle]
  exact hv

/-- **Nothing old, nothing made up.**  What the program shows is the value that the
last publication before the read has put on `data_anemometre`, at any time and
whatever the controls have been. -/
theorem valeur_affichee {k : ℕ} {a : Acces} {mot : BitVec 32}
    (hp : deroule (passe (rendu fixe.surBus (.powerOn (AnemometreCopie.cycle avant r)) w) 0 k) =
      some .affiche)
    (hk : rendu fixe.surBus (.powerOn (AnemometreCopie.cycle avant r)) w k = some ⟨a, some mot⟩) :
    ∃ m j, k = m + 1 ∧ Anemometre.DernierePublication .fpga (capteur avant r w) (r + m) j ∧
      AnemometreAvalon.getFreq mot =
        (Anemometre.cycle .fpga (capteur avant r w) (j + 1)).dataAnemometre.setWidth 32 := by
  obtain ⟨m, rfl, hword⟩ := mot_lu hm hn hk
  obtain ⟨a', mot', hmem, ht⟩ := affiche_teste hp
  obtain ⟨i, hi, hread⟩ := List.mem_filterMap.mp hmem
  obtain ⟨l, rfl, hword'⟩ := mot_lu hm hn hread
  have hlm : l + 1 < m + 1 := by simpa using List.mem_range'_1.mp hi
  rw [hword', AnemometreAvalon.teste_iff] at ht
  obtain ⟨p, hpub⟩ := mot_publie ht
  have hpm : p < r + m := hpub.avant.trans (by omega)
  rcases Anemometre.neuf_ou_publie (u := .fpga) (w := capteur avant r w) (r + m) with hno | ⟨j, hj⟩
  · exact absurd hpub.pulse (hno p hpm)
  · exact ⟨m, j, rfl, hj, hword ▸ getFreq_publie hj⟩

/-- **From the sensor to the processor.**  Once the program has written its
configuration and a whole second has been measured, every read gives the number
of rising edges the sensor has shown in a second that was over less than another
second before.  The edges are at least 200,000 cycles apart. -/
theorem frequence_lue
    (hprog : ∀ n, (deroule (passe (rendu fixe.surBus (.powerOn (AnemometreCopie.cycle avant r)) w)
      0 n)).isSome = true)
    (hsp : ∀ x y, x < y → Anemometre.frontMontant (capteur avant r w) x = true →
      Anemometre.frontMontant (capteur avant r w) y = true → x + 200000 ≤ y)
    {c t m : ℕ} {a : Acces} {mot : BitVec 32}
    (hc : Configure (passe (rendu fixe.surBus (.powerOn (AnemometreCopie.cycle avant r)) w) 0 c))
    (hct : r + c < t) (ht : (Anemometre.cycle .fpga (capteur avant r w) t).second = .one)
    (htm : t + 50000005 < r + m)
    (hk : rendu fixe.surBus (.powerOn (AnemometreCopie.cycle avant r)) w (m + 1) =
      some ⟨a, some mot⟩) :
    ∃ q, t ≤ q ∧ q + 50000005 < r + m ∧ r + m ≤ q + 2 * 50000005 ∧
      (AnemometreAvalon.getFreq mot).toNat = pulses
        (fun i => Anemometre.frontMontant (capteur avant r w) i = true) (q + 1) (q + 50000004) := by
  have hrun : ∀ k, r + c ≤ k → (capteur avant r w k).continu = true ∧
      (capteur avant r w k).resetN = true := by
    intro k hk
    obtain ⟨d, rfl⟩ := Nat.exists_eq_add_of_le hk
    rw [Nat.add_assoc, capteur_continu, continu_programme hm hn hprog hc d]
    exact ⟨rfl, capteur_resetN _⟩
  obtain ⟨q, htq, hq, hqm, hmq⟩ := derniere_seconde hct hrun ht htm
  have hbq : r + c < q := hct.trans_le htq
  obtain ⟨l, hml, hword⟩ := mot_lu hm hn hk
  obtain rfl := Nat.succ_injective hml
  have hnext := Anemometre.continu_publie hbq hrun hq
  have hj : Anemometre.DernierePublication .fpga (capteur avant r w) (r + m) (q + 50000005) := by
    refine ⟨hqm, hnext, fun i hi him => ?_⟩
    exact Anemometre.continu_silence (by omega) hrun hnext hi (by omega)
  refine ⟨q, htq, hqm, hmq, ?_⟩
  rw [hword, getFreq_publie hj, BitVec.toNat_setWidth, Nat.mod_eq_of_lt (by omega),
    ← Anemometre.detections_eq (by omega)]
  exact Anemometre.continu_valeur hbq hrun hq hsp

end

/-! ## A run -/

/-- A sensor that rises 125 times a second. -/
def vent (k : ℕ) : Bool := decide (k % 400000 < 200000)

/-- A processor that writes the configuration and then reads for ever. -/
def lecteur (k : ℕ) : BusEntrees Bool :=
  { av := if k < 2 then ⟨false, true, 0x9020, 15, 7⟩ else ⟨true, false, 0x9020, 15, 0⟩
    voisin := fun _ => ⟨true, false, 0⟩
    externe := vent k }

section
variable {s : AnemometreAvalon}

theorem lecteur_fini : avWaitrequest fixe.surBus (lecteur 1)
    (cycle fixe.surBus (.powerOn s) lecteur 1) = false := rfl

theorem lecteur_ecrit : passe (rendu fixe.surBus (.powerOn s) lecteur) 0 2 =
    [(demande ⟨false, true, 0x9020, 15, 7⟩, none)] := rfl

theorem lecteur_lit {k : ℕ} (hk : 2 ≤ k) : (lecteur k).av = ⟨true, false, 0x9020, 15, 0⟩ :=
  if_neg (Nat.not_lt.mpr hk)

theorem lecteur_maitre : Maitre fixe.surBus (.powerOn s) lecteur where
  un := by
    intro k
    rcases Nat.lt_or_ge k 2 with hk | hk
    · rw [lecteur, if_pos hk]
      exact fun h => Bool.false_ne_true h.1
    · rw [lecteur_lit hk]
      decide
  tient := by
    intro k _ hwait
    rcases Nat.lt_or_ge k 2 with hk | hk
    · cases k with
      | zero => rfl
      | succ k =>
          obtain rfl : k = 0 := by omega
          exact absurd (lecteur_fini.symm.trans hwait) Bool.false_ne_true
    · rw [lecteur_lit hk, lecteur_lit (Nat.le_succ_of_le hk)]

theorem lecteur_voisins : Voisins fixe.surBus (.powerOn s) lecteur := by
  rintro k ⟨i, -, -, h⟩
  exact absurd h Bool.false_ne_true

/-- A read begins at every third cycle and ends two cycles later. -/
theorem lecteur_debut (i : ℕ) : Debut fixe.surBus (.powerOn s) lecteur (3 * i + 1) := by
  induction i with
  | zero => exact ⟨Or.inl rfl, fun _ => lecteur_fini⟩
  | succ i ih =>
      have hav := lecteur_lit (show 2 ≤ 3 * i + 1 + 1 by omega)
      have hv : Vise fixe.surBus (lecteur (3 * i + 1 + 1)).av := hav ▸ (by decide)
      have hd : derniereFixe (lecteur (3 * i + 1 + 1)).av = 2 := hav ▸ rfl
      have hfin := (duree_fixe lecteur_maitre lecteur_voisins ih hv hd.ge).2.mpr hd.symm
      exact ⟨Or.inl (by rw [lecteur_lit (by omega)]), fun _ => hfin⟩

theorem lecteur_rendu (i : ℕ) {j : ℕ} (hj : j ≤ 2) :
    rendu fixe.surBus (.powerOn s) lecteur (3 * i + 2 + j) =
      if j = 2 then some ⟨demande ⟨true, false, 0x9020, 15, 0⟩, some (avReaddata fixe.surBus
        (lecteur (3 * i + 2 + j)) (cycle fixe.surBus (.powerOn s) lecteur (3 * i + 2 + j)))⟩
      else none := by
  have hav := lecteur_lit (show 2 ≤ 3 * i + 1 + 1 by omega)
  have hv : Vise fixe.surBus (lecteur (3 * i + 1 + 1)).av := hav ▸ (by decide)
  have hd : derniereFixe (lecteur (3 * i + 1 + 1)).av = 2 := hav ▸ rfl
  have hfin := (duree_fixe lecteur_maitre lecteur_voisins (lecteur_debut (s := s) i) hv
    (hd ▸ hj)).2
  have hread := lecteur_lit (show 2 ≤ 3 * i + 2 + j by omega)
  rw [hd] at hfin
  rw [rendu, acheve, hread]
  exact if_congr ((and_iff_right (Or.inl rfl)).trans ((and_iff_right (by decide)).trans hfin))
    rfl rfl

/-- The accesses of the processor, and where they leave the program. -/
theorem lecteur_suite (i : ℕ) : ∃ mot,
    rendu fixe.surBus (.powerOn s) lecteur (3 * i + 4) =
        some ⟨demande ⟨true, false, 0x9020, 15, 0⟩, some mot⟩ ∧
      passe (rendu fixe.surBus (.powerOn s) lecteur) 0 (3 * (i + 1) + 2) =
        passe (rendu fixe.surBus (.powerOn s) lecteur) 0 (3 * i + 2) ++
          [⟨demande ⟨true, false, 0x9020, 15, 0⟩, some mot⟩] := by
  have h0 := lecteur_rendu (s := s) i (j := 0) (by decide)
  have h1 := lecteur_rendu (s := s) i (j := 1) (by decide)
  have h2 := lecteur_rendu (s := s) i (j := 2) le_rfl
  rw [if_pos rfl] at h2
  refine ⟨_, h2, ?_⟩
  show passe _ 0 (3 * i + 2 + 1 + 1 + 1) = _
  rw [passe_succ, passe_succ, passe_succ, Nat.zero_add, Nat.zero_add, Nat.zero_add]
  rw [Nat.add_zero, if_neg (by decide)] at h0
  rw [if_neg (by decide)] at h1
  rw [h0, h1, h2, Option.toList_none, Option.toList_some, List.append_nil, List.append_nil]

theorem lecteur_configure (i : ℕ) :
    Configure (passe (rendu fixe.surBus (.powerOn s) lecteur) 0 (3 * i + 2)) := by
  induction i with
  | zero =>
      show Configure (passe _ 0 2)
      rw [lecteur_ecrit]
      exact ⟨.teste, by decide, by decide⟩
  | succ i ih =>
      obtain ⟨mot, -, hsuite⟩ := lecteur_suite (s := s) i
      obtain ⟨p, hp, hne⟩ := ih
      rw [hsuite, Configure, deroule_append, hp]
      cases p with
      | config => exact absurd rfl hne
      | teste =>
          refine ⟨_, rfl, ?_⟩
          split <;> decide
      | affiche => exact ⟨.teste, rfl, by decide⟩

/-- It makes the accesses of the program. -/
theorem lecteur_programme (n : ℕ) :
    (deroule (passe (rendu fixe.surBus (.powerOn s) lecteur) 0 n)).isSome = true := by
  obtain ⟨p, hp, -⟩ := lecteur_configure (s := s) n
  refine deroule_prefixe ?_ (Option.isSome_of_eq_some hp)
  have h := passe_prefixe (e := rendu fixe.surBus (.powerOn s) lecteur) (a := 0) (n := n)
    (2 * n + 2)
  rwa [show n + (2 * n + 2) = 3 * n + 2 by omega] at h

end

/-- `reset_n` at '1' and nothing on the bus. -/
def calme : ℕ → AnemometreAvalonEntrees :=
  fun k => AnemometreCopie.broches (vent k) ⟨false, false, 0, 0⟩

theorem calme_resetN (r k : ℕ) : (capteur calme r lecteur k).resetN = true := by
  rcases Nat.lt_or_ge k r with hk | hk
  · show (total calme r lecteur k).resetN = true
    rw [total, if_pos hk]
    rfl
  · obtain ⟨d, rfl⟩ := Nat.exists_eq_add_of_le hk
    exact capteur_resetN d

theorem calme_publie (r : ℕ) :
    (Anemometre.cycle .fpga (capteur calme r lecteur) 50000002).second = .one :=
  Anemometre.premiere_publication fun k _ => calme_resetN r k

/-- The second read shows the first value. -/
theorem valeur_affichee_temoin : ∃ mot m j, 7 = m + 1 ∧
    Anemometre.DernierePublication .fpga (capteur calme 50000003 lecteur) (50000003 + m) j ∧
      AnemometreAvalon.getFreq mot = (Anemometre.cycle .fpga (capteur calme 50000003 lecteur)
        (j + 1)).dataAnemometre.setWidth 32 := by
  obtain ⟨mot0, h0, hsuite⟩ := lecteur_suite (s := AnemometreCopie.cycle calme 50000003) 0
  obtain ⟨mot, h1, -⟩ := lecteur_suite (s := AnemometreCopie.cycle calme 50000003) 1
  obtain ⟨m, hm, hmot⟩ := mot_lu lecteur_maitre lecteur_voisins h0
  have ht : AnemometreAvalon.teste mot0 = true := by
    rw [AnemometreAvalon.teste_iff, hmot]
    intro hz
    have hb := (AnemometreAvalon.readdata_eq_zero _).mp hz
    rw [AnemometreCopie.cycle_anemometre1] at hb
    exact hb.1 ((Anemometre.dataValid_iff _).mpr ⟨50000002, by omega, calme_publie _⟩)
  have hlist : passe (rendu fixe.surBus (.powerOn (AnemometreCopie.cycle calme 50000003)) lecteur)
      0 (3 * 1 + 4) = [(demande ⟨false, true, 0x9020, 15, 7⟩, none)] ++
        [(demande ⟨true, false, 0x9020, 15, 0⟩, some mot0)] := by
    have h5 := lecteur_rendu (s := AnemometreCopie.cycle calme 50000003) 1 (j := 0) (by decide)
    have h6 := lecteur_rendu (s := AnemometreCopie.cycle calme 50000003) 1 (j := 1) (by decide)
    rw [if_neg (by decide)] at h5 h6
    rw [← lecteur_ecrit (s := AnemometreCopie.cycle calme 50000003)]
    refine Eq.trans ?_ hsuite
    show passe _ 0 (5 + 1 + 1) = passe _ 0 5
    rw [passe_succ, passe_succ, show rendu _ _ _ (0 + 5) = none from h5,
      show rendu _ _ _ (0 + (5 + 1)) = none from h6]
    simp
  refine ⟨mot, valeur_affichee lecteur_maitre lecteur_voisins ?_ h1⟩
  rw [hlist, deroule_append, show deroule [(demande _, none)] = some .teste by decide]
  simp [Point.suivant, demande, ht]

theorem vent_espace (x y : ℕ) (hxy : x < y)
    (hx : Anemometre.frontMontant (capteur calme 0 lecteur) x = true)
    (hy : Anemometre.frontMontant (capteur calme 0 lecteur) y = true) : x + 200000 ≤ y := by
  have hvent : ∀ k, (capteur calme 0 lecteur k).inFreqAnemometre = vent k := fun _ => rfl
  have hmonte : ∀ k, Anemometre.frontMontant (capteur calme 0 lecteur) k = true →
      k % 400000 = 0 := by
    intro k hk
    cases k with
    | zero => rfl
    | succ k =>
        simp only [Anemometre.frontMontant, hvent, vent, Bool.and_eq_true, Bool.not_eq_true',
          decide_eq_true_eq, decide_eq_false_iff_not] at hk
        omega
  have h1 := hmonte x hx
  have h2 := hmonte y hy
  omega

/-- The read that ends at cycle 100,000,018. -/
theorem frequence_lue_temoin : ∃ mot q, 50000002 ≤ q ∧ q + 50000005 < 0 + 100000017 ∧
    0 + 100000017 ≤ q + 2 * 50000005 ∧ (AnemometreAvalon.getFreq mot).toNat = pulses
      (fun i => Anemometre.frontMontant (capteur calme 0 lecteur) i = true) (q + 1)
        (q + 50000004) := by
  obtain ⟨mot, h, -⟩ := lecteur_suite (s := AnemometreCopie.cycle calme 0) 33333338
  rw [show 3 * 33333338 + 4 = 100000017 + 1 by norm_num] at h
  exact ⟨mot, frequence_lue lecteur_maitre lecteur_voisins lecteur_programme vent_espace
    (lecteur_configure 0) (by norm_num) (calme_publie 0) (by norm_num) h⟩

end Bus

end BarreFranche
