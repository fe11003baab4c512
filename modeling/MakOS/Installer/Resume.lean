/-
What an installation leaves behind, whatever fails and wherever it is cut off. Every sector of the
target is blank or a copy, and sector 0 can only be a copy once all the others are settled as
copies. So the target is either not bootable and can be resumed, or it is complete.
-/
import MakOS.Installer.Copy

namespace MakOS.Installer

open MakOS.Bytes MakOS.Device Prog
open MakOS.Gpt (Sector)

/-- Two disks that pass the geometry check, the target's sectors first in the device. -/
structure Disks where
  sectors : Nat
  sourceBatched : Bool
  targetBatched : Bool
  large : 4096 ≤ sectors
  addressable : sectors < 2 ^ 32

namespace Disks

def target (disks : Disks) : Disk := ⟨0, disks.sectors, disks.targetBatched⟩

def source (disks : Disks) : Disk := ⟨disks.sectors, disks.sectors, disks.sourceBatched⟩

def start (disks : Disks) (source target : Nat → Sector) : Dev Sector :=
  Dev.ofImage (2 * disks.sectors) fun lba =>
    if lba < disks.sectors then target lba else source (lba - disks.sectors)

def install (disks : Disks) (mode : InstallMode) : Prog Sector InstallError InstallReport :=
  Installer.install disks.source disks.target mode

end Disks

theorem isZero_iff {sector : Sector} : isZero sector = true ↔ sector = blank := by
  simp only [isZero, List.all_eq_true, beq_iff_eq, Vector.mem_toList_iff, blank]
  constructor
  · intro h
    ext i hi
    simpa using congrArg UInt8.toNat (h sector[i] (Vector.getElem_mem hi))
  · rintro rfl byte hb
    exact (Vector.mem_replicate.1 hb).2

theorem isZeroBlock_iff {block : Block} : isZeroBlock block = true ↔ ∀ i, block.get i = blank := by
  simp only [isZeroBlock, List.all_eq_true, isZero_iff, Vector.mem_toList_iff]
  constructor
  · exact fun h i => h _ (Vector.getElem_mem i.isLt)
  · intro h sector hs
    obtain ⟨i, hi, rfl⟩ := Vector.mem_iff_getElem.1 hs
    exact h ⟨i, hi⟩

theorem Disks.lba32_eq (disks : Disks) {lba : Nat} (hl : lba < disks.sectors) : lba32 lba = .pure lba :=
  if_pos (hl.trans disks.addressable)

section
variable (disks : Disks) (image : Nat → Sector)

/-- Every sector of the target but the first is a copy now and after any power loss. -/
def Sealed (d : Dev Sector) : Prop := ∀ lba, 0 < lba → lba < disks.sectors → d.Always lba (· = image lba)

/-- The state of an installation: the source holds `image`, the target holds copies and blank
sectors, the sectors in `copied` read as copies, and sector 0 is blank unless the rest is sealed.
While `committing`, the rest is sealed. -/
structure Copied (copied : Nat → Prop) (committing : Prop) (d : Dev Sector) : Prop where
  size : d.size = 2 * disks.sectors
  source : ∀ lba < disks.sectors, d.Always (disks.sectors + lba) (· = image lba)
  target : ∀ lba < disks.sectors, d.Always lba fun sector => sector = blank ∨ sector = image lba
  first : d.Always 0 (· = blank) ∨ Sealed disks image d
  reads : ∀ lba < disks.sectors, copied lba → d.view lba = image lba
  rest : committing → Sealed disks image d

/-- The state of an installation of which nothing is known. -/
def Safe : Dev Sector → Prop := Copied disks image (fun _ => False) False

/-- The target is a copy of the source now and after any power loss. -/
def Installed (d : Dev Sector) : Prop := ∀ lba < disks.sectors, d.Always lba (· = image lba)

variable {disks image} {copied : Nat → Prop} {committing faults : Prop} {d : Dev Sector}

variable (h : Copied disks image copied committing d)
include h

theorem Copied.mono {copied' : Nat → Prop} {committing' : Prop}
    (hcopied : ∀ lba < disks.sectors, copied' lba → copied lba) (hcommitting : committing' → committing) :
    Copied disks image copied' committing' d :=
  { h with
    reads := fun lba hl hc => h.reads lba hl (hcopied lba hl hc)
    rest := fun hc => h.rest (hcommitting hc) }

theorem Copied.safe : Safe disks image d :=
  h.mono (fun _ _ => False.elim) False.elim

omit h

theorem Sealed.apply (h : Sealed disks image d) {e : Event Sector}
    (he : ∀ lba sector, (lba, sector) ∈ e.writes → sector = image lba) : Sealed disks image (d.apply e) :=
  fun lba h0 hl => (h lba h0 hl).apply fun sector hs => he lba sector hs

include h

/-- A request that writes only copies to the target, and sector 0 only while committing, keeps the
state, whether it is done or fails. -/
theorem Copied.apply {e : Event Sector} (he : ∀ lba sector, (lba, sector) ∈ e.writes →
      lba < disks.sectors ∧ sector = image lba ∧ (lba = 0 → committing)) :
    Copied disks image copied committing (d.apply e) where
  size := by rw [size_apply, h.size]
  source lba hl := (h.source lba hl).apply_of_not fun ⟨sector, hs⟩ => by
    have := (he _ _ hs).1
    omega
  target lba hl := (h.target lba hl).apply fun sector hs => .inr (he _ _ hs).2.1
  first := by
    by_cases hc : committing
    · exact .inr ((h.rest hc).apply fun lba sector hs => (he _ _ hs).2.1)
    · refine h.first.imp (fun h0 => ?_) fun hrest => hrest.apply fun lba sector hs => (he _ _ hs).2.1
      exact h0.apply fun sector hs => absurd ((he _ _ hs).2.2 rfl) hc
  reads lba hl hc := by
    rcases view_apply d e lba with hv | hv
    · rw [hv]
      exact h.reads lba hl hc
    · exact (he _ _ hv).2.1
  rest hc := (h.rest hc).apply fun lba sector hs => (he _ _ hs).2.1

theorem Copied.skip {new : Nat → Prop} (hnew : ∀ lba < disks.sectors, new lba → image lba = blank) :
    Copied disks image (fun lba => copied lba ∨ new lba) committing d :=
  { h with
    reads := fun lba hl hc => by
      rcases hc with hc | hc
      · exact h.reads lba hl hc
      · rw [hnew lba hl hc]
        exact (h.target lba hl).view.elim id fun hv => hv.trans (hnew lba hl hc) }

theorem Copied.flush
    (hall : ∀ lba, 0 < lba → lba < disks.sectors → copied lba) : Copied disks image copied True (d.apply .flush) := by
  have hflush : Copied disks image copied committing (d.apply .flush) := h.apply nofun
  have hsealed : Sealed disks image (d.apply .flush) := fun lba h0 hl =>
    h.reads lba hl (hall lba h0 hl) ▸ always_flush d lba
  exact { hflush with first := .inr hsealed, rest := fun _ => hsealed }

omit h

/-! ## Reading and writing the disks -/

section
variable {ε : Type} {disk : Disk} {error : ε} {lba : Nat} {I : Dev Sector → Prop}

theorem keeps_readSector (hfits : disk.base + disk.sectors ≤ d.size) (hl : lba < disk.sectors) (hI : I d) :
    (disk.readSector error lba).Keeps faults I (fun sector d' => d' = d ∧ sector = d.view (disk.base + lba)) d := by
  rw [Disk.readSector, if_pos hl]
  exact keeps_readOne (by omega) hI ⟨rfl, rfl⟩

theorem keeps_readEach (hfits : disk.base + disk.sectors ≤ d.size) (hl : lba + 8 ≤ disk.sectors)
    (h32 : disk.sectors < 2 ^ 32) (hI : I d) : (disk.readEach error lba).Keeps faults I
      (fun block d' => d' = d ∧ ∀ i, block.get i = d.view (disk.base + (lba + i.val))) d := by
  let J : List (Fin 8) → Block → Dev Sector → Prop := fun done block d' =>
    d' = d ∧ ∀ i ∈ done, block.get i = d.view (disk.base + (lba + i.val))
  have hloop : (disk.readEach error lba).Keeps faults I (J ([] ++ List.finRange 8)) d := by
    refine keeps_foldEach J (fun done block d' hJ => hJ.1 ▸ hI) ?_ ⟨rfl, nofun⟩
    rintro done sector rest - block d' ⟨hd, hblock⟩
    subst hd
    rw [if_pos (by omega)]
    refine (keeps_readSector hfits (by omega) hI).bind ?_
    rintro input d'' ⟨rfl, rfl⟩
    refine keeps_pure hI ⟨rfl, fun i hi => ?_⟩
    by_cases hsame : sector = i
    · subst hsame
      exact Vector.getElem_set_self ..
    · have hdone : i ∈ done := by simpa [Ne.symm hsame] using hi
      exact (Vector.getElem_set_ne _ _ fun h => hsame (Fin.ext h)).trans (hblock i hdone)
  exact hloop.mono fun block d' _ hJ => ⟨hJ.1, fun i => hJ.2 i (List.mem_finRange i)⟩

theorem keeps_readSectors8 (hfits : disk.base + disk.sectors ≤ d.size) (hl : lba + 8 ≤ disk.sectors)
    (h32 : disk.sectors < 2 ^ 32) (hI : I d) : (disk.readSectors8 error lba).Keeps faults I
      (fun block d' => d' = d ∧ ∀ i, block.get i = d.view (disk.base + (lba + i.val))) d := by
  unfold Disk.readSectors8
  split_ifs
  · refine keeps_readMany (by omega) hI ⟨rfl, fun i => ?_⟩
    rw [← Nat.add_assoc]
    exact Vector.getElem_ofFn ..
  · exact keeps_readEach hfits hl h32 hI

variable (hsize : d.size = 2 * disks.sectors) (hI : I d)
include hsize

theorem fits_source : disks.source.base + disks.source.sectors ≤ d.size := hsize ▸ (Nat.two_mul _).ge

include hI

theorem keeps_readSource (hl : lba < disks.sectors) : (disks.source.readSector error lba).Keeps faults I
    (fun sector d' => d' = d ∧ sector = d.view (disks.sectors + lba)) d :=
  keeps_readSector (fits_source hsize) hl hI

theorem keeps_readTarget (hl : lba < disks.sectors) :
    (disks.target.readSector error lba).Keeps faults I (fun sector d' => d' = d ∧ sector = d.view lba) d :=
  (keeps_readSector (by simp only [Disks.target]; omega) hl hI).mono fun _ _ _ hr =>
    ⟨hr.1, hr.2.trans (congrArg d.view (Nat.zero_add lba))⟩

theorem keeps_readTarget8 (hl : lba + 8 ≤ disks.sectors) : (disks.target.readSectors8 error lba).Keeps faults I
    (fun block d' => d' = d ∧ ∀ i, block.get i = d.view (lba + i.val)) d :=
  (keeps_readSectors8 (by simp only [Disks.target]; omega) hl disks.addressable hI).mono fun _ _ _ hr =>
    ⟨hr.1, fun i => (hr.2 i).trans (congrArg d.view (Nat.zero_add (lba + i.val)))⟩

end

section
variable {ε : Type} {error : ε} {lba : Nat}

include h

theorem Copied.readSource (hl : lba < disks.sectors) :
    (disks.source.readSector error lba).Keeps faults (Safe disks image)
      (fun sector d' => d' = d ∧ sector = image lba) d :=
  (keeps_readSource h.size h.safe hl).mono fun _ _ _ hr => ⟨hr.1, hr.2.trans (h.source lba hl).view⟩

theorem Copied.readSource8 (hl : lba + 8 ≤ disks.sectors) :
    (disks.source.readSectors8 error lba).Keeps faults (Safe disks image)
      (fun block d' => d' = d ∧ ∀ i, block.get i = image (lba + i.val)) d :=
  (keeps_readSectors8 (fits_source h.size) hl disks.addressable h.safe).mono fun _ _ _ hr =>
    ⟨hr.1, fun i => (hr.2 i).trans (h.source (lba + i.val) (by omega)).view⟩

theorem Copied.writeMany {data : List Sector}
    (hl : lba + data.length ≤ disks.sectors) (hdata : ∀ i (hi : i < data.length), data[i] = image (lba + i))
    (h0 : lba = 0 → committing) : (writeMany error lba data).Keeps faults (Safe disks image)
      (fun _ => Copied disks image (fun i => copied i ∨ (lba ≤ i ∧ i < lba + data.length)) committing) d := by
  have hwrites : ∀ i sector, (i, sector) ∈ sectorWrites lba data →
      i < disks.sectors ∧ sector = image i ∧ (i = 0 → committing) := by
    intro i sector hs
    obtain ⟨k, hk, rfl, rfl⟩ := mem_sectorWrites.1 hs
    exact ⟨by omega, hdata k hk, fun hi => h0 (by omega)⟩
  have hdone : Copied disks image copied committing (d.apply (.write lba data)) := h.apply hwrites
  refine keeps_writeMany (by rw [h.size]; omega) h.safe hdone.safe (fun seen => ?_) ?_
  · have hfail : Copied disks image copied committing (d.apply (.writeFail lba data seen)) := h.apply hwrites
    exact hfail.safe
  refine { hdone with reads := fun i hi hc => ?_ }
  rcases hc with hc | ⟨hlo, hhi⟩
  · exact hdone.reads i hi hc
  · obtain ⟨k, rfl⟩ := Nat.exists_eq_add_of_le hlo
    exact (overlay_at (by omega)).trans (hdata k (by omega))

theorem Copied.writeTarget (hl : lba < disks.sectors)
    (h0 : lba = 0 → committing) : (disks.target.writeSector error lba (image lba)).Keeps faults (Safe disks image)
      (fun _ => Copied disks image (fun i => copied i ∨ i = lba) committing) d := by
  have hone : ∀ i (hi : i < [image lba].length), [image lba][i] = image (lba + i) := by
    intro i hi
    obtain rfl : i = 0 := by simpa using hi
    rfl
  rw [Disk.writeSector, if_pos (show lba < disks.target.sectors from hl),
    show disks.target.base + lba = lba from Nat.zero_add lba]
  refine (h.writeMany hl hone h0).mono fun _ d' _ hc => hc.mono (fun i _ hi => hi.imp id fun hi => ?_) id
  simp only [List.length_singleton]
  omega

theorem Copied.writeTarget8 (hl : lba + 8 ≤ disks.sectors) {block : Block}
    (hblock : ∀ i, block.get i = image (lba + i.val)) (h0 : lba ≠ 0) :
    (disks.target.writeSectors8 error lba block).Keeps faults (Safe disks image)
      (fun _ => Copied disks image (fun i => copied i ∨ (lba ≤ i ∧ i < lba + 8)) committing) d := by
  have h32 := disks.addressable
  unfold Disk.writeSectors8
  split
  · rw [if_pos (show lba + 8 ≤ disks.target.sectors from hl),
      show disks.target.base + lba = lba from Nat.zero_add lba]
    have hdata : ∀ i (hi : i < block.toList.length), block.toList[i] = image (lba + i) := fun i hi =>
      (Vector.getElem_toList hi).trans (hblock ⟨i, by simpa using hi⟩)
    refine (h.writeMany (by simpa using hl) hdata fun h => absurd h h0).mono fun _ d' _ hc => ?_
    simpa using hc
  · let J : List (Fin 8) → Dev Sector → Prop := fun done =>
      Copied disks image (fun i => copied i ∨ ∃ k ∈ done, i = lba + k.val) committing
    have hloop : (disks.target.writeEach error lba block).Keeps faults (Safe disks image)
        (fun _ => J ([] ++ List.finRange 8)) d := by
      refine keeps_forEach J (fun done d' hJ => Copied.safe hJ) ?_ (h.mono (fun i _ hi => by simpa using hi) id)
      intro done sector rest _ d' hJ
      rw [if_pos (by omega), hblock sector]
      refine (Copied.writeTarget hJ (by omega) fun h => absurd h (by omega)).mono fun _ d'' _ hc => ?_
      refine hc.mono (fun i _ hi => ?_) id
      rcases hi with hi | ⟨k, hk, rfl⟩
      · exact .inl (.inl hi)
      · rcases List.mem_append.1 hk with hk | hk
        · exact .inl (.inr ⟨k, hk, rfl⟩)
        · exact .inr (by rw [List.mem_singleton.1 hk])
    refine hloop.mono fun _ d' _ hJ => Copied.mono hJ (fun i _ hi => hi.imp id fun hi => ?_) id
    exact ⟨⟨i - lba, by omega⟩, List.mem_finRange _, by simp; omega⟩

end

/-! ## Copying -/

section
variable {lba written : Nat}

include h

theorem keeps_copySectorVerified (hl : lba < disks.sectors)
    (h0 : lba = 0 → committing) : (copySectorVerified disks.source disks.target lba).Keeps faults (Safe disks image)
      (fun _ => Copied disks image (fun i => copied i ∨ i = lba) committing) d := by
  unfold copySectorVerified
  rw [disks.lba32_eq hl]
  refine h.readSource hl |>.bind ?_
  rintro _ _ ⟨rfl, rfl⟩
  by_cases hzero : isZero (image lba) = true
  · rw [if_pos hzero]
    exact keeps_pure h.safe (h.skip fun i _ hi => hi ▸ isZero_iff.1 hzero)
  rw [if_neg hzero]
  refine (h.writeTarget hl h0).bind fun _ d' h' => ?_
  refine (keeps_readTarget h'.size h'.safe hl).bind ?_
  rintro _ _ ⟨rfl, rfl⟩
  -- the copy reads back: requests that are done are seen
  rw [h'.reads lba hl (.inr rfl), if_neg (fun h => h rfl)]
  exact keeps_pure h'.safe h'

theorem keeps_copyBlockVerified (hl : lba + 8 ≤ disks.sectors)
    (h0 : lba ≠ 0) : (copyBlockVerified disks.source disks.target lba).Keeps faults (Safe disks image)
      (fun _ => Copied disks image (fun i => copied i ∨ (lba ≤ i ∧ i < lba + 8)) committing) d := by
  unfold copyBlockVerified
  rw [disks.lba32_eq (by omega)]
  refine h.readSource8 hl |>.bind ?_
  rintro block _ ⟨rfl, hblock⟩
  by_cases hzero : isZeroBlock block = true
  · rw [if_pos hzero]
    refine keeps_pure h.safe (h.skip ?_)
    rintro i - ⟨hlo, hhi⟩
    have hi := hblock ⟨i - lba, by omega⟩
    rw [isZeroBlock_iff.1 hzero, show lba + (i - lba) = i by omega] at hi
    exact hi.symm
  · rw [if_neg hzero]
    refine (h.writeTarget8 hl hblock h0).bind fun _ d' h' => ?_
    refine (keeps_readTarget8 h'.size h'.safe hl).bind ?_
    rintro verify _ ⟨rfl, hverify⟩
    have hsame : verify = block := by
      ext i hi : 1
      have := (hverify ⟨i, hi⟩).trans ((h'.reads (lba + i) (by omega) (.inr (by omega))).trans (hblock ⟨i, hi⟩).symm)
      exact this
    rw [hsame, if_neg (fun h => h rfl)]
    exact keeps_pure h'.safe h'

omit h

def upTo (lba : Nat) : Nat → Prop := fun i => gptPrimarySectors ≤ i ∧ i < lba

theorem keeps_copyRest (h : Copied disks image (upTo lba) False d) (hlo : gptPrimarySectors ≤ lba) :
    (copyRest disks.source disks.target disks.sectors lba written).Keeps faults (Safe disks image)
      (fun _ => Copied disks image (upTo disks.sectors) False) d := by
  induction lba, written using copyRest.induct disks.sectors generalizing d with
  | case1 lba written hl ih =>
    rw [copyRest, if_pos hl]
    refine (keeps_copySectorVerified h hl fun h0 => ?_).bind fun more d' h' => ih more ?_ (by omega)
    · simp only [gptPrimarySectors] at hlo; omega
    · refine h'.mono (fun i _ hi => ?_) id
      simp only [upTo] at hi ⊢; omega
  | case2 lba written hl =>
    rw [copyRest, if_neg hl]
    exact keeps_pure h.safe (h.mono (fun i _ hi => ⟨hi.1, by have := hi.2; omega⟩) id)

theorem keeps_copyFrom (h : Copied disks image (upTo lba) False d) (hlo : gptPrimarySectors ≤ lba) :
    (copyFrom disks.source disks.target disks.sectors lba written).Keeps faults (Safe disks image)
      (fun _ => Copied disks image (upTo disks.sectors) False) d := by
  induction lba, written using copyFrom.induct disks.sectors generalizing d with
  | case1 lba written hl ih =>
    rw [copyFrom, if_pos hl]
    refine (keeps_copyBlockVerified h hl ?_).bind fun more d' h' => ih more ?_ (by omega)
    · simp only [gptPrimarySectors] at hlo; omega
    · refine h'.mono (fun i _ hi => ?_) id
      simp only [upTo, blockSectors] at hi ⊢; omega
  | case2 lba written hl =>
    rw [copyFrom, if_neg hl]
    exact keeps_copyRest h hlo

theorem keeps_copyGpt (h : Copied disks image (upTo disks.sectors) False d) :
    (copyGpt disks.source disks.target written).Keeps faults (Safe disks image)
      (fun _ => Copied disks image (fun i => 0 < i) False) d := by
  have hlarge := disks.large
  let J : List Nat → Nat → Dev Sector → Prop := fun done _ =>
    Copied disks image (fun i => upTo disks.sectors i ∨ i ∈ done) False
  have hloop : (copyGpt disks.source disks.target written).Keeps faults (Safe disks image)
      (J ([] ++ List.range' 1 (gptPrimarySectors - 1))) d := by
    refine keeps_foldEach J (fun done _ d' hJ => Copied.safe hJ) ?_ (h.mono (fun i _ hi => by simpa using hi) id)
    intro done lba rest hsplit _ d' hJ
    have hlba : lba ∈ List.range' 1 (gptPrimarySectors - 1) := by
      rw [List.nil_append] at hsplit
      rw [hsplit]
      simp
    simp only [gptPrimarySectors, List.mem_range'_1] at hlba
    refine (keeps_copySectorVerified hJ (by omega) fun h0 => by omega).bind fun _ d'' h' => ?_
    refine keeps_pure h'.safe (h'.mono (fun i _ hi => ?_) id)
    simpa [or_assoc] using hi
  refine hloop.mono fun _ d' _ hJ => Copied.mono hJ (fun i hi h0 => ?_) id
  simp only [upTo, List.nil_append, List.mem_range'_1]
  omega

theorem keeps_copyAll (h : Safe disks image d) :
    (copyAll disks.source disks.target disks.sectors).Keeps faults (Safe disks image)
      (fun _ d' => Copied disks image (fun _ => True) True d' ∧ Installed disks image d') d := by
  have hlarge := disks.large
  refine (keeps_copyFrom (h.mono (fun i _ hi => ?_) id) le_rfl).bind fun _ d₁ h₁ => ?_
  · have := hi.1
    have := hi.2
    omega
  refine (keeps_copyGpt h₁).bind fun _ d₂ h₂ => ?_
  -- the first flush seals everything but sector 0
  have hsealed := h₂.flush fun lba h0 _ => h0
  refine (keeps_sync h₂.safe hsealed.safe).bind ?_
  rintro _ _ rfl
  refine (keeps_copySectorVerified hsealed (by omega) fun _ => trivial).bind fun _ d₄ h₄ => ?_
  have hall : Copied disks image (fun _ => True) True d₄ := h₄.mono (fun i _ _ => by omega) id
  have hflush : Copied disks image (fun _ => True) True (d₄.apply .flush) := hall.apply nofun
  have hinstalled : Installed disks image (d₄.apply .flush) := fun lba hl =>
    hall.reads lba hl trivial ▸ always_flush d₄ lba
  refine (keeps_sync hall.safe hflush.safe).bind ?_
  rintro _ _ rfl
  exact keeps_pure hflush.safe ⟨hflush, hinstalled⟩

theorem keeps_validateTargetCommit (h : Copied disks image (fun _ => True) True d) :
    (validateTargetCommit disks.source disks.target disks.sectors).Keeps faults (Safe disks image)
      (fun _ d' => d' = d) d := by
  have hlarge := disks.large
  refine (keeps_forEach_checks (fun _ => True) h.safe fun lba hlba => ?_).mono fun _ _ _ hc => hc.1
  have hl : lba < disks.sectors := by
    simp only [List.mem_cons, List.not_mem_nil, or_false] at hlba
    omega
  unfold probe
  rw [disks.lba32_eq hl]
  refine (h.readSource hl).bind ?_
  rintro _ _ ⟨rfl, rfl⟩
  refine (keeps_readTarget h.size h.safe hl).bind ?_
  rintro _ _ ⟨rfl, rfl⟩
  rw [h.reads lba hl trivial, if_neg (fun h => h rfl)]
  exact keeps_pure h.safe ⟨rfl, trivial⟩

end

/-! ## The checks -/

/-- What `ensureBlank` looks for, from a sector on. -/
def BlankFrom (disks : Disks) (lba : Nat) (d : Dev Sector) : Prop :=
  ∀ i, lba ≤ i → i < disks.sectors → d.view i = blank

/-- What `ensureResumable` looks for. -/
structure Resumable (disks : Disks) (d : Dev Sector) : Prop where
  first : d.view 0 = blank
  rest : ∀ lba, 0 < lba → lba < disks.sectors → d.view lba = blank ∨ d.view lba = d.view (disks.sectors + lba)

section
variable {I : Dev Sector → Prop} {lba : Nat} {mode : InstallMode} (hsize : d.size = 2 * disks.sectors) (hI : I d)
include hsize hI

theorem keeps_ensureBlankRest (hblank : faults ∨ BlankFrom disks lba d) :
    (ensureBlankRest disks.target disks.sectors lba).Keeps faults I (fun _ d' => d' = d ∧ BlankFrom disks lba d) d := by
  induction lba using ensureBlankRest.induct disks.sectors with
  | case1 lba hl ih =>
    rw [ensureBlankRest, if_pos hl, disks.lba32_eq hl]
    refine (keeps_readTarget hsize hI hl).bind ?_
    rintro _ d' ⟨hd, rfl⟩
    rw [hd]
    refine keeps_check hI (hblank.imp id fun h => isZero_iff.2 (h lba le_rfl hl)) fun hz => ?_
    refine (ih (hblank.imp id fun h i hlo => h i (by omega))).mono fun _ d' _ h => ⟨h.1, fun i hlo hi => ?_⟩
    by_cases hsame : i = lba
    · exact hsame ▸ isZero_iff.1 hz
    · exact h.2 i (by omega) hi
  | case2 lba hl =>
    rw [ensureBlankRest, if_neg hl]
    exact keeps_pure hI ⟨rfl, fun i hlo hi => by omega⟩

theorem keeps_ensureBlankFrom (hblank : faults ∨ BlankFrom disks lba d) :
    (ensureBlankFrom disks.target disks.sectors lba).Keeps faults I (fun _ d' => d' = d ∧ BlankFrom disks lba d) d := by
  induction lba using ensureBlankFrom.induct disks.sectors with
  | case1 lba hl ih =>
    have hl8 : lba + 8 ≤ disks.sectors := hl
    rw [ensureBlankFrom, if_pos hl, disks.lba32_eq (by omega)]
    refine (keeps_readTarget8 hsize hI hl8).bind ?_
    rintro block d' ⟨hd, hview⟩
    rw [hd]
    refine keeps_check hI (hblank.imp id fun h => isZeroBlock_iff.2 fun i => ?_) fun hz => ?_
    · rw [hview i]
      exact h _ (by omega) (by omega)
    refine (ih (hblank.imp id fun h i hlo => h i (by simp only [blockSectors] at hlo; omega))).mono
      fun _ d' _ h => ⟨h.1, fun i hlo hi => ?_⟩
    by_cases hin : i < lba + 8
    · have hi8 := hview ⟨i - lba, by omega⟩
      rw [isZeroBlock_iff.1 hz, show lba + (i - lba) = i by omega] at hi8
      exact hi8.symm
    · exact h.2 i (by simp only [blockSectors]; omega) hi
  | case2 lba hl =>
    rw [ensureBlankFrom, if_neg hl]
    exact keeps_ensureBlankRest hsize hI hblank

theorem keeps_ensureMatching (hl : lba < disks.sectors)
    (h : faults ∨ (d.view lba = blank ∨ d.view lba = d.view (disks.sectors + lba))) :
    (ensureMatching disks.source disks.target lba).Keeps faults I
      (fun _ d' => d' = d ∧ (d.view lba = blank ∨ d.view lba = d.view (disks.sectors + lba))) d := by
  unfold ensureMatching
  rw [disks.lba32_eq hl]
  refine (keeps_readTarget hsize hI hl).bind ?_
  rintro _ d' ⟨hd, rfl⟩
  rw [hd]
  by_cases hz : isZero (d.view lba) = true
  · rw [if_pos hz]
    exact keeps_pure hI ⟨rfl, .inl (isZero_iff.1 hz)⟩
  rw [if_neg hz]
  refine (keeps_readSource hsize hI hl).bind ?_
  rintro _ d' ⟨hd, rfl⟩
  rw [hd]
  exact keeps_check hI (h.imp id fun h => h.resolve_left fun hb => hz (isZero_iff.2 hb)) fun hsame =>
    keeps_pure hI ⟨rfl, .inr hsame⟩

theorem keeps_ensureResumable (h : faults ∨ Resumable disks d) :
    (ensureResumable disks.source disks.target disks.sectors).Keeps faults I
      (fun _ d' => d' = d ∧ Resumable disks d) d := by
  have hlarge := disks.large
  refine (keeps_readTarget hsize hI (by omega)).bind ?_
  rintro _ d' ⟨hd, rfl⟩
  rw [hd]
  refine keeps_check hI (h.imp id fun h => isZero_iff.2 h.first) fun hz => ?_
  have hrange : ∀ lba, lba ∈ List.range' 1 (disks.sectors - 1) ↔ 0 < lba ∧ lba < disks.sectors := by
    intro lba
    rw [List.mem_range'_1]
    omega
  refine (keeps_forEach_checks (fun lba => d.view lba = blank ∨ d.view lba = d.view (disks.sectors + lba)) hI
    fun lba hlba => ?_).mono fun _ d' _ hall => ⟨hall.1, isZero_iff.1 hz, fun lba h0 hl => hall.2 lba ((hrange lba).2 ⟨h0, hl⟩)⟩
  obtain ⟨h0, hl⟩ := (hrange lba).1 hlba
  exact keeps_ensureMatching hsize hI hl (h.imp id fun h => h.rest lba h0 hl)

omit hsize hI

theorem readsWithin_validateSource :
    (validateSource disks.source disks.sectors).ReadsWithin fun lba => disks.sectors ≤ lba ∧ lba < 2 * disks.sectors := by
  have hlarge := disks.large
  have h32 := disks.addressable
  refine Prog.ReadsWithin.bind (fun layout => ?_) (Gpt.readsWithin_classify (fun lba hl => ?_) (by omega))
  · cases layout <;> trivial
  have hin : ∀ i < 1, disks.sectors ≤ disks.sectors + lba + i ∧ disks.sectors + lba + i < 2 * disks.sectors :=
    fun i hi => by omega
  rw [if_pos (by omega), Disk.readSector, if_pos (show lba < disks.source.sectors from hl)]
  refine ⟨hin, ?_⟩
  rintro (_ | v) <;> trivial

/-- What the check of the target looks for. -/
def Accepts (disks : Disks) : InstallMode → Dev Sector → Prop
  | .fresh => BlankFrom disks 0
  | .resume => Resumable disks

include hsize

theorem keeps_ensureTarget (hI : I d) (h : faults ∨ Accepts disks mode d) :
    (ensureTarget disks.source disks.target disks.sectors mode).Keeps faults I
      (fun _ d' => d' = d ∧ Accepts disks mode d) d := by
  cases mode with
  | fresh => exact keeps_ensureBlankFrom hsize hI h
  | resume => exact keeps_ensureResumable hsize hI h

theorem accepts_iff : (ensureTarget disks.source disks.target disks.sectors mode).value d = .ok () ↔
    Accepts disks mode d := by
  constructor
  · intro hv
    have hkeeps : (ensureTarget disks.source disks.target disks.sectors mode).Keeps True (fun _ => True)
        (fun _ d' => d' = d ∧ Accepts disks mode d) d := keeps_ensureTarget hsize trivial (.inl trivial)
    exact (((runs _ d).keeps hkeeps (.inl trivial)).2.1 () hv).2
  intro h
  have hkeeps : (ensureTarget disks.source disks.target disks.sectors mode).Keeps False (fun _ => True)
      (fun _ d' => d' = d ∧ Accepts disks mode d) d := keeps_ensureTarget hsize trivial (.inr h)
  obtain ⟨⟨⟩, hv, -⟩ := hkeeps.completes
  exact hv

end

/-! ## Installations -/

theorem install_eq (disks : Disks) (mode : InstallMode) : disks.install mode = do
    validateSource disks.source disks.sectors
    ensureTarget disks.source disks.target disks.sectors mode
    let writtenSectors ← copyAll disks.source disks.target disks.sectors
    validateTargetCommit disks.source disks.target disks.sectors
    return ⟨disks.sectors, writtenSectors⟩ := by
  have hlarge := disks.large
  have h32 := disks.addressable
  unfold Disks.install install
  rw [if_neg (by simp only [Disks.source, Disks.target]; omega)]
  rfl

/-- An installation started in a safe state. When nothing fails it needs a source that is a GPT disk
and a target its mode accepts. -/
theorem keeps_install {mode : InstallMode} (h : Safe disks image d)
    (hok : faults ∨ ((validateSource disks.source disks.sectors).value d = .ok () ∧ Accepts disks mode d)) :
    (disks.install mode).Keeps faults (Safe disks image) (fun _ d' => Installed disks image d') d := by
  rw [install_eq]
  refine (keeps_readOnly readsWithin_validateSource.readOnly h (hok.imp id fun hok => ⟨_, hok.1⟩)).bind ?_
  rintro _ d' rfl
  refine (keeps_ensureTarget h.size h (hok.imp id And.right)).bind ?_
  rintro _ d' ⟨rfl, -⟩
  refine (keeps_copyAll h).bind ?_
  rintro _ d' ⟨hcopied, hinstalled⟩
  refine (keeps_validateTargetCommit hcopied).bind ?_
  rintro _ d' rfl
  exact keeps_pure hcopied.safe hinstalled

theorem Safe.crash (h : Safe disks image d) {medium : Nat → Sector} (hc : d.Crash medium) :
    Safe disks image (Dev.ofImage d.size medium) where
  size := h.size
  source lba hl := always_ofImage.2 ((h.source lba hl).crash hc)
  target lba hl := always_ofImage.2 ((h.target lba hl).crash hc)
  first := h.first.imp (fun h0 => always_ofImage.2 (h0.crash hc)) fun hrest lba h0 hl =>
    always_ofImage.2 ((hrest lba h0 hl).crash hc)
  reads _ _ := False.elim
  rest := False.elim

/-- Sector 0 of the target is blank or the whole target is a copy. -/
theorem Safe.blank_or_copy (h : Safe disks image d) :
    d.view 0 = blank ∨ ∀ lba < disks.sectors, d.view lba = image lba := by
  have hlarge := disks.large
  rcases h.first with h0 | hrest
  · exact .inl h0.view
  refine (h.target 0 (by omega)).view.imp id fun h0 lba hl => ?_
  rcases Nat.eq_zero_or_pos lba with rfl | hpos
  · exact h0
  · exact (hrest lba hpos hl).view

end

/-- The states of the two disks reached from an accepted target by installations in any mode, each
cut off or failing anywhere, and by power losses. -/
inductive Reached (disks : Disks) (source target : Nat → Sector) : Dev Sector → Prop
  | start {mode : InstallMode} :
      (ensureTarget disks.source disks.target disks.sectors mode).value (disks.start source target) = .ok () →
      Reached disks source target (disks.start source target)
  | install {mode : InstallMode} {d : Dev Sector} {es : List (Event Sector)} {r : Except InstallError InstallReport}
      (n : Nat) : Reached disks source target d → Runs (disks.install mode) d es r →
      Reached disks source target (d.replay (es.take n))
  | powerLoss {d : Dev Sector} {medium : Nat → Sector} : Reached disks source target d → d.Crash medium →
      Reached disks source target (Dev.ofImage d.size medium)

section
variable {disks : Disks} {source target : Nat → Sector} {d : Dev Sector}

theorem view_start_target {lba : Nat} (hl : lba < disks.sectors) : (disks.start source target).view lba = target lba :=
  if_pos hl

theorem view_start_source (lba : Nat) : (disks.start source target).view (disks.sectors + lba) = source lba := by
  simp [Disks.start, Dev.ofImage]

theorem safe_start {mode : InstallMode} (h : Accepts disks mode (disks.start source target)) :
    Safe disks source (disks.start source target) := by
  have hlarge := disks.large
  have hfirst : (disks.start source target).view 0 = blank := by
    cases mode with
    | fresh => exact h 0 le_rfl (by omega)
    | resume => exact h.first
  have hrest : ∀ lba < disks.sectors, (disks.start source target).view lba = blank ∨
      (disks.start source target).view lba = source lba := by
    intro lba hl
    cases mode with
    | fresh => exact .inl (h lba (Nat.zero_le _) hl)
    | resume =>
      rcases Nat.eq_zero_or_pos lba with rfl | hpos
      · exact .inl hfirst
      · exact (h.rest lba hpos hl).imp id fun hv => hv.trans (view_start_source lba)
  exact {
    size := rfl
    source := fun lba _ => always_ofImage.2 (view_start_source lba)
    target := fun lba hl => always_ofImage.2 (hrest lba hl)
    first := .inl (always_ofImage.2 hfirst)
    reads := fun _ _ => False.elim
    rest := False.elim }

theorem Reached.safe (h : Reached disks source target d) : Safe disks source d := by
  induction h with
  | start hv => exact safe_start ((accepts_iff rfl).1 hv)
  | install n _ hrun ih =>
    exact (hrun.keeps (keeps_install ih (.inl trivial)) (.inl trivial)).1 n
  | powerLoss _ hc ih => exact ih.crash hc

/-- The source is checked with the same result at any time. -/
theorem Safe.validateSource_eq (h : Safe disks source d) :
    (validateSource disks.source disks.sectors).value d =
      (validateSource disks.source disks.sectors).value (disks.start source target) := by
  refine readsWithin_validateSource.value_eq h.size fun lba hlba => ?_
  obtain ⟨i, rfl⟩ := Nat.exists_eq_add_of_le hlba.1
  rw [view_start_source]
  exact (h.source i (by omega)).view

theorem value_resume_committed (h : Safe disks source d)
    (hv : (validateSource disks.source disks.sectors).value d = .ok ()) (h0 : d.view 0 ≠ blank) :
    (disks.install .resume).value d = .error .resumeCommitted := by
  have hlarge := disks.large
  rw [install_eq, value_bind_readOnly readsWithin_validateSource.readOnly hv]
  refine value_bind_error ?_
  have hfirst : (disks.target.readSector InstallError.read 0).value d = .ok (d.view 0) := by
    rw [Disk.readSector, if_pos (show 0 < disks.target.sectors from (by omega : 0 < disks.sectors))]
    exact value_readOne (by rw [h.size]; exact (by omega : 0 + 0 < 2 * disks.sectors))
  refine (value_bind_ok hfirst).trans ?_
  rw [if_pos fun hz => h0 (isZero_iff.1 hz)]
  rfl

/-- In every state reached, a good end means that the target is a copy, now and after any power
loss; a power loss leaves sector 0 blank or the whole target a copy; and if the source is a GPT
disk, a target whose sector 0 is blank is accepted by a resumed installation, which completes when
nothing fails, while a committed one is a copy and refused. -/
theorem install_outcome (h : Reached disks source target d) :
    (∀ mode es report, Runs (disks.install mode) d es (.ok report) → Installed disks source (d.replay es)) ∧
      (∀ medium, d.Crash medium → medium 0 = blank ∨ ∀ lba < disks.sectors, medium lba = source lba) ∧
      ((validateSource disks.source disks.sectors).value (disks.start source target) = .ok () →
        (d.view 0 = blank →
          (ensureResumable disks.source disks.target disks.sectors).value d = .ok () ∧
            ∃ report, (disks.install .resume).value d = .ok report) ∧
        (d.view 0 ≠ blank → (∀ lba < disks.sectors, d.view lba = source lba) ∧
          (disks.install .resume).value d = .error .resumeCommitted)) := by
  have hsafe := h.safe
  refine ⟨fun mode es report hrun => ?_, fun medium hc => (hsafe.crash hc).blank_or_copy, fun hv => ?_⟩
  · exact (hrun.keeps (keeps_install hsafe (.inl trivial)) (.inl trivial)).2.1 report rfl
  rw [← hsafe.validateSource_eq] at hv
  refine ⟨fun h0 => ?_, fun h0 => ⟨hsafe.blank_or_copy.resolve_left h0, value_resume_committed hsafe hv h0⟩⟩
  have haccepts : Accepts disks .resume d := ⟨h0, fun lba _ hl =>
    (hsafe.target lba hl).view.imp id fun hv => hv.trans (hsafe.source lba hl).view.symm⟩
  refine ⟨(accepts_iff hsafe.size).2 haccepts, ?_⟩
  have hkeeps : (disks.install .resume).Keeps False (Safe disks source) (fun _ d' => Installed disks source d') d :=
    keeps_install hsafe (.inr ⟨hv, haccepts⟩)
  obtain ⟨report, hreport, -⟩ := hkeeps.completes
  exact ⟨report, hreport⟩

/-- The last check of an installation may fail after sector 0 was committed. -/
theorem exists_run_committed {mode : InstallMode} (h : Safe disks source d)
    (hv : (validateSource disks.source disks.sectors).value d = .ok ()) (haccepts : Accepts disks mode d) :
    ∃ es, Runs (disks.install mode) d es (.error .read) ∧ Installed disks source (d.replay es) := by
  have hlarge := disks.large
  -- the checks change nothing, so the copy starts from `d`
  obtain ⟨es₁, hsource, hsame₁⟩ : ∃ es, Runs (validateSource disks.source disks.sectors) d es (.ok ()) ∧
      d.replay es = d := by
    have hrun := (validateSource disks.source disks.sectors).runs d
    exact ⟨_, hv ▸ hrun, replay_reads d (hrun.reads readsWithin_validateSource.readOnly)⟩
  obtain ⟨es₂, htarget, hsame₂⟩ : ∃ es,
      Runs (ensureTarget disks.source disks.target disks.sectors mode) d es (.ok ()) ∧ d.replay es = d := by
    have hrun := (ensureTarget disks.source disks.target disks.sectors mode).runs d
    rw [(accepts_iff h.size).2 haccepts] at hrun
    exact ⟨_, hrun, ((hrun.keeps (keeps_ensureTarget h.size h (.inl trivial)) (.inl trivial)).2.1 () rfl).1⟩
  obtain ⟨es₃, written, hcopy, hcopied, hinstalled⟩ : ∃ es written,
      Runs (copyAll disks.source disks.target disks.sectors) d es (.ok written) ∧
        Copied disks source (fun _ => True) True (d.replay es) ∧ Installed disks source (d.replay es) := by
    have hkeeps : (copyAll disks.source disks.target disks.sectors).Keeps False (Safe disks source)
        (fun _ d' => Copied disks source (fun _ => True) True d' ∧ Installed disks source d') d := keeps_copyAll h
    obtain ⟨written, hwritten, hend⟩ := hkeeps.completes
    have hrun := (copyAll disks.source disks.target disks.sectors).runs d
    rw [← after_eq] at hend
    exact ⟨_, written, hwritten ▸ hrun, hend⟩
  have hprobe : Runs (probe disks.source disks.target 0) (d.replay es₃) [.readFail disks.sectors 1] (.error .read) := by
    have hread : Runs (disks.source.readSector InstallError.read 0) (d.replay es₃) [.readFail disks.sectors 1]
        (.error .read) := by
      rw [Disk.readSector, if_pos (show 0 < disks.source.sectors from (by omega : 0 < disks.sectors))]
      exact .readFail (by rw [hcopied.size]; exact (by omega : disks.sectors + 0 + 1 ≤ 2 * disks.sectors)) (.throw _ _)
    exact (Runs.bind_error hread : Runs (disks.source.readSector InstallError.read 0 >>= _) _ _ _)
  refine ⟨es₁ ++ (es₂ ++ (es₃ ++ [.readFail disks.sectors 1])), ?_, ?_⟩
  · rw [install_eq]
    refine hsource.bind ?_
    rw [hsame₁]
    refine htarget.bind ?_
    rw [hsame₂]
    exact hcopy.bind (Runs.bind_error (Runs.bind_error hprobe) : Runs (_ >>= _) _ _ _)
  · rw [replay_append, hsame₁, replay_append, hsame₂, replay_append]
    exact hinstalled

def demoDisks : Disks := ⟨4096, true, true, by decide, by decide⟩

def padded (bytes : List UInt8) : Sector := ⟨(pad 512 bytes).toArray, by rw [List.size_toArray, length_pad]⟩

def demoEntry : List UInt8 :=
  makosDataType ++ leBytes 16 0 ++ leBytes 8 2048 ++ leBytes 8 3071 ++ List.replicate 80 0

def demoHeader (crc : Nat) : List UInt8 :=
  Gpt.signature ++ leBytes 4 0x00010000 ++ leBytes 4 92 ++ leBytes 4 crc ++ leBytes 4 0 ++ leBytes 8 1 ++
    leBytes 8 4095 ++ leBytes 8 34 ++ leBytes 8 4062 ++ leBytes 16 0 ++ leBytes 8 2 ++ leBytes 4 1 ++ leBytes 4 128 ++
    leBytes 4 (crc32 demoEntry).toNat

/-- A GPT disk with one MakOS data partition. -/
def demoSource : Nat → Sector
  | 0 => padded (List.replicate 450 0 ++ [0xee] ++ List.replicate 59 0 ++ [0x55, 0xaa])
  | 1 => padded (demoHeader (crc32 (demoHeader 0)).toNat)
  | 2 => padded demoEntry
  | _ => blank

theorem demoSource_valid : (validateSource demoDisks.source demoDisks.sectors).value
    (demoDisks.start demoSource fun _ => blank) = .ok () := by
  have h : ((validateSource demoDisks.source demoDisks.sectors).value
      (demoDisks.start demoSource fun _ => blank)).isOk = true := by decide +kernel
  cases hv : (validateSource demoDisks.source demoDisks.sectors).value (demoDisks.start demoSource fun _ => blank) with
  | error => rw [hv] at h; cases h
  | ok => rfl

theorem accepts_blank : Accepts demoDisks .fresh (demoDisks.start demoSource fun _ => blank) :=
  fun _ _ hl => view_start_target hl

/-- A read that fails after the commit leaves a target that resume mode refuses. -/
theorem resume_refused_after_commit : ∃ es,
    Reached demoDisks demoSource (fun _ => blank) ((demoDisks.start demoSource fun _ => blank).replay es) ∧
      Runs (demoDisks.install .fresh) (demoDisks.start demoSource fun _ => blank) es (.error .read) ∧
      (demoDisks.install .resume).value ((demoDisks.start demoSource fun _ => blank).replay es) =
        .error .resumeCommitted := by
  have hsafe := safe_start accepts_blank
  obtain ⟨es, hrun, hinstalled⟩ := exists_run_committed hsafe demoSource_valid accepts_blank
  have hreached : Reached demoDisks demoSource (fun _ => blank) ((demoDisks.start demoSource fun _ => blank).replay es) := by
    have := Reached.install es.length (.start ((accepts_iff rfl).2 accepts_blank)) hrun
    rwa [List.take_length] at this
  have hfirst : demoSource 0 ≠ blank := by
    have : isZero (demoSource 0) = false := by decide +kernel
    exact fun h => by rw [isZero_iff.2 h] at this; cases this
  refine ⟨es, hreached, hrun, value_resume_committed hreached.safe ?_ ?_⟩
  · rw [hreached.safe.validateSource_eq]
    exact demoSource_valid
  · rw [(hinstalled 0 (by decide)).view]
    exact hfirst

/-- A blank target is accepted and installed. -/
theorem install_outcome_of_blank :
    (demoDisks.start demoSource fun _ => blank).view 0 = blank ∧
      ∃ report, (demoDisks.install .resume).value (demoDisks.start demoSource fun _ => blank) = .ok report := by
  have h := install_outcome (.start ((accepts_iff rfl).2 accepts_blank))
  have hfirst : (demoDisks.start demoSource fun _ => blank).view 0 = blank := view_start_target (by decide)
  exact ⟨hfirst, ((h.2.2 demoSource_valid).1 hfirst).2⟩

end

end MakOS.Installer
