/-
The boot, and runs of the machine: boots and stores, each of which may be cut short by a power loss. In every run from
a disk without files the area is sound, and a store that is cut short leaves the old file or the new one.
-/
import MakOS.MakFS3.Crash

namespace MakOS.MakFS3

open Bytes Data

variable {disk disk' : Disk} {slot : Nat} {bitmap : Bitmap} {name : List UInt8} {kind : Kind}
  {data : Option (List UInt8)}

/-! ## The exact bitmap -/

theorem claimBlocks_free {blocks : List Nat} (hblocks : ∀ block ∈ blocks, block < dynamicDataBlockCount)
    (hnodup : blocks.Nodup) (hfree : ∀ block ∈ blocks, bitmap.getLsbD block = false) :
    claimBlocks blocks bitmap = .ok (markAll bitmap blocks) := by
  induction blocks generalizing bitmap with
  | nil => rfl
  | cons block blocks ih =>
    rw [List.nodup_cons] at hnodup
    have hblock := hblocks block List.mem_cons_self
    rw [claimBlocks, if_neg (by simp [hfree block List.mem_cons_self])]
    refine ih (List.forall_mem_cons.1 hblocks).2 hnodup.2 fun other hother => ?_
    rw [getLsbD_or_twoPow hblock, hfree other (List.mem_cons_of_mem _ hother), Bool.false_or, decide_eq_false_iff_not]
    rintro rfl
    exact hnodup.1 hother

theorem Sound.claimSlots (h : Sound disk) {slots : List Nat} (hslots : ∀ slot ∈ slots, slot < dynamicFileCount)
    (hnodup : slots.Nodup) (hfree : ∀ slot ∈ slots, ∀ block ∈ used disk slot, bitmap.getLsbD block = false) :
    ∃ claimed, claimSlots disk.reader slots bitmap = .ok claimed ∧
      ∀ block, claimed.getLsbD block = true ↔ bitmap.getLsbD block = true ∨ ∃ slot ∈ slots, block ∈ used disk slot := by
  induction slots generalizing bitmap with
  | nil => exact ⟨bitmap, rfl, by simp⟩
  | cons slot slots ih =>
    rw [List.nodup_cons] at hnodup
    have hslot := hslots slot List.mem_cons_self
    obtain ⟨inode, hinode⟩ := h.inode slot hslot
    obtain ⟨hblocks, hblocksNodup⟩ := used_blocks disk slot
    have helim : (inode.elim [] fun inode => if inode.active then inode.blocks else []) = used disk slot := by
      rw [used, hinode]
      cases inode <;> rfl
    have hmarked := @getLsbD_markAll bitmap (used disk slot) hblocks
    have hclaim := claimBlocks_free hblocks hblocksNodup (hfree slot List.mem_cons_self)
    have hrest : ∀ other ∈ slots, ∀ block ∈ used disk other, (markAll bitmap (used disk slot)).getLsbD block = false := by
      intro other hother block hblock
      rw [← Bool.not_eq_true, hmarked, not_or, hfree other (List.mem_cons_of_mem _ hother) block hblock]
      have hne : other ≠ slot := fun heq => hnodup.1 (heq ▸ hother)
      exact ⟨Bool.false_ne_true, h.apart other (hslots other (List.mem_cons_of_mem _ hother)) slot hslot hne block hblock⟩
    obtain ⟨claimed, hclaimed, hbits⟩ := ih (List.forall_mem_cons.1 hslots).2 hnodup.2 hrest
    refine ⟨claimed, ?_, fun block => ?_⟩
    · rw [MakFS3.claimSlots, show readDynamicInode disk.reader slot = .ok inode from hinode]
      dsimp only
      rw [helim, hclaim]
      exact hclaimed
    · rw [hbits, hmarked, or_assoc, List.exists_mem_cons_iff]

/-- The bitmap is the union of the blocks of the files. -/
def Exact (disk : Disk) (bitmap : Bitmap) : Prop :=
  ∀ block, bitmap.getLsbD block = true ↔ ∃ slot < dynamicFileCount, block ∈ used disk slot

theorem Sound.reconcile (h : Sound disk) :
    ∃ bitmap, reconcileDynamicAllocation disk.reader = ⟨[bitmapWrite bitmap], .ok ()⟩ ∧ Exact disk bitmap := by
  obtain ⟨bitmap, hclaimed, hbits⟩ := @Sound.claimSlots disk 0 h (List.range dynamicFileCount)
    (fun slot hslot => List.mem_range.1 hslot) List.nodup_range fun _ _ block _ => BitVec.getLsbD_zero
  refine ⟨bitmap, ?_, fun block => ?_⟩
  · rw [reconcileDynamicAllocation, hclaimed]
  · rw [hbits]
    simp

theorem ensure_mapped (h : bitmapAt disk ≠ none) : ensureDynamicArea faithful disk = ⟨[], .ok ()⟩ :=
  if_pos (Option.isSome_iff_ne_none.2 h)

/-- Where the bitmap is there the boot makes it exact, and changes nothing else. -/
theorem Sound.boot (h : Sound disk) (hmapped : bitmapAt disk ≠ none) :
    ∃ bitmap, boot faithful disk = ⟨[bitmapWrite bitmap], .ok ()⟩ ∧ Exact disk bitmap := by
  obtain ⟨bitmap, hreconcile, hexact⟩ := h.reconcile
  refine ⟨bitmap, ?_, hexact⟩
  unfold MakFS3.boot
  rw [ensure_mapped hmapped]
  dsimp only
  rw [show reconcileDynamicAllocation (faithful 7 (disk.writeAll [])) = _ from hreconcile]
  rfl

/-! ## Before the first boot -/

theorem mem_readEach {α : Type} {read : Nat → Except Fatal α} {slots : List Nat} {found : List (α × Nat)}
    (h : readEach read slots = .ok found) : ∀ entry ∈ found, entry.2 ∈ slots ∧ read entry.2 = .ok entry.1 := by
  induction slots generalizing found with
  | nil =>
    cases h
    simp
  | cons slot slots ih =>
    rw [readEach] at h
    split at h
    · cases h
    rename_i value hvalue
    split at h
    · cases h
    rename_i others hothers
    cases h
    intro entry hentry
    rcases List.mem_cons.1 hentry with rfl | hrest
    · exact ⟨List.mem_cons_self .., hvalue⟩
    · obtain ⟨hslot, hread⟩ := ih hothers entry hrest
      exact ⟨List.mem_cons_of_mem _ hslot, hread⟩

theorem readEach_ok {α : Type} {read : Nat → Except Fatal α} {slots : List Nat}
    (h : ∀ slot ∈ slots, ∃ value, read slot = .ok value) :
    ∃ found, readEach read slots = .ok found ∧ found.map Prod.snd = slots := by
  induction slots with
  | nil => exact ⟨[], rfl, rfl⟩
  | cons slot slots ih =>
    obtain ⟨value, hvalue⟩ := h slot List.mem_cons_self
    obtain ⟨found, hfound, hslots⟩ := ih (List.forall_mem_cons.1 h).2
    exact ⟨(value, slot) :: found, by rw [readEach, hvalue, hfound], congrArg (slot :: ·) hslots⟩

theorem accepts_legacy {record : Sector} {file : File} (h : decodeLegacy slot record = .ok (some file))
    (hslot : slot < dynamicFileCount) :
    accepts slot file.name .file (some file.data) = true ∧ file.kind = .file ∧ file.data.length ≤ 64 := by
  unfold decodeLegacy at h
  split at h
  · cases h
  split at h
  · cases h
  dsimp only at h
  split at h
  · cases h
  split at h
  · cases h
  rename_i hlengths _
  cases h
  simp only [dynamicNameBytes, Bool.or_eq_true, decide_eq_true_eq] at hlengths
  have hname := length_slice record 32 (byteAt record 10).toNat (by omega)
  have hdata := length_slice record 64 (getU32 record 24).toNat (by omega)
  rw [accepts_iff, Option.getD_some]
  dsimp only
  refine ⟨⟨hslot, fun hnil => ?_, by omega, by simp, by omega⟩, rfl, by omega⟩
  rw [hnil, List.length_nil] at hname
  omega

/-- Sound, and with a bitmap -/
def Mapped (disk : Disk) : Prop := Sound disk ∧ bitmapAt disk ≠ none

theorem Mapped.store {read : Reader} (h : Mapped disk) (hread : Truthful disk read)
    (haccepts : accepts slot name kind data = true) :
    Throughout Mapped disk (storeDynamicNodeOnDisk read slot name kind data).writes := by
  intro count
  have hbetween := (h.1.store h.2 hread haccepts count).1
  exact ⟨hbetween.sound, hbetween.mapped⟩

theorem Mapped.storeNode (h : Mapped disk) (slot : Nat) (name : List UInt8) (kind : Kind) (data : Option (List UInt8)) :
    Throughout Mapped disk (storeDynamicNode faithful disk slot name kind data).writes := by
  unfold storeDynamicNode
  split
  · exact .nil h
  · rename_i haccepts
    rw [ensure_mapped h.2]
    exact h.store (truthful_reader disk) (by simpa using haccepts)

theorem Mapped.migrate {files : List (Option File × Nat)} (h : Mapped disk)
    (hfiles : ∀ file slot, (some file, slot) ∈ files → accepts slot file.name .file (some file.data) = true) :
    Throughout Mapped disk (migrate faithful files disk).writes := by
  induction files generalizing disk with
  | nil => exact .nil h
  | cons entry files ih =>
    have hrest := fun file slot hmem => hfiles file slot (List.mem_cons_of_mem _ hmem)
    obtain ⟨file, slot⟩ := entry
    cases file with
    | none => exact ih h hrest
    | some file =>
      have hstore := h.store (truthful_reader disk) (hfiles file slot List.mem_cons_self)
      unfold MakFS3.migrate
      dsimp only
      split
      · exact hstore
      · exact hstore
      · exact hstore.append (ih hstore.done hrest)

theorem Sound.ensure (h : Sound disk) : Throughout Sound disk (ensureDynamicArea faithful disk).writes ∧
    ((ensureDynamicArea faithful disk).result = .ok () →
      bitmapAt (disk.writeAll (ensureDynamicArea faithful disk).writes) ≠ none) := by
  unfold ensureDynamicArea
  split
  · rename_i hsome
    exact ⟨.nil h, fun _ => Option.isSome_iff_ne_none.1 hsome⟩
  rename_i hnone
  have hempty := h.mapped (by simpa [faithful, bitmapAt] using hnone)
  split
  · exact ⟨.nil h, fun herror => by cases herror⟩
  rename_i inodes hinodes
  split
  · -- no record is there, as the bitmap is not
    rename_i hany
    obtain ⟨entry, hentry, hsome⟩ := List.any_eq_true.1 hany
    obtain ⟨hslot, hread⟩ := mem_readEach hinodes entry hentry
    rw [show readDynamicInode (faithful 1 disk) entry.2 = .ok none from hempty entry.2 (List.mem_range.1 hslot)] at hread
    rw [← Except.ok.inj hread] at hsome
    cases hsome
  split
  · exact ⟨.nil h, fun herror => by cases herror⟩
  rename_i legacy hlegacy
  have hfiles : ∀ file slot, (some file, slot) ∈ legacy → accepts slot file.name .file (some file.data) = true := by
    intro file slot hmem
    obtain ⟨hslot, hread⟩ := mem_readEach hlegacy _ hmem
    have hlt : slot < 4 := List.mem_range.1 hslot
    exact (accepts_legacy hread (by omega : slot < 16)).1
  have hmapped : Mapped (disk.write (bitmapWrite 0)) := by
    refine ⟨h.remapped fun slot hslot block hblock => ?_, Option.ne_none_iff_exists'.2 ⟨0, (after_bitmapWrite disk 0).2⟩⟩
    rw [used, hempty slot hslot] at hblock
    cases hblock
  have hmigrate := hmapped.migrate hfiles
  exact ⟨.cons h (hmigrate.mono fun _ hdisk => hdisk.1), fun _ => hmigrate.done.2⟩

theorem Sound.throughout_boot (h : Sound disk) : Throughout Sound disk (MakFS3.boot faithful disk).writes ∧
    ((MakFS3.boot faithful disk).result = .ok () → bitmapAt (disk.writeAll (MakFS3.boot faithful disk).writes) ≠ none) := by
  obtain ⟨hensure, hmapped⟩ := h.ensure
  unfold MakFS3.boot
  dsimp only
  split
  · exact ⟨hensure, fun herror => by cases herror⟩
  obtain ⟨bitmap, hreconcile, hexact⟩ := hensure.done.reconcile
  rw [show reconcileDynamicAllocation (faithful 7 (disk.writeAll (ensureDynamicArea faithful disk).writes)) = _
    from hreconcile]
  refine ⟨hensure.append (.cons hensure.done (.nil (hensure.done.remapped fun _ hslot _ hblock => (hexact _).2 ⟨_, hslot, hblock⟩))), ?_⟩
  intro _
  rw [Disk.writeAll, List.foldl_append]
  exact Option.ne_none_iff_exists'.2 ⟨bitmap, (after_bitmapWrite _ bitmap).2⟩

/-! ## Runs -/

structure Machine where
  disk : Disk
  running : Bool

/-- A boot or a store, with the number of its writes before the power is lost -/
inductive Step
  | boot (cut : Option Nat)
  | store (slot : Nat) (name : List UInt8) (kind : Kind) (data : Option (List UInt8)) (cut : Option Nat)

/-- A call that ends well leaves the machine running. -/
def Machine.after {α : Type} (machine : Machine) (outcome : Outcome α) : Option Nat → Machine
  | some count => ⟨machine.disk.writeAll (outcome.writes.take count), false⟩
  | none => ⟨machine.disk.writeAll outcome.writes, outcome.result.isOk⟩

def Machine.step (machine : Machine) : Step → Machine
  | .boot cut => machine.after (MakFS3.boot faithful machine.disk) cut
  | .store slot name kind data cut =>
    if machine.running then machine.after (storeDynamicNode faithful machine.disk slot name kind data) cut else machine

def Machine.run (machine : Machine) (steps : List Step) : Machine := steps.foldl step machine

/-- A machine that is off, with a disk that has no record of a file. It may have files of the older format. -/
def Fresh (machine : Machine) : Prop :=
  machine.running = false ∧ ∀ slot < dynamicFileCount, inodeAt machine.disk slot = .ok none

def Machine.Good (machine : Machine) : Prop :=
  Sound machine.disk ∧ (machine.running = true → bitmapAt machine.disk ≠ none)

theorem Fresh.good {machine : Machine} (h : Fresh machine) : machine.Good := by
  have hused : ∀ slot < dynamicFileCount, used machine.disk slot = [] := fun slot hslot => by rw [used, h.2 slot hslot]
  refine ⟨⟨fun slot hslot => ⟨_, h.2 slot hslot⟩, fun slot hslot => ⟨none, ?_⟩, fun a ha _ _ _ => ?_, fun _ _ slot hslot => ?_,
    fun _ => h.2⟩, fun hrunning => ?_⟩
  · rw [fileAt, readDynamicFile, show readDynamicInode machine.disk.reader slot = .ok none from h.2 slot hslot]
  · simp [hused a ha]
  · simp [hused slot hslot]
  · rw [h.1] at hrunning
    cases hrunning

theorem Machine.good_after {α : Type} {machine : Machine} {outcome : Outcome α}
    (h : Throughout Sound machine.disk outcome.writes)
    (hmapped : outcome.result.isOk = true → bitmapAt (machine.disk.writeAll outcome.writes) ≠ none) (cut : Option Nat) :
    (machine.after outcome cut).Good := by
  cases cut with
  | none => exact ⟨h.done, hmapped⟩
  | some count => exact ⟨h count, fun hrunning => by cases hrunning⟩

theorem Machine.good_step {machine : Machine} (h : machine.Good) (step : Step) : (machine.step step).Good := by
  cases step with
  | boot cut =>
    obtain ⟨hboot, hmapped⟩ := h.1.throughout_boot
    refine Machine.good_after hboot (fun hok => hmapped ?_) cut
    cases hresult : (MakFS3.boot faithful machine.disk).result with
    | ok value => rfl
    | error fatal => rw [hresult] at hok; cases hok
  | store slot name kind data cut =>
    rw [Machine.step]
    split
    · rename_i hrunning
      have hstore := Mapped.storeNode ⟨h.1, h.2 hrunning⟩ slot name kind data
      exact Machine.good_after (hstore.mono fun _ hdisk => hdisk.1) (fun _ => hstore.done.2) cut
    · exact h

theorem Machine.good_run {machine : Machine} (h : machine.Good) (steps : List Step) : (machine.run steps).Good := by
  induction steps generalizing machine with
  | nil => exact h
  | cons step steps ih => exact ih (Machine.good_step h step)

/-- A store that is cut short, followed by a boot: the boot ends well, the slot has its old file or the new one, the
other slots have theirs, and the bitmap is exact. -/
theorem store_crash_consistent {machine : Machine} (hfresh : Fresh machine) {steps : List Step}
    (hrunning : (machine.run steps).running = true) (haccepts : accepts slot name kind data = true) (count : Nat) :
    let disk := (machine.run steps).disk
    let crashed := disk.writeAll ((storeDynamicNodeOnDisk disk.reader slot name kind data).writes.take count)
    let booted := crashed.writeAll (boot faithful crashed).writes
    (boot faithful crashed).result = .ok () ∧ (∀ other < dynamicFileCount, ∃ file, fileAt booted other = .ok file) ∧
      (fileAt booted slot = fileAt disk slot ∨ fileAt booted slot = .ok (newFile name kind data)) ∧
      (∀ other < dynamicFileCount, other ≠ slot → fileAt booted other = fileAt disk other) ∧
      ∃ bitmap, bitmapAt booted = some bitmap ∧ Exact booted bitmap := by
  intro disk crashed booted
  obtain ⟨hsound, hmapped⟩ := Machine.good_run hfresh.good steps
  have hslot : slot < dynamicFileCount := (accepts_iff.1 haccepts).1
  have hbetween := (hsound.store (hmapped hrunning) (truthful_reader disk) haccepts count).1
  obtain ⟨bitmap, hboot, hexact⟩ := hbetween.sound.boot hbetween.mapped
  obtain ⟨hsame, hbitmap⟩ := after_bitmapWrite crashed bitmap
  have hbooted : booted = crashed.write (bitmapWrite bitmap) := by
    change crashed.writeAll (boot faithful crashed).writes = _
    rw [hboot]
    rfl
  rw [hbooted]
  refine ⟨by rw [hboot], fun other hother => ?_, ?_, fun other hother hne => ?_, bitmap, hbitmap, fun block => ?_⟩
  · rw [hsame.file other hother]
    exact hbetween.sound.file other hother
  · rw [hsame.file slot hslot]
    exact hbetween.stored
  · rw [hsame.file other hother]
    exact hbetween.others other hother hne
  · rw [hexact block]
    refine exists_congr fun other => and_congr_right fun hother => ?_
    rw [hsame.used hother]

def blank : Machine := ⟨fun _ => zeros 512, false⟩

theorem fresh_blank : Fresh blank := by
  refine ⟨rfl, fun slot _ => ?_⟩
  have hversion : inodeVersion (zeros 512) = none := by decide +kernel
  unfold inodeAt readDynamicInode blank Disk.reader decodeInode
  dsimp only
  rw [hversion]

/-- The first file of an empty disk, cut after its data -/
theorem store_crash_consistent_first :
    (blank.run [.boot none]).running = true ∧
      (boot faithful ((blank.run [.boot none]).disk.writeAll
        ((storeDynamicNodeOnDisk (blank.run [.boot none]).disk.reader 0 [97] .file (some [1, 2, 3])).writes.take 1))).result =
        .ok () := by
  have hrunning : (blank.run [.boot none]).running = true := by decide +kernel
  exact ⟨hrunning, (store_crash_consistent fresh_blank hrunning (by decide) 1).1⟩

end MakOS.MakFS3
