/-
The files of the older format, and a power loss while they are migrated. The first write of the migration puts the
bitmap over the record of the first file, and a boot that finds a bitmap looks for no files of the older format. So the
files are lost unless the power fails before that write or after the last inode.
-/
import MakOS.MakFS3.Faults

namespace MakOS.MakFS3

open Bytes Data

variable {disk : Disk} {slot k : Nat} {bitmap : Bitmap} {entries : List (Option File × Nat)}

def legacyAt (disk : Disk) (slot : Nat) : Except Fatal (Option File) := readLegacyDynamicFile disk.reader slot

/-- A disk of the older format: its records can be read, and nothing is of the newer format. -/
structure Legacy (disk : Disk) : Prop where
  unmapped : bitmapAt disk = none
  inodes : ∀ slot < dynamicFileCount, inodeAt disk slot = .ok none
  files : ∀ slot < legacyCount, ∃ file, legacyAt disk slot = .ok file

/-- Every file of the older format is there, in its slot. -/
def Migrated (old new : Disk) : Prop :=
  ∀ slot < legacyCount, ∀ file, legacyAt old slot = .ok (some file) → fileAt new slot = .ok (some file)

/-! ## One file -/

/-- All blocks from the `k`-th on are free. -/
def Room (disk : Disk) (k : Nat) : Prop :=
  ∃ bitmap, bitmapAt disk = some bitmap ∧ ∀ block, k ≤ block → bitmap.getLsbD block = false

theorem freeBlocks_room {required : Nat} (hk : k < dynamicDataBlockCount) (hroom : ∀ block, k ≤ block → bitmap.getLsbD block = false)
    (hrequired : required ≤ 1) : (freeBlocks bitmap required).length = required ∧
      ∀ block ∈ freeBlocks bitmap required, block ≤ k := by
  have hmem : k ∈ (List.range dynamicDataBlockCount).filter fun block => !bitmap.getLsbD block :=
    List.mem_filter.2 ⟨List.mem_range.2 hk, by simp [hroom k (Nat.le_refl k)]⟩
  have hsorted := (List.pairwise_lt_range (n := dynamicDataBlockCount)).filter fun block => !bitmap.getLsbD block
  unfold freeBlocks
  generalize (List.range dynamicDataBlockCount).filter (fun block => !bitmap.getLsbD block) = free at hmem hsorted
  obtain rfl | rfl : required = 0 ∨ required = 1 := by omega
  · simp
  -- the first free block is not after the one that is known to be free
  cases free with
  | nil => cases hmem
  | cons first free =>
    refine ⟨by simp, fun block hblock => ?_⟩
    rw [List.take_succ_cons, List.take_zero, List.mem_singleton] at hblock
    rcases List.mem_cons.1 hmem with heq | hlater
    · omega
    · have := (List.pairwise_cons.1 hsorted).1 k hlater
      omega

/-- One file of the older format is stored: the call ends well, the other inodes stay, and there is room for more. -/
theorem store_legacy {file : File} (hmapped : Mapped disk) (hroom : Room disk k) (hk : k < dynamicDataBlockCount)
    (haccepts : accepts slot file.name .file (some file.data) = true) (hlength : file.data.length ≤ 64)
    (hinode : inodeAt disk slot = .ok none) :
    let stored := storeDynamicNodeOnDisk disk.reader slot file.name .file (some file.data)
    stored.result = .ok true ∧ Mapped (disk.writeAll stored.writes) ∧ Room (disk.writeAll stored.writes) (k + 1) ∧
      ∀ other, other ≠ slot → other < dynamicFileCount → inodeAt (disk.writeAll stored.writes) other = inodeAt disk other := by
  have hthroughout := hmapped.store (truthful_reader disk) haccepts
  obtain ⟨bitmap, hbitmap, hfree⟩ := hroom
  obtain ⟨hfound, hbound⟩ := freeBlocks_room hk hfree (by omega : (file.data.length + 511) / 512 ≤ 1)
  intro stored
  have hstored : stored = _ := storeDynamicNodeOnDisk_fresh file.name .file (some file.data) hbitmap hinode rfl hfound
  refine ⟨by rw [hstored], hthroughout.done, ?_, fun other hne hlt => inodeAt_congr (writeAll_of_not_mem ?_)⟩
  · refine ⟨markAll bitmap (freeBlocks bitmap ((file.data.length + 511) / 512)), ?_, fun block hblock => ?_⟩
    · rw [hstored, Disk.writeAll, List.foldl_append]
      exact (after_bitmapWrite _ _).2
    rw [← Bool.not_eq_true, getLsbD_markAll fun block hmem => (mem_freeBlocks hmem).1, hfree block (by omega)]
    rintro (hset | hmem)
    · cases hset
    · have := hbound block hmem
      omega
  · rw [hstored]
    intro request hrequest heq
    rcases List.mem_append.1 hrequest with hdata | hrest
    · obtain ⟨block, -, hlba⟩ := mem_dataWrites hdata
      have : 32 + block = 8 + other := hlba.symm.trans heq
      have : other < 16 := hlt
      omega
    · simp [bitmapWrite] at hrest
      rcases hrest with rfl | rfl | rfl <;> simp [dynamicAllocationLba, dynamicInodeLbaBase] at heq <;> omega

/-! ## All files -/

def Holds (entries : List (Option File × Nat)) (disk : Disk) : Prop :=
  ∀ file slot, (some file, slot) ∈ entries → fileAt disk slot = .ok (some file)

/-- Files of the older format, each with a slot of its own that is empty -/
structure Waiting (entries : List (Option File × Nat)) (disk : Disk) : Prop where
  nodup : (entries.map Prod.snd).Nodup
  slots : ∀ entry ∈ entries, entry.2 < dynamicFileCount ∧ inodeAt disk entry.2 = .ok none
  files : ∀ file slot, (some file, slot) ∈ entries →
    accepts slot file.name .file (some file.data) = true ∧ file.kind = .file ∧ file.data.length ≤ 64

theorem fileAt_of_inode (h : inodeAt disk slot = .ok none) : fileAt disk slot = .ok none := by
  rw [fileAt, readDynamicFile, show readDynamicInode disk.reader slot = .ok none from h]

theorem migrate_none (h : ∀ entry ∈ entries, entry.1 = none) : migrate faithful entries disk = ⟨[], .ok ()⟩ := by
  induction entries with
  | nil => rfl
  | cons entry entries ih =>
    obtain ⟨file, slot⟩ := entry
    obtain rfl : file = none := h (file, slot) List.mem_cons_self
    exact ih (List.forall_mem_cons.1 h).2

theorem holds_cons {file : File} : Holds ((some file, slot) :: entries) disk ↔
    fileAt disk slot = .ok (some file) ∧ Holds entries disk := by
  simp only [Holds, List.mem_cons, Prod.mk.injEq, Option.some.injEq]
  exact ⟨fun hall => ⟨hall file slot (.inl ⟨rfl, rfl⟩), fun f s hmem => hall f s (.inr hmem)⟩,
    fun hall f s hmem => by rcases hmem with ⟨rfl, rfl⟩ | hmem; exacts [hall.1, hall.2 f s hmem]⟩

theorem holds_empty (h : ∀ entry ∈ entries, fileAt disk entry.2 = .ok none) :
    Holds entries disk ↔ ∀ entry ∈ entries, entry.1 = none := by
  constructor
  · rintro hholds ⟨file | file, slot⟩ hentry
    · rfl
    · have hfile := hholds file slot hentry
      rw [h _ hentry] at hfile
      cases hfile
  · intro hnone file slot hentry
    cases hnone _ hentry

/-- A migration ends well. After each number of its writes the other slots are as they were, and all files are there
exactly if at most the last write is missing. -/
structure Migrates (entries : List (Option File × Nat)) (disk : Disk) (migrated : Outcome Unit) : Prop where
  result : migrated.result = .ok ()
  others : ∀ count slot, slot ∉ entries.map Prod.snd → slot < dynamicFileCount →
    fileAt (disk.writeAll (migrated.writes.take count)) slot = fileAt disk slot
  holds : ∀ count, Holds entries (disk.writeAll (migrated.writes.take count)) ↔ migrated.writes.length ≤ count + 1

theorem Migrates.cons {file : File} {first : List Write} {others : Outcome Unit}
    (h : Migrates entries (disk.writeAll first) others) (hlt : slot < dynamicFileCount)
    (hslot : slot ∉ entries.map Prod.snd) (hwaiting : ∀ entry ∈ entries, entry.2 < dynamicFileCount ∧ fileAt disk entry.2 = .ok none)
    (hempty : fileAt disk slot = .ok none) (hnone : (∀ entry ∈ entries, entry.1 = none) → others.writes = [])
    (hstore : ∀ count, Between disk slot (some file) (disk.writeAll (first.take count)) ∧
      fileAt (disk.writeAll (first.take count)) slot =
        if count + 1 < first.length then fileAt disk slot else .ok (some file)) :
    Migrates ((some file, slot) :: entries) disk ⟨first ++ others.writes, others.result⟩ := by
  have hdone := hstore first.length
  rw [List.take_length, if_neg (by omega)] at hdone
  -- while the file is stored no other is there
  have hothers := fun count => holds_empty fun entry hentry => ((hstore count).1.others entry.2 (hwaiting entry hentry).1
    fun hsame => hslot (List.mem_map.2 ⟨entry, hentry, hsame⟩)).trans (hwaiting entry hentry).2
  have hnothing : (∀ entry ∈ entries, entry.1 = none) ↔ others.writes.length ≤ 1 := by
    have hfirst := hothers first.length
    rw [List.take_length] at hfirst
    exact hfirst.symm.trans (h.holds 0)
  have hzero := fun hle => congrArg List.length (hnone (hnothing.2 hle))
  refine ⟨h.result, fun count other hother hlt' => ?_, fun count => ?_⟩
  · rw [List.map_cons, List.mem_cons, not_or] at hother
    rcases writeAll_take_append disk first others.writes count with ⟨-, hdisk⟩ | ⟨left, -, hdisk⟩
    · rw [hdisk]
      exact (hstore count).1.others other hlt' hother.1
    · rw [hdisk, h.others _ other hother.2 hlt']
      exact hdone.1.others other hlt' hother.1
  · rw [holds_cons, List.length_append]
    rcases writeAll_take_append disk first others.writes count with ⟨hle, hdisk⟩ | ⟨left, rfl, hdisk⟩
    · rw [hdisk, (hstore count).2, hothers, hnothing, hempty]
      split
      · exact iff_of_false (fun hfile => by cases hfile.1) (by omega)
      · rw [and_iff_right rfl]
        exact ⟨fun hle' => by have := hzero hle'; rw [List.length_nil] at this; omega, fun _ => by omega⟩
    · rw [hdisk, h.others _ slot hslot hlt, hdone.2, h.holds, and_iff_right rfl]
      omega

theorem Waiting.migrates (h : Waiting entries disk) (hmapped : Mapped disk) (hroom : Room disk k)
    (hk : k + entries.length ≤ dynamicDataBlockCount) : Migrates entries disk (migrate faithful entries disk) := by
  induction entries generalizing disk k with
  | nil => exact ⟨rfl, fun count _ _ _ => by rw [migrate, List.take_nil]; rfl, fun _ => by simp [Holds, migrate]⟩
  | cons entry entries ih =>
    obtain ⟨file, slot⟩ := entry
    obtain ⟨hslot, hnodup⟩ := List.nodup_cons.1 h.nodup
    have hslots := (List.forall_mem_cons.1 h.slots).2
    have hrest : ∀ disk', (∀ entry ∈ entries, inodeAt disk' entry.2 = inodeAt disk entry.2) → Waiting entries disk' :=
      fun disk' hsame => ⟨hnodup, fun entry hentry => ⟨(hslots entry hentry).1, (hsame entry hentry).trans (hslots entry hentry).2⟩,
        fun file slot hmem => h.files file slot (List.mem_cons_of_mem _ hmem)⟩
    rw [List.length_cons] at hk
    cases file with
    | none =>
      have hmigrates := ih (hrest disk fun _ _ => rfl) hmapped hroom (by omega)
      rw [migrate]
      refine ⟨hmigrates.result, fun count other hother => hmigrates.others count other fun hmem => ?_, fun count => ?_⟩
      · exact hother (List.mem_cons_of_mem _ hmem)
      · simpa [Holds] using hmigrates.holds count
    | some file =>
      obtain ⟨haccepts, hkind, hlength⟩ := h.files file slot List.mem_cons_self
      obtain ⟨hlt, hinode⟩ := h.slots _ List.mem_cons_self
      have hstore := hmapped.1.store hmapped.2 (truthful_reader disk) haccepts
      obtain ⟨hok, hmapped', hroom', hinodes⟩ := store_legacy hmapped hroom (by omega) haccepts hlength hinode
      rw [show newFile file.name .file (some file.data) = some file by rw [← hkind]; rfl] at hstore
      rw [migrate]
      simp only [faithful, hok]
      have hne : ∀ entry ∈ entries, entry.2 ≠ slot := fun entry hentry hsame => hslot (List.mem_map.2 ⟨entry, hentry, hsame⟩)
      have hmigrates := ih (hrest _ fun entry hentry => hinodes entry.2 (hne entry hentry) (hslots entry hentry).1)
        hmapped' hroom' (by omega)
      refine hmigrates.cons hlt hslot (fun entry hentry => ⟨(hslots entry hentry).1, fileAt_of_inode (hslots entry hentry).2⟩)
        (fileAt_of_inode hinode) (fun hnone => by rw [migrate_none hnone]) fun count => ?_
      simpa [hok] using hstore count

/-! ## The boot after a power loss -/

/-- The files that are migrated, after the bitmap is written -/
theorem Legacy.ensure (h : Legacy disk) :
    let mapped := disk.write (bitmapWrite 0)
    ∃ entries,
    (∀ file slot, (file, slot) ∈ entries ↔ slot < legacyCount ∧ legacyAt disk slot = .ok file) ∧
    Mapped mapped ∧ Waiting entries mapped ∧
    Migrates entries mapped (migrate faithful entries mapped) ∧
    ensureDynamicArea faithful disk = ⟨bitmapWrite 0 :: (migrate faithful entries mapped).writes,
      (migrate faithful entries mapped).result⟩ := by
  intro mapped
  obtain ⟨hsame, hbitmap⟩ := after_bitmapWrite disk 0
  obtain ⟨inodes, hinodes, -⟩ := @readEach_ok _ (readDynamicInode (faithful 1 disk)) (List.range dynamicFileCount)
    fun slot hslot => ⟨none, h.inodes slot (List.mem_range.1 hslot)⟩
  obtain ⟨entries, hentries, hslots⟩ := @readEach_ok _ (readLegacyDynamicFile (faithful 2 disk)) (List.range legacyCount)
    fun slot hslot => h.files slot (List.mem_range.1 hslot)
  have hmem : ∀ file slot, (file, slot) ∈ entries ↔ slot < legacyCount ∧ legacyAt disk slot = .ok file := by
    refine fun file slot => ⟨fun hentry => ?_, fun ⟨hslot, hfile⟩ => ?_⟩
    · exact (mem_readEach hentries _ hentry).imp_left List.mem_range.1
    · obtain ⟨entry, hentry, rfl⟩ := List.mem_map.1 (hslots ▸ List.mem_range.2 hslot)
      rwa [← Except.ok.inj ((mem_readEach hentries _ hentry).2.symm.trans hfile)]
  have hsmall : ∀ slot < legacyCount, slot < dynamicFileCount := fun slot (hslot : slot < 4) => (by omega : slot < 16)
  have hmapped : Mapped mapped := by
    refine ⟨(@Fresh.good ⟨disk, false⟩ ⟨rfl, h.inodes⟩).1.remapped fun slot hslot block hblock => ?_, Option.ne_none_iff_exists'.2 ⟨0, hbitmap⟩⟩
    rw [used, h.inodes slot hslot] at hblock
    cases hblock
  have hwaiting : Waiting entries mapped := by
    refine ⟨hslots ▸ List.nodup_range, fun entry hentry => ?_, fun file slot hentry => ?_⟩
    · have hslot := hsmall _ ((hmem entry.1 entry.2).1 hentry).1
      exact ⟨hslot, (hsame.inode entry.2 hslot).trans (h.inodes entry.2 hslot)⟩
    · obtain ⟨hslot, hfile⟩ := (hmem _ _).1 hentry
      exact accepts_legacy hfile (hsmall slot hslot)
  have hlength : entries.length = 4 := by rw [← List.length_map Prod.snd, hslots]; rfl
  refine ⟨entries, hmem, hmapped, hwaiting, hwaiting.migrates (k := 0) hmapped ⟨0, hbitmap, by simp⟩ (by rw [hlength]; decide), ?_⟩
  have hany : (inodes.any fun inode => inode.1.isSome) = false := by
    rw [List.any_eq_false]
    intro entry hentry
    obtain ⟨hslot, hread⟩ := mem_readEach hinodes entry hentry
    rw [← Except.ok.inj ((h.inodes _ (List.mem_range.1 hslot)).symm.trans hread)]
    simp
  unfold ensureDynamicArea
  rw [show readAllocationBitmap (faithful 0 disk) = none from h.unmapped, hinodes]
  dsimp only
  rw [hany, hentries]
  rfl

/-- A boot changes no file after it has ensured the area. -/
theorem boot_files {ensured : List Write} (hensure : ensureDynamicArea faithful disk = ⟨ensured, .ok ()⟩)
    (hsound : Sound (disk.writeAll ensured)) : (boot faithful disk).result = .ok () ∧ ∀ slot < dynamicFileCount,
      fileAt (disk.writeAll (boot faithful disk).writes) slot = fileAt (disk.writeAll ensured) slot := by
  obtain ⟨bitmap, hreconcile, -⟩ := hsound.reconcile
  unfold boot
  rw [hensure]
  dsimp only
  rw [show reconcileDynamicAllocation (faithful 7 (disk.writeAll ensured)) = _ from hreconcile, Disk.writeAll, List.foldl_append]
  exact ⟨rfl, (after_bitmapWrite _ bitmap).1.file⟩

/-- The next boot finds every file of the older format exactly if there was none, the power was lost before the first
write of the migration, or at most its last write is missing. -/
theorem migration_crash_safe_iff (h : Legacy disk) (count : Nat) :
    let crashed := disk.writeAll ((ensureDynamicArea faithful disk).writes.take count)
    ((boot faithful crashed).result = .ok () ∧ Migrated disk (crashed.writeAll (boot faithful crashed).writes)) ↔
      (∀ slot < legacyCount, legacyAt disk slot = .ok none) ∨ count = 0 ∨
        (ensureDynamicArea faithful disk).writes.length ≤ count + 1 := by
  obtain ⟨entries, hmem, hmapped, hwaiting, hmigrates, hensure⟩ := h.ensure
  have hthroughout := hmapped.migrate fun file slot hentry => (hwaiting.files file slot hentry).1
  have hmigrated : ∀ new, Migrated disk new ↔ Holds entries new := fun new =>
    ⟨fun hall file slot hentry => hall slot ((hmem _ _).1 hentry).1 file ((hmem _ _).1 hentry).2,
      fun hall slot hslot file hfile => hall file slot ((hmem _ _).2 ⟨hslot, hfile⟩)⟩
  have hnone : (∀ slot < legacyCount, legacyAt disk slot = .ok none) → ∀ entry ∈ entries, entry.1 = none := by
    intro hall entry hentry
    obtain ⟨hslot, hfile⟩ := (hmem entry.1 entry.2).1 hentry
    exact Except.ok.inj (hfile.symm.trans (hall _ hslot))
  -- the slots of the files look the same after the boot
  have hbooted : ∀ old new, (∀ slot < dynamicFileCount, fileAt new slot = fileAt old slot) → (Holds entries new ↔ Holds entries old) :=
    fun old new hsame => forall₂_congr fun file slot => forall_congr' fun hentry => by
      rw [hsame slot (hwaiting.slots _ hentry).1]
  intro crashed
  rw [hmigrated]
  cases count with
  | zero =>
    rw [hmigrates.result] at hensure
    obtain ⟨hresult, hfiles⟩ := boot_files hensure hthroughout.done.1
    have hall := hmigrates.holds (migrate faithful entries (disk.write (bitmapWrite 0))).writes.length
    rw [List.take_length] at hall
    exact iff_of_true ⟨hresult, (hbooted _ _ hfiles).2 (hall.2 (Nat.le_succ _))⟩ (.inr (.inl rfl))
  | succ count =>
    have hcrashed : crashed = (disk.write (bitmapWrite 0)).writeAll
        ((migrate faithful entries (disk.write (bitmapWrite 0))).writes.take count) := by
      change disk.writeAll ((ensureDynamicArea faithful disk).writes.take (count + 1)) = _
      rw [hensure]
      rfl
    have hmapped' : Mapped crashed := hcrashed ▸ hthroughout count
    obtain ⟨hresult, hfiles⟩ := boot_files (ensure_mapped hmapped'.2) hmapped'.1
    rw [and_iff_right hresult, hbooted _ _ hfiles]
    change Holds entries crashed ↔ _
    rw [hcrashed, hmigrates.holds, hensure]
    refine ⟨fun hle => .inr (.inr (Nat.succ_le_succ hle)), ?_⟩
    rintro (hall | hzero | hle)
    · rw [migrate_none (hnone hall)]
      exact Nat.zero_le _
    · cases hzero
    · exact Nat.le_of_succ_le_succ hle

/-- The record of a file in the first slot -/
def legacyFields : List (Nat × List UInt8) :=
  [(0, legacyMagic), (8, [1]), (9, [0]), (10, [1]), (12, leBytes 4 0o100600), (16, leBytes 4 initUid.toNat),
    (20, leBytes 4 initGid.toNat), (24, leBytes 4 1), (32, [97]), (64, [1])]

/-- A disk with that file only -/
def legacyDisk : Disk := fun lba => if lba = 7 then sealedFields 512 legacyFields else zeros 512

theorem legacyAt_legacyDisk : legacyAt legacyDisk 0 = .ok (some ⟨.file, [97], [1]⟩) := by
  have ha : Ascending (512 - 4) legacyFields := by constructor <;> decide
  let bytes := sealedFields 512 legacyFields
  have hmagic : slice bytes 0 8 = legacyMagic := slice_sealedFields ha (by decide) rfl
  have hname : slice bytes 32 1 = [97] := slice_sealedFields ha (by decide) rfl
  have hdata : slice bytes 64 1 = [1] := slice_sealedFields ha (by decide) rfl
  have hsealed : sealed bytes = true := sealed_sealedFields (by decide)
  have h8 : byteAt bytes 8 = 1 := byteAt_sealedFields ha (by decide)
  have h9 : byteAt bytes 9 = 0 := byteAt_sealedFields ha (by decide)
  have h10 : byteAt bytes 10 = 1 := byteAt_sealedFields ha (by decide)
  have h12 : getU32 bytes 12 = 0o100600 := getU32_sealedFields ha (by decide)
  have h16 : getU32 bytes 16 = initUid := getU32_sealedFields ha (by decide)
  have h20 : getU32 bytes 20 = initGid := getU32_sealedFields ha (by decide)
  have h24 : getU32 bytes 24 = 1 := getU32_sealedFields ha (by decide)
  change decodeLegacy 0 bytes = _
  unfold decodeLegacy
  simp [hmagic, hsealed, h8, h9, h10, h12, h16, h20, h24, hname, hdata]

theorem legacy_legacyDisk : Legacy legacyDisk := by
  have ha : Ascending (512 - 4) legacyFields := by constructor <;> decide
  refine ⟨?_, fun slot hslot => ?_, fun slot hslot => ?_⟩
  · have hmagic : slice (sealedFields 512 legacyFields) 0 8 = legacyMagic := slice_sealedFields ha (by decide) rfl
    have hsector : legacyDisk dynamicAllocationLba = sealedFields 512 legacyFields := if_pos rfl
    rw [bitmapAt, readAllocationBitmap, Disk.reader, hsector, Option.bind_some, decodeBitmap, hmagic, if_neg (by decide)]
  · have hsector : legacyDisk (dynamicInodeLbaBase + slot) = blank.disk (dynamicInodeLbaBase + slot) :=
      if_neg (by omega : 8 + slot ≠ 7)
    exact (inodeAt_congr hsector).trans (fresh_blank.2 slot hslot)
  cases slot with
  | zero => exact ⟨_, legacyAt_legacyDisk⟩
  | succ slot =>
    refine ⟨none, ?_⟩
    have hsector : legacyDisk (legacyDynamicFileLbaBase + (slot + 1)) = zeros 512 := if_neg (by omega : 7 + (slot + 1) ≠ 7)
    have hmagic : slice (zeros 512) 0 8 ≠ legacyMagic := by decide +kernel
    unfold legacyAt readLegacyDynamicFile Disk.reader
    rw [hsector]
    exact if_pos hmagic

/-- The power fails after the last write but one. -/
theorem migration_crash_safe_iff_late :
    let writes := (ensureDynamicArea faithful legacyDisk).writes
    let crashed := legacyDisk.writeAll (writes.take (writes.length - 1))
    Migrated legacyDisk (crashed.writeAll (boot faithful crashed).writes) :=
  ((migration_crash_safe_iff legacy_legacyDisk _).2 (.inr (.inr (by omega)))).2

/-- The power fails after the first write, which is the bitmap. The file is gone. -/
theorem migration_loses_file :
    let crashed := legacyDisk.writeAll ((ensureDynamicArea faithful legacyDisk).writes.take 1)
    legacyAt legacyDisk 0 = .ok (some ⟨.file, [97], [1]⟩) ∧
      fileAt (crashed.writeAll (boot faithful crashed).writes) 0 = .ok none := by
  intro crashed
  obtain ⟨entries, -, hmapped, -, -, hensure⟩ := legacy_legacyDisk.ensure
  have hcrashed : crashed = legacyDisk.write (bitmapWrite 0) := by
    change legacyDisk.writeAll ((ensureDynamicArea faithful legacyDisk).writes.take 1) = _
    rw [hensure]
    rfl
  clear_value crashed
  subst hcrashed
  refine ⟨legacyAt_legacyDisk, ((boot_files (ensure_mapped hmapped.2) hmapped.1).2 0 (by decide)).trans ?_⟩
  exact ((after_bitmapWrite legacyDisk 0).1.file 0 (by decide)).trans
    (fileAt_of_inode (legacy_legacyDisk.inodes 0 (by decide)))

end MakOS.MakFS3
