/-
Power losses during a store. After each write the area is sound, and the file of the slot is the old one until the
inode is written and the new one from then on. The boot then finds the bitmap and makes it exact.
-/
import MakOS.MakFS3.Sound

namespace MakOS.MakFS3

open Bytes Data

variable {disk disk' : Disk} {slot : Nat} {bitmap : Bitmap} {name : List UInt8} {kind : Kind}
  {data : Option (List UInt8)}

/-! ## Writing an inode -/

theorem used_of_inode {inode : Option DynamicInode} (h : inodeAt disk slot = .ok inode) :
    used disk slot = if (inode.getD .empty).active then (inode.getD .empty).blocks else [] := by
  rw [used, h]
  cases inode <;> rfl

theorem mem_used {inode : DynamicInode} {block : Nat} (h : inodeAt disk slot = .ok (some inode))
    (hblock : block ∈ used disk slot) : block ∈ inode.blocks := by
  rw [used_of_inode h] at hblock
  split at hblock
  · exact hblock
  · cases hblock

abbrev inodeWrite (slot : Nat) (inode : DynamicInode) : Write := (dynamicInodeLbaBase + slot, encodeInode slot inode)

section Inode

variable {inode : DynamicInode} {file : Option File}

theorem after_inodeWrite (hvalid : inode.Valid) (hslot : slot < dynamicFileCount)
    (hfile : readInodeFile disk.reader inode = .ok file) :
    inodeAt (disk.write (inodeWrite slot inode)) slot = .ok (some inode) ∧
      fileAt (disk.write (inodeWrite slot inode)) slot = .ok file := by
  have hinode : inodeAt (disk.write (inodeWrite slot inode)) slot = .ok (some inode) := by
    have hsector : disk.write (inodeWrite slot inode) (dynamicInodeLbaBase + slot) = encodeInode slot inode := if_pos rfl
    rw [inodeAt, readDynamicInode, Disk.reader, hsector]
    exact decode_encodeInode hvalid hslot
  refine ⟨hinode, ?_⟩
  rw [inodeAt] at hinode
  rw [fileAt, readDynamicFile, hinode]
  refine (readInodeFile_congr fun _ block _ => congrArg some (if_neg ?_)).trans hfile
  have hslot' : slot < 16 := hslot
  exact (by omega : 32 + block ≠ 8 + slot)

theorem after_inodeWrite_other (inode : DynamicInode) {other : Nat} (hne : other ≠ slot) (hslot : slot < dynamicFileCount) :
    inodeAt (disk.write (inodeWrite slot inode)) other = inodeAt disk other ∧
      fileAt (disk.write (inodeWrite slot inode)) other = fileAt disk other := by
  have hsector : disk.write (inodeWrite slot inode) (dynamicInodeLbaBase + other) = disk (dynamicInodeLbaBase + other) :=
    if_neg (by omega : 8 + other ≠ 8 + slot)
  have hslot' : slot < 16 := hslot
  exact ⟨inodeAt_congr hsector, fileAt_congr hsector fun block _ => if_neg (by omega : 32 + block ≠ 8 + slot)⟩

theorem used_inodeWrite_other (inode : DynamicInode) {other : Nat} (hne : other ≠ slot) (hslot : slot < dynamicFileCount) :
    used (disk.write (inodeWrite slot inode)) other = used disk other := by
  rw [used, (after_inodeWrite_other inode hne hslot).1, used]

theorem bitmapAt_inodeWrite (slot : Nat) (inode : DynamicInode) : bitmapAt (disk.write (inodeWrite slot inode)) = bitmapAt disk :=
  bitmapAt_congr (if_neg (by omega : (7 : Nat) ≠ 8 + slot))

theorem Sound.write_inode (h : Sound disk) (hbitmap : bitmapAt disk = some bitmap) (hvalid : inode.Valid)
    (hslot : slot < dynamicFileCount) (hfile : readInodeFile disk.reader inode = .ok file)
    (hmarked : ∀ block ∈ inode.blocks, bitmap.getLsbD block = true)
    (hfree : ∀ block ∈ inode.blocks, ∀ other < dynamicFileCount, other ≠ slot → block ∉ used disk other) :
    Sound (disk.write (inodeWrite slot inode)) := by
  obtain ⟨hinode, hread⟩ := after_inodeWrite hvalid hslot hfile
  have hother := @after_inodeWrite_other disk slot inode
  have hkept := (bitmapAt_inodeWrite slot inode).trans hbitmap
  have hold := @used_inodeWrite_other disk slot inode
  generalize disk.write (inodeWrite slot inode) = disk' at *
  refine ⟨fun other hlt => ?_, fun other hlt => ?_, fun a ha b hb hne block hblock => ?_, fun found hfound other hlt block hblock => ?_,
    fun hnone => ?_⟩
  · by_cases heq : other = slot
    · exact heq ▸ ⟨_, hinode⟩
    · rw [(hother heq hslot).1]
      exact h.inode other hlt
  · by_cases heq : other = slot
    · exact heq ▸ ⟨_, hread⟩
    · rw [(hother heq hslot).2]
      exact h.file other hlt
  · by_cases heqa : a = slot
    · subst heqa
      rw [hold (Ne.symm hne) hslot]
      exact hfree block (mem_used hinode hblock) b hb (Ne.symm hne)
    rw [hold heqa hslot] at hblock
    by_cases heqb : b = slot
    · subst heqb
      exact fun hblock' => hfree block (mem_used hinode hblock') a ha hne hblock
    · rw [hold heqb hslot]
      exact h.apart a ha b hb hne block hblock
  · obtain rfl := Option.some.inj (hkept.symm.trans hfound)
    by_cases heq : other = slot
    · subst heq
      exact hmarked block (mem_used hinode hblock)
    · rw [hold heq hslot] at hblock
      exact h.covered _ hbitmap other hlt block hblock
  · rw [hkept] at hnone
    cases hnone

end Inode

/-! ## Storing a node -/

/-- What a slot reads as after the store -/
def newFile (name : List UInt8) (kind : Kind) (data : Option (List UInt8)) : Option File :=
  data.map fun bytes => ⟨kind, name, bytes⟩

/-- Between two writes of a store, and after it -/
structure Between (disk : Disk) (slot : Nat) (file : Option File) (disk' : Disk) : Prop where
  sound : Sound disk'
  mapped : bitmapAt disk' ≠ none
  stored : fileAt disk' slot = fileAt disk slot ∨ fileAt disk' slot = .ok file
  others : ∀ other < dynamicFileCount, other ≠ slot → fileAt disk' other = fileAt disk other

theorem accepts_iff : accepts slot name kind data = true ↔ slot < 16 ∧ name ≠ [] ∧ name.length ≤ 32 ∧
    (kind = .directory → (data.getD []).length = 0) ∧ (data.getD []).length ≤ 2048 := by
  unfold accepts
  cases data with
  | none => simp [and_assoc]
  | some bytes => simp [and_assoc, imp_iff_not_or]

variable {blocks : List Nat}

theorem valid_nodeInode (h : accepts slot name kind data = true)
    (hcount : blocks.length = ((data.getD []).length + 511) / 512)
    (hblocks : ∀ block ∈ blocks, block < dynamicDataBlockCount) (hnodup : blocks.Nodup) :
    (nodeInode name kind data blocks).Valid := by
  obtain ⟨-, hnamed, hname, hdirectory, hlength⟩ := accepts_iff.1 h
  refine ⟨hname, fun _ => hnamed, hlength, hcount, hdirectory, fun hinactive => ?_, hblocks, hnodup⟩
  cases data with
  | none => rfl
  | some bytes => cases hinactive

variable {read : Reader}

theorem readInodeFile_node (h : readBlocks read (data.getD []).length blocks [] = .ok (data.getD [])) :
    readInodeFile read (nodeInode name kind data blocks) = .ok (newFile name kind data) := by
  cases data with
  | none => rfl
  | some bytes =>
    unfold readInodeFile nodeInode
    rw [Option.getD_some] at h ⊢
    simp [h, newFile]

theorem Sound.between (h : Sound disk) {file : Option File} (hsame : Same disk disk')
    (hbitmap : bitmapAt disk' = some bitmap)
    (hcovers : ∀ slot < dynamicFileCount, ∀ block ∈ used disk slot, bitmap.getLsbD block = true)
    (hslot : slot < dynamicFileCount) : Between disk slot file disk' :=
  ⟨h.of_same hsame hbitmap hcovers, by simp [hbitmap], .inl (hsame.file slot hslot),
    fun other hother _ => hsame.file other hother⟩

section Blocks

variable {freed : List Nat} (h : Sound disk) (hbitmap : bitmapAt disk = some bitmap)
  (hblocks : ∀ block ∈ blocks, block < dynamicDataBlockCount ∧ bitmap.getLsbD block = false)

include h hbitmap hblocks

theorem Sound.unused_of_free : ∀ block ∈ blocks, ∀ other < dynamicFileCount, block ∉ used disk other := by
  intro block hblock other hother hused
  have hset := h.covered bitmap hbitmap other hother block hused
  rw [(hblocks block hblock).2] at hset
  cases hset

/-- The data goes to free blocks, and the bitmap then has them. -/
theorem Sound.between_marked (bytes : List UInt8) (file : Option File) (hslot : slot < dynamicFileCount) :
    Throughout (fun disk' => Same disk disk' ∧ Between disk slot file disk') disk
      (dataWrites blocks bytes ++ [bitmapWrite (markAll bitmap blocks)]) := by
  have hcovers := h.covered bitmap hbitmap
  have hdata : Throughout (fun disk' => Same disk disk' ∧ Between disk slot file disk') disk (dataWrites blocks bytes) :=
    (throughout_dataWrites bytes (h.unused_of_free hbitmap hblocks)).mono fun disk' hdisk' =>
      ⟨hdisk'.1, h.between hdisk'.1 (hdisk'.2.trans hbitmap) hcovers hslot⟩
  obtain ⟨hsame, hbitmap'⟩ := after_bitmapWrite (disk.writeAll (dataWrites blocks bytes)) (markAll bitmap blocks)
  refine hdata.append (.cons hdata.done (.nil ⟨hdata.done.1.trans hsame, h.between (hdata.done.1.trans hsame) hbitmap' ?_ hslot⟩))
  exact fun other hother block hblock =>
    (getLsbD_markAll (fun block hblock => (hblocks block hblock).1) block).2 (.inl (hcovers other hother block hblock))

variable (haccepts : accepts slot name kind data = true) (hcount : blocks.length = ((data.getD []).length + 511) / 512)
  (hnodup : blocks.Nodup)

include haccepts hcount hnodup

/-- The writes of a store, given free blocks for the data and blocks of the old file to free. The inode is the last
write but one. -/
theorem Sound.store_blocks (hfreed : ∀ block ∈ freed, block ∈ used disk slot) (count : Nat) :
    let marking := dataWrites blocks (data.getD []) ++ [bitmapWrite (markAll bitmap blocks)]
    let requests := marking ++ [inodeWrite slot (nodeInode name kind data blocks), bitmapWrite (clearAll (markAll bitmap blocks) freed)]
    Between disk slot (newFile name kind data) (disk.writeAll (requests.take count)) ∧
      fileAt (disk.writeAll (requests.take count)) slot =
        if count + 1 < requests.length then fileAt disk slot else .ok (newFile name kind data) := by
  have hslot : slot < dynamicFileCount := (accepts_iff.1 haccepts).1
  have hfree := h.unused_of_free hbitmap hblocks
  have hmarked := @getLsbD_markAll bitmap blocks fun block hblock => (hblocks block hblock).1
  have hvalid := valid_nodeInode haccepts hcount (fun block hblock => (hblocks block hblock).1) hnodup
  have hfront := h.between_marked hbitmap hblocks (data.getD []) (newFile name kind data) hslot
  intro marking requests
  have hmarks : disk.writeAll marking = (disk.writeAll (dataWrites blocks (data.getD []))).write
      (bitmapWrite (markAll bitmap blocks)) := List.foldl_append
  have hlast : bitmapAt (disk.writeAll marking) = some (markAll bitmap blocks) := hmarks ▸ (after_bitmapWrite _ _).2
  have hfile : readInodeFile (disk.writeAll marking).reader (nodeInode name kind data blocks) = .ok (newFile name kind data) := by
    have hread := @readBlocks_dataWrites disk blocks (data.getD []) hnodup (by omega) []
    rw [List.length_nil, Nat.zero_add] at hread
    rw [hmarks]
    exact readInodeFile_node ((readBlocks_congr (fun block _ => congrArg some (if_neg (by omega : 32 + block ≠ 7))) []).trans hread)
  obtain ⟨hsame, hbetween⟩ := hfront.done
  have hlength : requests.length = marking.length + 2 := List.length_append
  rcases writeAll_take_append disk marking [inodeWrite slot (nodeInode name kind data blocks),
    bitmapWrite (clearAll (markAll bitmap blocks) freed)] count with ⟨hle, hdisk⟩ | ⟨left, rfl, hdisk⟩
  · rw [hdisk, if_pos (by omega)]
    exact ⟨(hfront count).2, (hfront count).1.file slot hslot⟩
  rw [hdisk, if_neg (by omega)]
  generalize disk.writeAll marking = marked at *
  generalize hnode : nodeInode name kind data blocks = inode at *
  obtain rfl : inode.blocks = blocks := hnode ▸ rfl
  -- the inode
  obtain ⟨hinode, hnew⟩ := after_inodeWrite hvalid hslot hfile
  have hother := @after_inodeWrite_other marked slot inode
  have hstored : Between disk slot (newFile name kind data) (marked.write (inodeWrite slot inode)) := by
    refine ⟨hbetween.sound.write_inode hlast hvalid hslot hfile
      (fun block hblock => (hmarked block).2 (.inr hblock)) (fun block hblock other hlt _ => ?_), ?_, .inr hnew,
      fun other hlt hne => (hother hne hslot).2.trans (hsame.file other hlt)⟩
    · rw [hsame.used hlt]
      exact hfree block hblock other hlt
    · rw [bitmapAt_inodeWrite, hlast]
      exact Option.some_ne_none _
  rcases left with _ | left
  · exact ⟨hstored, hnew⟩
  rw [List.take_of_length_le (by simp)]
  -- the bitmap without blocks of the old file
  obtain ⟨hfinal, hfinalBitmap⟩ := after_bitmapWrite (marked.write (inodeWrite slot inode))
    (clearAll (markAll bitmap inode.blocks) freed)
  have hread' := (hfinal.file slot hslot).trans hnew
  refine ⟨⟨hstored.sound.of_same hfinal hfinalBitmap fun other hlt block hblock => ?_,
    Option.ne_none_iff_exists'.2 ⟨_, hfinalBitmap⟩, .inr hread',
    fun other hlt hne => (hfinal.file other hlt).trans (hstored.others other hlt hne)⟩, hread'⟩
  rw [getLsbD_clearAll]
  by_cases heq : other = slot
  · subst heq
    exact ⟨(hmarked block).2 (.inr (mem_used hinode hblock)),
      fun hmem => hfree block (mem_used hinode hblock) other hslot (hfreed block hmem)⟩
  · rw [used_inodeWrite_other inode heq hslot, hsame.used hlt] at hblock
    exact ⟨(hmarked block).2 (.inl (h.covered bitmap hbitmap other hlt block hblock)),
      fun hmem => h.apart other hlt slot hslot heq block hblock (hfreed block hmem)⟩

end Blocks

/-! ## Readers that may fail -/

/-- What is read is on the disk. -/
def Truthful (disk : Disk) (read : Reader) : Prop := ∀ lba sector, read lba = some sector → sector = disk lba

theorem truthful_reader (disk : Disk) : Truthful disk disk.reader := fun _ _ h => (Option.some.inj h).symm

theorem Truthful.mapped (h : Truthful disk read) (hread : readAllocationBitmap read = some bitmap) :
    bitmapAt disk = some bitmap := by
  obtain ⟨record, hrecord, hbitmap⟩ := Option.bind_eq_some_iff.1 hread
  rw [h _ _ hrecord] at hbitmap
  exact hbitmap

theorem Truthful.inode (h : Truthful disk read) (slot : Nat) :
    readDynamicInode read slot = .ok none ∨ readDynamicInode read slot = inodeAt disk slot := by
  unfold inodeAt readDynamicInode
  cases hrecord : read (dynamicInodeLbaBase + slot) with
  | none => exact .inl rfl
  | some record => rw [h _ _ hrecord]; exact .inr rfl

/-- A store in a slot without an inode -/
theorem storeDynamicNodeOnDisk_fresh (name : List UInt8) (kind : Kind)
    (data : Option (List UInt8)) (hbitmap : readAllocationBitmap read = some bitmap)
    (hinode : readDynamicInode read slot = .ok none) (hblocks : freeBlocks bitmap (((data.getD []).length + 511) / 512) = blocks)
    (hfound : blocks.length = ((data.getD []).length + 511) / 512) :
    storeDynamicNodeOnDisk read slot name kind data = ⟨dataWrites blocks (data.getD []) ++ [bitmapWrite (markAll bitmap blocks),
      inodeWrite slot (nodeInode name kind data blocks), bitmapWrite (markAll bitmap blocks)],
      .ok true⟩ := by
  unfold storeDynamicNodeOnDisk
  simp only [hbitmap, hinode, hblocks]
  exact if_neg (not_not.2 hfound)

/-- A store in an area with a bitmap: before its last write but one the slot is as it was, and from then on it has the
new file. -/
theorem Sound.store (h : Sound disk) (hmapped : bitmapAt disk ≠ none) (hread : Truthful disk read)
    (haccepts : accepts slot name kind data = true) (count : Nat) : let stored := storeDynamicNodeOnDisk read slot name kind data
    Between disk slot (newFile name kind data) (disk.writeAll (stored.writes.take count)) ∧
      fileAt (disk.writeAll (stored.writes.take count)) slot = if stored.result = .ok true → count + 1 < stored.writes.length
        then fileAt disk slot else .ok (newFile name kind data) := by
  have hslot : slot < dynamicFileCount := (accepts_iff.1 haccepts).1
  obtain ⟨bitmap₀, hbitmap₀⟩ := Option.ne_none_iff_exists'.1 hmapped
  have hnothing : Between disk slot (newFile name kind data) (disk.writeAll (List.take count [])) ∧
      fileAt (disk.writeAll (List.take count [])) slot = fileAt disk slot := by
    rw [List.take_nil]
    exact ⟨h.between (.refl disk) hbitmap₀ (h.covered bitmap₀ hbitmap₀) hslot, rfl⟩
  unfold storeDynamicNodeOnDisk
  split
  · simpa using hnothing
  rename_i bitmap hbitmap
  split
  · simpa using hnothing
  rename_i old hold
  dsimp only
  split
  · simpa using hnothing
  rename_i hfound
  -- an inode that could not be read frees nothing
  obtain ⟨freed, hsub, hcleared⟩ : ∃ freed : List Nat, (∀ block ∈ freed, block ∈ used disk slot) ∧ ∀ marked,
      (if (old.getD .empty).active then clearAll marked (old.getD .empty).blocks else marked) = clearAll marked freed := by
    rcases hread.inode slot with hnone | hsame
    · rw [hnone] at hold
      cases hold
      exact ⟨[], fun _ hblock => (by cases hblock), fun _ => rfl⟩
    · refine ⟨used disk slot, fun _ hblock => hblock, fun marked => ?_⟩
      rw [used_of_inode (hsame.symm.trans hold)]
      split <;> rfl
  rw [hcleared]
  have hstore := h.store_blocks (hread.mapped hbitmap) (fun _ hblock => mem_freeBlocks hblock) haccepts (not_not.1 hfound)
    ((List.nodup_range.filter _).sublist (List.take_sublist ..)) hsub count
  simpa using hstore

end MakOS.MakFS3
