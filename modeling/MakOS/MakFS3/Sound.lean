/-
What every store keeps, after each of its writes: every record can be read, no block is in two files, and the bitmap
has the blocks of all files. What a file reads as depends on its inode and its blocks alone, so writing a free block,
or the bitmap, changes no file.
-/
import MakOS.Data.Bits
import MakOS.MakFS3.Area

namespace MakOS.MakFS3

open Bytes Data

variable {disk disk' : Disk} {slot : Nat} {bitmap : Bitmap}

/-! ## Disks -/

/-- The disk after some of the first writes, or after all of them and some of the others -/
theorem writeAll_take_append (disk : Disk) (first rest : List Write) (count : Nat) :
    (count ≤ first.length ∧ disk.writeAll ((first ++ rest).take count) = disk.writeAll (first.take count)) ∨
    ∃ left, count = first.length + (left + 1) ∧
      disk.writeAll ((first ++ rest).take count) = (disk.writeAll first).writeAll (rest.take (left + 1)) := by
  rw [List.take_append]
  rcases Nat.lt_or_ge first.length count with hlt | hle
  · obtain ⟨left, rfl⟩ := Nat.exists_eq_add_of_lt hlt
    refine .inr ⟨left, rfl, ?_⟩
    rw [List.take_of_length_le (by omega), Nat.add_assoc, Nat.add_sub_cancel_left, Disk.writeAll, List.foldl_append]
    rfl
  · exact .inl ⟨hle, by rw [Nat.sub_eq_zero_of_le hle, List.take_zero, List.append_nil]⟩

/-- A property of the disk after each number of some writes -/
def Throughout (P : Disk → Prop) (disk : Disk) (requests : List Write) : Prop :=
  ∀ count, P (disk.writeAll (requests.take count))

namespace Throughout

variable {P Q : Disk → Prop} {requests requests' : List Write}

theorem nil (h : P disk) : Throughout P disk [] := by
  intro count
  rw [List.take_nil]
  exact h

theorem cons {request : Write} (h : P disk) (hrest : Throughout P (disk.write request) requests) :
    Throughout P disk (request :: requests) := by
  intro count
  cases count with
  | zero => exact h
  | succ count => exact hrest count

theorem done (h : Throughout P disk requests) : P (disk.writeAll requests) := by
  have hall := h requests.length
  rwa [List.take_length] at hall

theorem append (h : Throughout P disk requests) (h' : Throughout P (disk.writeAll requests) requests') :
    Throughout P disk (requests ++ requests') := by
  intro count
  rcases writeAll_take_append disk requests requests' count with ⟨-, hdisk⟩ | ⟨left, -, hdisk⟩
  · exact hdisk ▸ h count
  · exact hdisk ▸ h' (left + 1)

theorem mono (h : Throughout P disk requests) (hPQ : ∀ disk, P disk → Q disk) : Throughout Q disk requests :=
  fun count => hPQ _ (h count)

end Throughout

theorem writeAll_of_not_mem {requests : List Write} {lba : Nat} (h : ∀ request ∈ requests, request.1 ≠ lba) :
    disk.writeAll requests lba = disk lba := by
  induction requests generalizing disk with
  | nil => rfl
  | cons request requests ih =>
    refine (ih (List.forall_mem_cons.1 h).2).trans ?_
    exact if_neg fun heq => h request List.mem_cons_self heq.symm

/-! ## Files and their blocks -/

def inodeAt (disk : Disk) (slot : Nat) : Except Fatal (Option DynamicInode) := readDynamicInode disk.reader slot

def fileAt (disk : Disk) (slot : Nat) : Except Fatal (Option File) := readDynamicFile disk.reader slot

def bitmapAt (disk : Disk) : Option Bitmap := readAllocationBitmap disk.reader

def used (disk : Disk) (slot : Nat) : List Nat :=
  match inodeAt disk slot with
  | .ok (some inode) => if inode.active then inode.blocks else []
  | _ => []

variable {read read' : Reader} {blocks : List Nat}

theorem readBlocks_congr {length : Nat}
    (h : ∀ block ∈ blocks, read' (dynamicDataLbaBase + block) = read (dynamicDataLbaBase + block)) (data : List UInt8) :
    readBlocks read' length blocks data = readBlocks read length blocks data := by
  induction blocks generalizing data with
  | nil => rfl
  | cons block blocks ih =>
    rw [readBlocks, readBlocks, h block List.mem_cons_self]
    split
    · rfl
    · exact ih (List.forall_mem_cons.1 h).2 _

theorem inodeAt_congr (h : disk' (dynamicInodeLbaBase + slot) = disk (dynamicInodeLbaBase + slot)) :
    inodeAt disk' slot = inodeAt disk slot := by
  unfold inodeAt readDynamicInode Disk.reader
  rw [h]

theorem readInodeFile_congr {inode : DynamicInode} (h : inode.active = true →
      ∀ block ∈ inode.blocks, read' (dynamicDataLbaBase + block) = read (dynamicDataLbaBase + block)) :
    readInodeFile read' inode = readInodeFile read inode := by
  unfold readInodeFile
  split
  · rfl
  · rename_i hactive
    rw [readBlocks_congr (h (by simpa using hactive))]

theorem fileAt_congr (hinode : disk' (dynamicInodeLbaBase + slot) = disk (dynamicInodeLbaBase + slot))
    (hdata : ∀ block ∈ used disk slot, disk' (dynamicDataLbaBase + block) = disk (dynamicDataLbaBase + block)) :
    fileAt disk' slot = fileAt disk slot := by
  have hsame : readDynamicInode disk'.reader slot = readDynamicInode disk.reader slot := inodeAt_congr hinode
  unfold fileAt readDynamicFile
  rw [hsame]
  split
  · rfl
  · rfl
  rename_i inode hread
  refine readInodeFile_congr fun hactive block hblock => congrArg some (hdata block ?_)
  rw [used, inodeAt, hread]
  dsimp only
  rwa [if_pos hactive]

/-- No record and no file has changed. -/
structure Same (disk disk' : Disk) : Prop where
  inode : ∀ slot < dynamicFileCount, inodeAt disk' slot = inodeAt disk slot
  file : ∀ slot < dynamicFileCount, fileAt disk' slot = fileAt disk slot

theorem Same.refl (disk : Disk) : Same disk disk := ⟨fun _ _ => rfl, fun _ _ => rfl⟩

theorem Same.trans {disk'' : Disk} (h : Same disk disk') (h' : Same disk' disk'') : Same disk disk'' :=
  ⟨fun slot hslot => (h'.inode slot hslot).trans (h.inode slot hslot),
    fun slot hslot => (h'.file slot hslot).trans (h.file slot hslot)⟩

theorem Same.used (h : Same disk disk') (hslot : slot < dynamicFileCount) : used disk' slot = used disk slot := by
  unfold MakFS3.used
  rw [h.inode slot hslot]

/-- Writes outside the records and the blocks of the files -/
theorem same_of_agree (hinode : ∀ slot < dynamicFileCount,
      disk' (dynamicInodeLbaBase + slot) = disk (dynamicInodeLbaBase + slot))
    (hdata : ∀ slot < dynamicFileCount, ∀ block ∈ used disk slot,
      disk' (dynamicDataLbaBase + block) = disk (dynamicDataLbaBase + block)) : Same disk disk' :=
  ⟨fun slot hslot => inodeAt_congr (hinode slot hslot), fun slot hslot => fileAt_congr (hinode slot hslot) (hdata slot hslot)⟩

theorem bitmapAt_congr (h : disk' dynamicAllocationLba = disk dynamicAllocationLba) : bitmapAt disk' = bitmapAt disk := by
  unfold bitmapAt readAllocationBitmap Disk.reader
  rw [h]

theorem after_bitmapWrite (disk : Disk) (bitmap : Bitmap) :
    Same disk (disk.write (bitmapWrite bitmap)) ∧ bitmapAt (disk.write (bitmapWrite bitmap)) = some bitmap := by
  constructor
  · refine same_of_agree (fun slot hslot => if_neg ?_) fun slot hslot block hblock => if_neg ?_
    · exact (by omega : 8 + slot ≠ 7)
    · exact (by omega : 32 + block ≠ 7)
  · have hsector : disk.write (bitmapWrite bitmap) dynamicAllocationLba = encodeBitmap bitmap := if_pos rfl
    rw [bitmapAt, readAllocationBitmap, Disk.reader, hsector, Option.bind_some, decode_encodeBitmap]

variable {block : Nat}

theorem after_dataWrite (sector : Sector) (h : ∀ slot < dynamicFileCount, block ∉ used disk slot) :
    Same disk (disk.write (dynamicDataLbaBase + block, sector)) ∧
      bitmapAt (disk.write (dynamicDataLbaBase + block, sector)) = bitmapAt disk := by
  constructor
  · refine same_of_agree (fun slot hslot => if_neg ?_) fun slot hslot other hother => if_neg ?_
    · have hslot' : slot < 16 := hslot
      exact (by omega : 8 + slot ≠ 32 + block)
    · intro heq
      obtain rfl : other = block := Nat.add_left_cancel heq
      exact h slot hslot hother
  · exact bitmapAt_congr (if_neg (by omega : (7 : Nat) ≠ 32 + block))

/-! ## The data of a new file -/

theorem throughout_dataWrites (bytes : List UInt8)
    (h : ∀ block ∈ blocks, ∀ slot < dynamicFileCount, block ∉ used disk slot) :
    Throughout (fun disk' => Same disk disk' ∧ bitmapAt disk' = bitmapAt disk) disk (dataWrites blocks bytes) := by
  induction blocks generalizing bytes disk with
  | nil => exact .nil ⟨.refl disk, rfl⟩
  | cons block blocks ih =>
    obtain ⟨hsame, hbitmap⟩ := after_dataWrite (put (zeros 512) 0 (bytes.take 512)) (h block List.mem_cons_self)
    refine .cons ⟨.refl disk, rfl⟩ ((ih (bytes.drop 512) fun other hother slot hslot => ?_).mono ?_)
    · rw [hsame.used hslot]
      exact h other (List.mem_cons_of_mem _ hother) slot hslot
    · rintro disk' ⟨hsame', hbitmap'⟩
      exact ⟨hsame.trans hsame', hbitmap'.trans hbitmap⟩

theorem mem_dataWrites {bytes : List UInt8} {request : Write}
    (h : request ∈ dataWrites blocks bytes) : ∃ block ∈ blocks, request.1 = dynamicDataLbaBase + block := by
  induction blocks generalizing bytes with
  | nil => cases h
  | cons block blocks ih =>
    rcases List.mem_cons.1 h with rfl | hrest
    · exact ⟨block, List.mem_cons_self .., rfl⟩
    · obtain ⟨other, hother, heq⟩ := ih hrest
      exact ⟨other, List.mem_cons_of_mem _ hother, heq⟩

/-- A sector has the bytes of its part of the file. -/
theorem take_sector (bytes : List UInt8) :
    (put (zeros 512) 0 (bytes.take 512)).toList.take bytes.length = bytes.take 512 := by
  have hslice := slice_put_self (zeros 512) 0 (bytes.take 512).length (bytes.take 512) rfl (by simp)
  rw [Bytes.slice, List.drop_zero] at hslice
  refine Eq.trans ?_ hslice
  rw [List.take_eq_take_iff, Vector.length_toList, List.length_take]
  omega

theorem readBlocks_dataWrites {blocks : List Nat} {bytes : List UInt8} (hnodup : blocks.Nodup)
    (hlength : bytes.length ≤ 512 * blocks.length) (data : List UInt8) :
    readBlocks (disk.writeAll (dataWrites blocks bytes)).reader (data.length + bytes.length) blocks data =
      .ok (data ++ bytes) := by
  induction blocks generalizing disk bytes data with
  | nil =>
    have hnil : bytes = [] := List.length_eq_zero_iff.1 (Nat.le_zero.1 hlength)
    rw [hnil, List.append_nil]
    rfl
  | cons block blocks ih =>
    rw [List.nodup_cons] at hnodup
    -- no later block is this one
    have hlater : ∀ request ∈ dataWrites blocks (bytes.drop 512), request.1 ≠ dynamicDataLbaBase + block := by
      intro request hrequest heq
      obtain ⟨other, hother, hlba⟩ := mem_dataWrites hrequest
      obtain rfl : other = block := Nat.add_left_cancel (hlba.symm.trans heq)
      exact hnodup.1 hother
    have hfirst : disk.write (dynamicDataLbaBase + block, put (zeros 512) 0 (bytes.take 512)) (dynamicDataLbaBase + block) =
        put (zeros 512) 0 (bytes.take 512) := if_pos rfl
    have hsector : (disk.writeAll (dataWrites (block :: blocks) bytes)).reader (dynamicDataLbaBase + block) =
        some (put (zeros 512) 0 (bytes.take 512)) := congrArg some ((writeAll_of_not_mem hlater).trans hfirst)
    rw [readBlocks, hsector]
    dsimp only
    rw [Nat.add_sub_cancel_left, take_sector]
    have hsplit : data.length + bytes.length = (data ++ bytes.take 512).length + (bytes.drop 512).length := by
      rw [List.length_append, List.length_take, List.length_drop]
      omega
    have hfits : (bytes.drop 512).length ≤ 512 * blocks.length := by
      rw [List.length_drop]
      rw [List.length_cons] at hlength
      omega
    rw [hsplit]
    refine Eq.trans (ih hnodup.2 hfits (data ++ bytes.take 512)) ?_
    rw [List.append_assoc, List.take_append_drop]

/-! ## Bitmaps -/

theorem getLsbD_markAll {blocks : List Nat} (h : ∀ block ∈ blocks, block < dynamicDataBlockCount) (i : Nat) :
    (markAll bitmap blocks).getLsbD i = true ↔ bitmap.getLsbD i = true ∨ i ∈ blocks := by
  induction blocks generalizing bitmap with
  | nil => simp [markAll]
  | cons block blocks ih =>
    refine (ih (List.forall_mem_cons.1 h).2).trans ?_
    rw [getLsbD_or_twoPow (h block List.mem_cons_self), Bool.or_eq_true, decide_eq_true_eq, List.mem_cons, or_assoc]

theorem getLsbD_clearAll (i : Nat) :
    (clearAll bitmap blocks).getLsbD i = true ↔ bitmap.getLsbD i = true ∧ i ∉ blocks := by
  induction blocks generalizing bitmap with
  | nil => simp [clearAll]
  | cons block blocks ih =>
    refine ih.trans ?_
    rw [getLsbD_and_not_twoPow, Bool.and_eq_true, decide_eq_true_eq, List.mem_cons, not_or, and_assoc]

theorem mem_freeBlocks {required : Nat} (h : block ∈ freeBlocks bitmap required) :
    block < dynamicDataBlockCount ∧ bitmap.getLsbD block = false := by
  have hfilter := List.mem_filter.1 (List.mem_of_mem_take h)
  exact ⟨List.mem_range.1 hfilter.1, by simpa using hfilter.2⟩

/-! ## Sound areas -/

structure Sound (disk : Disk) : Prop where
  inode : ∀ slot < dynamicFileCount, ∃ inode, inodeAt disk slot = .ok inode
  file : ∀ slot < dynamicFileCount, ∃ file, fileAt disk slot = .ok file
  apart : ∀ a < dynamicFileCount, ∀ b < dynamicFileCount, a ≠ b → ∀ block ∈ used disk a, block ∉ used disk b
  covered : ∀ bitmap, bitmapAt disk = some bitmap → ∀ slot < dynamicFileCount, ∀ block ∈ used disk slot,
    bitmap.getLsbD block = true
  mapped : bitmapAt disk = none → ∀ slot < dynamicFileCount, inodeAt disk slot = .ok none

/-- A change of the bitmap only -/
theorem Sound.of_same (h : Sound disk) (hsame : Same disk disk') (hbitmap : bitmapAt disk' = some bitmap)
    (hcovers : ∀ slot < dynamicFileCount, ∀ block ∈ used disk slot, bitmap.getLsbD block = true) : Sound disk' where
  inode := fun slot hslot => by rw [hsame.inode slot hslot]; exact h.inode slot hslot
  file := fun slot hslot => by rw [hsame.file slot hslot]; exact h.file slot hslot
  apart := fun a ha b hb hne => by rw [hsame.used ha, hsame.used hb]; exact h.apart a ha b hb hne
  covered := fun other hother slot hslot => by
    obtain rfl := Option.some.inj (hbitmap.symm.trans hother)
    rw [hsame.used hslot]
    exact hcovers slot hslot
  mapped := fun hnone => by rw [hbitmap] at hnone; cases hnone

theorem Sound.remapped (h : Sound disk)
    (hcovers : ∀ slot < dynamicFileCount, ∀ block ∈ used disk slot, bitmap.getLsbD block = true) :
    Sound (disk.write (bitmapWrite bitmap)) :=
  h.of_same (after_bitmapWrite disk bitmap).1 (after_bitmapWrite disk bitmap).2 hcovers

theorem used_blocks (disk : Disk) (slot : Nat) :
    (∀ block ∈ used disk slot, block < dynamicDataBlockCount) ∧ (used disk slot).Nodup := by
  unfold used
  split
  · rename_i inode hread
    split
    · exact decodeInode_blocks hread
    · simp
  · simp

end MakOS.MakFS3
