/-
Runs of stores and loads in which any read may fail. A failed read of an inode or of a data block costs at most
blocks that stay marked. A failed read of the bitmap at the start of a store is taken for an area without a bitmap:
all blocks are marked free, and the store then writes over the data of other files.
-/
import MakOS.Data.Guarded
import MakOS.MakFS3.Boot

namespace MakOS.MakFS3

open Bytes Data

variable {disk : Disk} {read : Reader} {slot : Nat} {name : List UInt8} {kind : Kind} {data : Option (List UInt8)}

/-! ## Calls -/

/-- The answers when some reads fail: each part of a call reads a sector once. -/
def answers (fails : Nat → Nat → Bool) : Answers := fun part disk lba => if fails part lba then none else some (disk lba)

inductive Access
  | store (slot : Nat) (name : List UInt8) (kind : Kind) (data : Option (List UInt8)) (fails : Nat → Nat → Bool)
  | load (slot : Nat) (fails : Nat → Nat → Bool)

/-- The disk while the kernel runs, and the file of each slot as the last acknowledged store has it -/
structure Area where
  disk : Disk
  running : Bool
  acknowledged : Nat → Option File

namespace Area

def store (area : Area) (slot : Nat) (name : List UInt8) (kind : Kind) (data : Option (List UInt8)) (ask : Answers) : Area :=
  let stored := storeDynamicNode ask area.disk slot name kind data
  ⟨area.disk.writeAll stored.writes, stored.result.isOk,
    if stored.result = .ok true then Function.update area.acknowledged slot (newFile name kind data) else area.acknowledged⟩

/-- Nothing runs after a fatal error. -/
def step (area : Area) (access : Access) : Area :=
  if !area.running then area
  else match access with
    | .store slot name kind data fails => area.store slot name kind data (answers fails)
    | .load slot fails => { area with running := (readDynamicFile (answers fails 0 area.disk) slot).isOk }

def run (area : Area) (accesses : List Access) : Area := accesses.foldl step area

/-- Every slot has the file that was acknowledged, its blocks are marked, and no load returns another file. -/
structure Intact (area : Area) : Prop where
  mapped : Mapped area.disk
  content : ∀ slot < dynamicFileCount, fileAt area.disk slot = .ok (area.acknowledged slot)
  loaded : ∀ slot < dynamicFileCount, ∀ fails file,
    readDynamicFile (answers fails 0 area.disk) slot = .ok (some file) → area.acknowledged slot = some file

/-- The bitmap can be read at the start of a store. -/
def Admits (_ : Area) : Access → Prop
  | .store _ _ _ _ fails => fails 0 dynamicAllocationLba = false
  | .load _ _ => True

instance decidableAdmits (area : Area) : ∀ access, Decidable (area.Admits access)
  | .store _ _ _ _ _ => inferInstanceAs (Decidable (_ = _))
  | .load _ _ => inferInstanceAs (Decidable True)

end Area

/-! ## Reads that fail -/

theorem truthful_answers (fails : Nat → Nat → Bool) (part : Nat) (disk : Disk) : Truthful disk (answers fails part disk) := by
  intro lba sector h
  unfold answers at h
  split at h
  · cases h
  · exact (Option.some.inj h).symm

theorem Truthful.readBlocks (h : Truthful disk read) {length : Nat} {blocks : List Nat} {bytes : List UInt8}
    (sofar : List UInt8) (hread : readBlocks read length blocks sofar = .ok bytes) :
    MakFS3.readBlocks disk.reader length blocks sofar = .ok bytes := by
  induction blocks generalizing sofar with
  | nil => exact hread
  | cons block blocks ih =>
    rw [MakFS3.readBlocks] at hread ⊢
    split at hread
    · cases hread
    · rename_i sector hsector
      rw [h _ _ hsector] at hread
      exact ih _ hread

/-- A file that is read is the one on the disk. -/
theorem Truthful.readDynamicFile (h : Truthful disk read) {file : File} (hread : readDynamicFile read slot = .ok (some file)) :
    fileAt disk slot = .ok (some file) := by
  unfold MakFS3.readDynamicFile at hread
  split at hread
  · cases hread
  · cases hread
  rename_i inode hinode
  have hsame : readDynamicInode disk.reader slot = .ok (some inode) := by
    rcases h.inode slot with hnone | heq
    · rw [hnone] at hinode
      cases hinode
    · exact heq.symm.trans hinode
  rw [fileAt, MakFS3.readDynamicFile, hsame]
  dsimp only
  unfold readInodeFile at hread ⊢
  split at hread
  · cases hread
  rename_i hactive
  rw [if_neg hactive]
  split at hread
  · cases hread
  · rename_i bytes hbytes
    rw [h.readBlocks [] hbytes]
    exact hread

namespace Area

variable {area : Area}

theorem intact_of_content (hmapped : Mapped area.disk)
    (hcontent : ∀ slot < dynamicFileCount, fileAt area.disk slot = .ok (area.acknowledged slot)) : area.Intact := by
  refine ⟨hmapped, hcontent, fun slot hslot fails file hread => ?_⟩
  have hfile := (truthful_answers fails 0 area.disk).readDynamicFile hread
  exact Except.ok.inj ((hcontent slot hslot).symm.trans hfile)

theorem Intact.store {fails : Nat → Nat → Bool} (h : area.Intact) (hbitmap : fails 0 dynamicAllocationLba = false) :
    (area.store slot name kind data (answers fails)).Intact := by
  unfold Area.store storeDynamicNode
  split
  · exact ⟨h.mapped, h.content, h.loaded⟩
  rename_i haccepts
  replace haccepts : accepts slot name kind data = true := by simpa using haccepts
  -- the bitmap is read, so nothing is done before the store
  have hread : readAllocationBitmap (answers fails 0 area.disk) = bitmapAt area.disk := by
    unfold bitmapAt readAllocationBitmap answers Disk.reader
    rw [hbitmap]
    rfl
  have hensure : ensureDynamicArea (answers fails) area.disk = ⟨[], .ok ()⟩ :=
    if_pos (by rw [hread]; exact Option.isSome_iff_ne_none.2 h.mapped.2)
  rw [hensure]
  dsimp only [Disk.writeAll, List.foldl_nil]
  have hstore := h.mapped.1.store h.mapped.2 (truthful_answers fails 7 area.disk) haccepts
  generalize storeDynamicNodeOnDisk (answers fails 7 area.disk) slot name kind data = stored at hstore
  obtain ⟨hbetween, hfile⟩ := hstore stored.writes.length
  rw [List.take_length] at hbetween hfile
  refine intact_of_content ⟨hbetween.sound, hbetween.mapped⟩ fun other hother => ?_
  change fileAt (area.disk.writeAll stored.writes) other = .ok (ite _ _ area.acknowledged other)
  by_cases heq : other = slot
  · subst heq
    by_cases hok : stored.result = .ok true
    · rw [hfile, if_pos hok, if_neg (by simp [hok]), Function.update_self]
    · rw [hfile, if_neg hok, if_pos fun hok' => absurd hok' hok, h.content other hother]
  rw [hbetween.others other hother heq, h.content other hother]
  split
  · rw [Function.update_of_ne heq]
  · rfl

theorem Intact.step {access : Access} (h : area.Intact) (hadmits : area.Admits access) : (area.step access).Intact := by
  unfold Area.step
  split
  · exact h
  · cases access with
    | store slot name kind data fails => exact h.store hadmits
    | load slot fails => exact ⟨h.mapped, h.content, h.loaded⟩

end Area

/-! ## A bitmap that is not read -/

/-- An empty disk after its first boot -/
def booted : Disk := blank.disk.writeAll [bitmapWrite 0, bitmapWrite 0]

end MakOS.MakFS3
