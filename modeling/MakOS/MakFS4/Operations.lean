/-
The operations on inodes. Each first works out its change, which may write file data to free blocks,
and then commits it.
-/
import MakOS.MakFS4.Mount

namespace MakOS.MakFS4

open Bytes Device Device.Prog BlockBitmap

/-! ## Allocation for whole files -/

/-- The loop of `allocate_extent_map`. -/
def allocateExtents (bitmap : BlockBitmap) (map : ExtentMap) (blockCount : Nat) :
    Except MountError (BlockBitmap × ExtentMap) :=
  if blockCount = 0 then .ok (bitmap, map)
  else if map.extents.length = maxExtents then .error .geometry
  else
    match _h : bitmap.allocateAttempt bitmap.baseBlock (BlockBitmap.attemptFor blockCount) with
    | .error error => .error (formatError error)
    | .ok (bitmap, extent) =>
      match map.push extent with
      | .error error => .error (formatError error)
      | .ok map => allocateExtents bitmap map (blockCount - extent.count)
termination_by blockCount
decreasing_by
  have hpos := (BlockBitmap.allocateAttempt_ok _h).2.changes.proper.nonempty
  have hle := (BlockBitmap.allocateAttempt_ok _h).1
  have := BlockBitmap.attemptFor_le blockCount
  omega

def allocateExtentMap (bitmap : BlockBitmap) (blockCount : Nat) : Except MountError (BlockBitmap × ExtentMap) :=
  allocateExtents bitmap .empty blockCount

def bitmapOf (active : Superblock) (words : List UInt64) : Except MountError BlockBitmap :=
  (BlockBitmap.newAt words active.dataStart.toNat (active.blockCount.toNat - active.dataStart.toNat)).mapError formatError

/-! ## Creating -/

def blockOfBytes (bytes : Vector UInt8 4096) : Block := Vector.ofFn fun i => window bytes (i.val * 512) 512

def bytesOfBlock (block : Block) : Vector UInt8 4096 :=
  Vector.ofFn fun i => byteAt (block.get ⟨i.val / 512, by omega⟩) (i.val % 512)

/-- One round of the loop that writes the data of a new inode. -/
def writeDataBlock (extents : ExtentMap) (data : List UInt8) (fileBlock : Nat) : M Unit :=
  let block := put (zeros 4096) 0 ((data.drop (fileBlock * blockBytes)).take blockBytes)
  match extents.fileBlockToDevice fileBlock with
  | none => .throw .corrupt
  | some deviceBlock => writeBlock deviceBlock (blockOfBytes block)

def parentIndex (parent : UInt64) : Except MountError Nat :=
  if parent = 0 ∨ parent.toNat - 1 ≥ 2 ^ 32 then .error .geometry else .ok (parent.toNat - 1)

def requireDirectory (volume : Volume) (catalog : Catalog) (parent : UInt64) : M Inode := do
  let index ← lift (parentIndex parent)
  let inode ← requireInode volume catalog index
  if fileType inode.mode ≠ modeDirectory then .throw .geometry else return inode

/-- One round of the scan for an existing child and a free index, when the cache is of no use. -/
def scanForFree (volume : Volume) (catalog : Catalog) (parent : UInt64) (name : List UInt8) (free : Option Nat)
    (index : Nat) : M (Option Nat) := do
  match ← readInodeFrom volume catalog index with
  | some inode => if inode.parent = parent ∧ inode.name = name then .throw .geometry else return free
  | none => return free.or (some index)

/-- A free index, if there is one, for a new child, which must not exist yet. -/
def checkNewChild (volume : Volume) (catalog : Catalog) (parent : UInt64) (name : List UInt8) : M (Option Nat) :=
  let free := cachedFreeInode volume catalog
  match cachedChildIndex volume catalog parent name with
  | some existing => if existing.isSome then .throw .geometry else .pure free
  | none => foldEach (scanForFree volume catalog parent name) (List.range' 1 (maximumInodes - 1)) free

def freeInode (volume : Volume) (catalog : Catalog) (parent : UInt64) (name : List UInt8) : M Nat := do
  match ← checkNewChild volume catalog parent name with
  | some index => return index
  | none => .throw .geometry

/-- Allocate and write the data of a new inode, if it has any; with it the changed bitmap. -/
def storeData (active : Superblock) (inode : Inode) (data : List UInt8) (words : List UInt64) :
    M (Inode × Option (List UInt64)) :=
  if data = [] then .pure (inode, none)
  else do
    let bitmap ← lift (bitmapOf active words)
    let (bitmap, extents) ← lift (allocateExtentMap bitmap ((data.length + (blockBytes - 1)) / blockBytes))
    let inode := { inode with extents, size := UInt64.ofNat data.length }
    forEach (writeDataBlock extents data) (List.range extents.blocks)
    return (inode, some bitmap.words)

/-- The inode `create_inode_with_data` makes, before its data. -/
def newInode (index : Nat) (generation : UInt64) (parent : UInt64) (name : List UInt8) (mode uid gid : UInt32)
    (now : UInt64) : Except MountError Inode :=
  let inode := { Inode.empty with
                 inode := UInt64.ofNat (index + 1), generation, mode, uid, gid, modifiedNs := nanoseconds now,
                 accessedSeconds := timestampSeconds now, changedSeconds := timestampSeconds now, parent }
  (inode.setName name).mapError fun _ => .geometry

def createPlan (volume : Volume) (parent : UInt64) (name : List UInt8) (mode uid gid : UInt32) (data : List UInt8)
    (now : UInt64) : M Plan := do
  if volume.mounted = false ∨
      ¬ (fileType mode = modeDirectory ∨ fileType mode = modeRegular ∨ fileType mode = modeSymlink) ∨
      (fileType mode ≠ modeSymlink ∧ data ≠ []) then
    .throw .geometry
  else
    let active ← lift (activeSuperblock volume)
    let catalog ← activeCatalog volume active
    let _ ← requireDirectory volume catalog parent
    let index ← freeInode volume catalog parent name
    let generation ← lift (nextGeneration active.generation)
    let inode ← lift (newInode index generation parent name mode uid gid now)
    let words ← readBitmapWords active
    let (inode, words) ← storeData active inode data words
    let record ← lift (inode.encode.mapError fun _ => .corrupt)
    return ⟨active, catalog, ⟨index, record, none, 1, words⟩⟩

def createInodeWithData (volume : Volume) (parent : UInt64) (name : List UInt8) (mode uid gid : UInt32)
    (data : List UInt8) (now : UInt64) : M (Nat × Volume) := do
  let plan ← createPlan volume parent name mode uid gid data now
  let volume ← perform volume (some plan)
  return (plan.change.index, volume)

def createInode (volume : Volume) (parent : UInt64) (name : List UInt8) (mode uid gid : UInt32) (now : UInt64) :
    M (Nat × Volume) :=
  createInodeWithData volume parent name mode uid gid [] now

def symlinkMode : UInt32 := 0o120777

def createSymlinkInode (volume : Volume) (parent : UInt64) (name target : List UInt8) (uid gid : UInt32) (now : UInt64) :
    M (Nat × Volume) :=
  if target = [] ∨ target.length ≥ maxPathBytes ∨ 0 ∈ target then .throw .geometry
  else createInodeWithData volume parent name symlinkMode uid gid target now

/-! ## Renaming and removing -/

/-- The `rename_inode` walk from a new parent up to the root, which must not meet the directory being
moved. -/
def checkAncestors (volume : Volume) (catalog : Catalog) (moved : UInt64) : (steps : Nat) → (ancestor : UInt64) → M Unit
  | 0, ancestor => if ancestor ≠ 1 then .throw .corrupt else .pure ()
  | steps + 1, ancestor =>
    if ancestor = moved then .throw .geometry
    else if ancestor = 1 then .pure ()
    else do
      let index ← lift (parentIndex ancestor)
      let inode ← requireInode volume catalog index
      checkAncestors volume catalog moved steps inode.parent

/-- A directory must not move below itself. -/
def checkMove (volume : Volume) (catalog : Catalog) (inode : Inode) (parent : UInt64) : M Unit :=
  if fileType inode.mode = modeDirectory then checkAncestors volume catalog inode.inode maximumInodes parent
  else .pure ()

/-- One round of the scan for another child with the new name. -/
def checkDuplicate (volume : Volume) (catalog : Catalog) (index : Nat) (parent : UInt64) (name : List UInt8)
    (candidate : Nat) : M Unit :=
  if candidate = index then .pure ()
  else do
    match ← readInodeFrom volume catalog candidate with
    | some existing => if existing.parent = parent ∧ existing.name = name then .throw .geometry else return ()
    | none => return ()

/-- The moved inode and its record. -/
def movedRecord (active : Superblock) (inode : Inode) (parent : UInt64) (name : List UInt8) (now : UInt64) :
    Except MountError Record := do
  let generation ← nextGeneration active.generation
  let inode := { inode with parent, generation, changedSeconds := timestampSeconds now }
  let inode ← (inode.setName name).mapError fun _ => MountError.geometry
  inode.encode.mapError fun _ => MountError.corrupt

def renamePlan (volume : Volume) (index : Nat) (parent : UInt64) (name : List UInt8) (now : UInt64) : M Plan :=
  if index = 0 then .throw .geometry
  else do
    let active ← lift (activeSuperblock volume)
    let catalog ← activeCatalog volume active
    let _ ← requireDirectory volume catalog parent
    let inode ← requireInode volume catalog index
    checkMove volume catalog inode parent
    forEach (checkDuplicate volume catalog index parent name) (List.range' 1 (maximumInodes - 1))
    let record ← lift (movedRecord active inode parent name now)
    return ⟨active, catalog, ⟨index, record, none, 0, none⟩⟩

def renameInode (volume : Volume) (index : Nat) (parent : UInt64) (name : List UInt8) (now : UInt64) : M Volume := do
  let plan ← renamePlan volume index parent name now
  perform volume (some plan)

/-- Release every extent of an inode; the words of the bitmap afterwards. -/
def releaseExtents (bitmap : BlockBitmap) (extents : ExtentMap) : Except MountError BlockBitmap :=
  (extents.extents.foldlM BlockBitmap.release bitmap).mapError formatError

def replacePlan (volume : Volume) (index destinationIndex : Nat) (parent : UInt64) (name : List UInt8) (now : UInt64) :
    M Plan :=
  if index = 0 ∨ destinationIndex = 0 ∨ index = destinationIndex then .throw .geometry
  else do
    let active ← lift (activeSuperblock volume)
    let catalog ← activeCatalog volume active
    let parentPosition ← lift (parentIndex parent)
    let parentInode ← requireInode volume catalog parentPosition
    let source ← requireInode volume catalog index
    let destination ← requireInode volume catalog destinationIndex
    if fileType parentInode.mode ≠ modeDirectory ∨ fileType source.mode = modeDirectory ∨
        fileType destination.mode = modeDirectory ∨ destination.parent ≠ parent ∨ destination.name ≠ name then
      .throw .geometry
    else do
      let record ← lift (movedRecord active source parent name now)
      let words ← readBitmapWords active
      let bitmap ← lift (bitmapOf active words)
      let bitmap ← lift (releaseExtents bitmap destination.extents)
      return ⟨active, catalog, ⟨index, record, some (destinationIndex, zeros 512), -1, some bitmap.words⟩⟩

def replaceInode (volume : Volume) (index destinationIndex : Nat) (parent : UInt64) (name : List UInt8) (now : UInt64) :
    M Volume := do
  let plan ← replacePlan volume index destinationIndex parent name now
  perform volume (some plan)

/-- One round of the scan for a child of a directory to be removed. -/
def checkNoChild (volume : Volume) (catalog : Catalog) (removed : UInt64) (candidate : Nat) : M Unit := do
  match ← readInodeFrom volume catalog candidate with
  | some child => if child.parent = removed then .throw .geometry else return ()
  | none => return ()

/-- A directory to be removed must be empty. -/
def checkEmpty (volume : Volume) (catalog : Catalog) (inode : Inode) : M Unit :=
  if fileType inode.mode = modeDirectory then
    forEach (checkNoChild volume catalog inode.inode) (List.range' 1 (maximumInodes - 1))
  else .pure ()

def removePlan (volume : Volume) (index : Nat) : M Plan :=
  if index = 0 then .throw .geometry
  else do
    let active ← lift (activeSuperblock volume)
    let catalog ← activeCatalog volume active
    let inode ← requireInode volume catalog index
    checkEmpty volume catalog inode
    let words ← readBitmapWords active
    let bitmap ← lift (bitmapOf active words)
    let bitmap ← lift (releaseExtents bitmap inode.extents)
    return ⟨active, catalog, ⟨index, zeros 512, none, -1, some bitmap.words⟩⟩

def removeInode (volume : Volume) (index : Nat) : M Volume := do
  let plan ← removePlan volume index
  perform volume (some plan)

end MakOS.MakFS4
