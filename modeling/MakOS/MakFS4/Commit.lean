/-
The commit of one change (`commit_inode_changes`): the changed and the stale records and bitmap
blocks go to a metadata set no root uses, then its catalog, and after a flush a new root replaces
the older one. Only then does the cache follow.
-/
import MakOS.MakFS4.Volume

namespace MakOS.MakFS4

open Bytes Device Device.Prog

/-! ## The commit sequence -/

inductive CommitPhase
  | data
  | inodes
  | bitmap
  | catalog
  | flushMetadata
  | superblock
  | flushRoot
  | complete
  deriving DecidableEq, Repr

structure CommitSequencer where
  phase : CommitPhase
  deriving DecidableEq, Repr

namespace CommitSequencer

def new : CommitSequencer := ⟨.data⟩

def complete (sequence : CommitSequencer) (completed : CommitPhase) : Except Error CommitSequencer :=
  if completed ≠ sequence.phase ∨ sequence.phase = .complete then .error .wrongPhase
  else
    match sequence.phase with
    | .data => .ok ⟨.inodes⟩
    | .inodes => .ok ⟨.bitmap⟩
    | .bitmap => .ok ⟨.catalog⟩
    | .catalog => .ok ⟨.flushMetadata⟩
    | .flushMetadata => .ok ⟨.superblock⟩
    | .superblock => .ok ⟨.flushRoot⟩
    | .flushRoot => .ok ⟨.complete⟩
    | .complete => .error .wrongPhase

end CommitSequencer

/-- `sequence.complete(phase).map_err(|_| MountError::Corrupt)?` -/
def completePhase (sequence : CommitSequencer) (phase : CommitPhase) : M CommitSequencer :=
  lift ((sequence.complete phase).mapError fun _ => MountError.corrupt)

/-! ## The target -/

/-- The set is not the one of the given root. -/
def notUsedBy (root : Except Error Superblock) (set : MetadataSet) : Bool :=
  match root with
  | .ok superblock => superblock.catalogBlock != set.catalogBlock
  | .error _ => true

/-- The slot of the root to replace: an invalid one, or the older of two. -/
def rootLba (first second : Except Error Superblock) : Nat :=
  match first, second with
  | .error _, _ => superblockALba
  | .ok _, .error _ => superblockBLba
  | .ok first, .ok second => if first.generation ≤ second.generation then superblockALba else superblockBLba

/-- The first set neither root uses. -/
def freeSet (first second : Except Error Superblock) (sets : Vector MetadataSet 3) : Option MetadataSet :=
  sets.toList.find? fun set => notUsedBy first set && notUsedBy second set

def selectCommitTarget (blockCount : UInt64) : M (MetadataSet × Nat) := do
  let firstRecord ← readRecord superblockALba
  let secondRecord ← readRecord superblockBLba
  let first ← (validateRoot firstRecord blockCount).attempt
  let second ← (validateRoot secondRecord blockCount).attempt
  let (_, sets) ← lift (metadataSets blockCount)
  match freeSet first second sets with
  | some target => return (target, rootLba first second)
  | none => .throw .geometry

def setPosition (sets : Vector MetadataSet 3) (inodeTableBlock : UInt64) : Option (Fin 3) :=
  (List.finRange 3).find? fun i => sets[i].inodeTableBlock == inodeTableBlock

/-- The records and bitmap blocks of the target that are stale. -/
def commitDirtySnapshot (volume : Volume) (catalog : Catalog) (target : MetadataSet) : List UInt64 × UInt64 :=
  if cacheValid volume catalog then
    match setPosition volume.cache.metadataSets target.inodeTableBlock with
    | some i => (volume.cache.inodeDirty[i], volume.cache.bitmapDirty[i])
    | none => (allDirty, 0xffffffffffffffff)
  else (allDirty, 0xffffffffffffffff)

/-! ## Inode records -/

/-- The change a commit makes: one or two records, the number of inodes, and the bitmap if it
changes. -/
structure Change where
  index : Nat
  replacement : Record
  second : Option (Nat × Record)
  inodeCountDelta : Int
  bitmapWords : Option (List UInt64)

/-- The record of the change for an inode, if it has one. -/
def Change.recordFor (change : Change) (index : Nat) : Option Record :=
  if index = change.index then some change.replacement
  else
    match change.second with
    | some (second, record) => if index = second then some record else none
    | none => none

/-- The record of an inode after the change, from the change, the cache or the medium. -/
def nextRecord (volume : Volume) (catalog : Catalog) (change : Change) (index lba : Nat) : M Record :=
  match change.recordFor index with
  | some record => .pure record
  | none =>
    match cachedInode volume catalog index with
    | some entry => lift ((encodeEntry entry).mapError fun _ => .corrupt)
    | none => readRecord lba

/-- One round of the loop over the inodes. -/
def commitInode (volume : Volume) (catalog : Catalog) (change : Change) (target : MetadataSet) (dirty : List UInt64)
    (index : Nat) : M Unit :=
  if bitAt dirty index ∨ (change.recordFor index).isSome then do
    let lba ← lift (inodeLba catalog.inodeTableBlock index)
    let record ← nextRecord volume catalog change index lba
    writeInodeRecord target.inodeTableBlock index record
  else .pure ()

def commitInodes (volume : Volume) (catalog : Catalog) (change : Change) (target : MetadataSet) (dirty : List UInt64) :
    M Unit :=
  forEach (commitInode volume catalog change target dirty) (List.range maximumInodes)

/-! ## Bitmap blocks -/

/-- The words of a bitmap block, filled up with zeros past the end. -/
def desiredWords (words : List UInt64) (wordIndex : Nat) : List UInt64 :=
  let chunk := (words.drop wordIndex).take wordsPerBlock
  chunk ++ List.replicate (wordsPerBlock - chunk.length) 0

/-- One round of the loop over the bitmap blocks when the bitmap changes; the state is the position
in the words and the blocks that changed. -/
def commitBitmapBlock (active : Superblock) (target : MetadataSet) (dirty : UInt64) (words : List UInt64)
    (state : Nat × UInt64) (offset : Nat) : M (Nat × UInt64) := do
  let (wordIndex, changed) := state
  let block ← readBlock (active.bitmapBlock.toNat + offset)
  if offset ≥ 64 then .throw .geometry
  else
    let desired := desiredWords words wordIndex
    let changed := if blockWords block ≠ desired then changed ||| bitMask offset else changed
    let next := (min words.length (wordIndex + wordsPerBlock), changed)
    if testBit (dirty ||| changed) offset then do
      writeBlock (target.bitmapBlock.toNat + offset) (wordsBlock desired)
      return next
    else return next

/-- One round of the loop over the bitmap blocks when the bitmap stays. -/
def copyBitmapBlock (active : Superblock) (target : MetadataSet) (dirty : UInt64) (offset : Nat) : M Unit :=
  if offset ≥ 64 then .throw .geometry
  else if testBit dirty offset then do
    let block ← readBlock (active.bitmapBlock.toNat + offset)
    writeBlock (target.bitmapBlock.toNat + offset) block
  else .pure ()

/-- Write the bitmap of the target; the result is the set of blocks that changed. -/
def commitBitmap (active : Superblock) (target : MetadataSet) (dirty : UInt64) (words : Option (List UInt64)) : M UInt64 :=
  match words with
  | some words => do
    let (wordIndex, changed) ←
      foldEach (commitBitmapBlock active target dirty words) (List.range active.bitmapBlocks.toNat) (0, 0)
    if wordIndex ≠ words.length then .throw .geometry else return changed
  | none => do
    forEach (copyBitmapBlock active target dirty) (List.range active.bitmapBlocks.toNat)
    return 0

/-! ## The cache -/

/-- The inode of a record that is valid on the volume. -/
def decodeOnVolume (active : Superblock) (record : Record) : Except MountError (Option Inode) :=
  if isBlank record then .ok none
  else do
    let inode ← (Inode.decode record).mapError fun _ => MountError.corrupt
    (inode.validateOnVolume active.dataStart active.blockCount).mapError fun _ => MountError.corrupt
    return some inode

def markInodeDirty (words : List UInt64) (index : Nat) : List UInt64 := putBit words index true

def firstFree (entries : Entries) : Nat :=
  ((List.range' 1 (maximumInodes - 1)).find? fun index => (entryAt entries index).isNone).getD maximumInodes

/-- The decoded records of a change. -/
def decodeChange (active : Superblock) (change : Change) :
    Except MountError (Option Inode × Option (Nat × Option Inode)) := do
  let replacement ← decodeOnVolume active change.replacement
  match change.second with
  | none => return (replacement, none)
  | some (index, record) => do
    let inode ← decodeOnVolume active record
    return (replacement, some (index, inode))

/-- The entries after a change. -/
def updateEntries (entries : Entries) (index : Nat) (replacement : Option Inode) (second : Option (Nat × Option Inode)) :
    Entries :=
  let entries := entries.setIfInBounds index replacement
  match second with
  | some (index, inode) => entries.setIfInBounds index inode
  | none => entries

/-- The stale records of the sets after a change was committed to one of them. -/
def nextInodeDirty (cache : InodeCache) (target : Fin 3) (index : Nat) (second : Option Nat) : Vector (List UInt64) 3 :=
  Vector.ofFn fun i =>
    if i = target then noneDirty
    else
      let words := markInodeDirty cache.inodeDirty[i] index
      match second with
      | some index => markInodeDirty words index
      | none => words

/-- The stale bitmap blocks of the sets after a change was committed to one of them. -/
def nextBitmapDirty (cache : InodeCache) (target : Fin 3) (changed : UInt64) : Vector UInt64 3 :=
  Vector.ofFn fun i => if i = target then 0 else cache.bitmapDirty[i] ||| changed

def updateInodeCacheAfterCommit (volume : Volume) (active : Superblock) (oldCatalog nextCatalog : Catalog)
    (change : Change) (target : MetadataSet) (bitmapChanged : UInt64) : Except MountError Volume := do
  let (replacement, second) ← decodeChange active change
  let cache := volume.cache
  if cacheValid volume oldCatalog then
    let entries := updateEntries cache.entries change.index replacement second
    match DirectoryIndex.rebuild entries with
    | .error _ => return { volume with cache := { cache with ready := false, entries } }
    | .ok childIndex =>
      let cache : InodeCache :=
        { cache with
          entries
          childIndex
          generation := nextCatalog.generation
          inodeTableBlock := nextCatalog.inodeTableBlock
          inodeCount := nextCatalog.inodeCount
          freeHint := firstFree entries }
      match setPosition cache.metadataSets target.inodeTableBlock with
      | none => return { volume with cache := { cache with ready := false } }
      | some i =>
        return { volume with
                 cache := { cache with
                            inodeDirty := nextInodeDirty cache i change.index (second.map (·.1))
                            bitmapDirty := nextBitmapDirty cache i bitmapChanged } }
  else return { volume with cache := { cache with ready := false } }

/-! ## The commit -/

def nextInodeCount (catalog : Catalog) (delta : Int) : Except MountError UInt32 :=
  let count : Int := catalog.inodeCount.toNat + delta
  if 0 ≤ count ∧ count < 2 ^ 32 ∧ count ≤ catalog.maximumInodes.toNat then .ok (UInt32.ofNat count.toNat)
  else .error .geometry

/-- The commit once the target is chosen. -/
def commitTo (volume : Volume) (active : Superblock) (catalog : Catalog) (change : Change) (target : MetadataSet)
    (rootLba : Nat) : M Volume := do
  let (inodeDirty, bitmapDirty) := commitDirtySnapshot volume catalog target
  let generation ← lift (nextGeneration active.generation)
  let sequence ← completePhase .new .data
  commitInodes volume catalog change target inodeDirty
  let sequence ← completePhase sequence .inodes
  let bitmapChanged ← commitBitmap active target bitmapDirty change.bitmapWords
  let sequence ← completePhase sequence .bitmap
  let inodeCount ← lift (nextInodeCount catalog change.inodeCountDelta)
  let nextCatalog : Catalog := { catalog with generation, inodeCount, inodeTableBlock := target.inodeTableBlock }
  let catalogRecord ← lift ((nextCatalog.encode active.blockCount active.dataStart).mapError fun _ => .corrupt)
  writeCatalogRecord target.catalogBlock.toNat catalogRecord
  let sequence ← completePhase sequence .catalog
  sync .io
  let sequence ← completePhase sequence .flushMetadata
  let next : Superblock :=
    { active with
      generation, commitId := generation, catalogBlock := target.catalogBlock, bitmapBlock := target.bitmapBlock }
  let encoded ← lift (next.encode.mapError fun _ => .corrupt)
  writeOne .io rootLba encoded
  let sequence ← completePhase sequence .superblock
  sync .io
  let sequence ← completePhase sequence .flushRoot
  if sequence.phase ≠ .complete then .throw .corrupt
  else do
    let volume ← lift (updateInodeCacheAfterCommit volume active catalog nextCatalog change target bitmapChanged)
    return activate volume next

def commitInodeChanges (volume : Volume) (active : Superblock) (catalog : Catalog) (change : Change) : M Volume := do
  let (target, rootLba) ← selectCommitTarget active.blockCount
  commitTo volume active catalog change target rootLba

end MakOS.MakFS4
