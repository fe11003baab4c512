/-
The mounted volume (`kernel/src/makfs4_volume.rs`): its geometry, the inode cache, the roots on the
medium and the commit of one change of the metadata. A block is one request for eight sectors. The
static variables of the kernel are the fields of `Volume`; a failed call leaves them as they were.
-/
import MakOS.Device.Interrupt
import MakOS.MakFS4.Directory

namespace MakOS.MakFS4

open Bytes Device Device.Prog

/-! ## Geometry -/

abbrev sectorsPerBlock : Nat := 8
abbrev superblockALba : Nat := 112
abbrev superblockBLba : Nat := 120
abbrev metadataFirstBlock : Nat := 16
abbrev packageHeaderLba : Nat := 2048
abbrev packageLimitBlock : Nat := 131072
abbrev packageTransactionBaseLba : Nat := 786432
abbrev minVolumeBlocks : Nat := 262144
abbrev maxVolumeBlocks : Nat := minVolumeBlocks
abbrev maximumInodes : Nat := 512
abbrev directoryIndexBuckets : Nat := 1024
abbrev inodeTableBlocks : Nat := 64
abbrev inodeDirtyWords : Nat := 8
abbrev metadataLimitBlock : Nat := 256

/-- The bytes of `MAKPKG01`. -/
def packageMagic : List UInt8 := [0x4d, 0x41, 0x4b, 0x50, 0x4b, 0x47, 0x30, 0x31]

inductive MountError
  | io
  | corrupt
  | packageOverlap
  | geometry
  | noSpace
  deriving DecidableEq, Repr

def formatError : Error → MountError
  | .corrupt => .corrupt
  | .noSpace | .tooFragmented => .noSpace
  | .invalid | .outOfRange | .wrongPhase => .geometry

structure MetadataSet where
  bitmapBlock : UInt64
  catalogBlock : UInt64
  inodeTableBlock : UInt64
  deriving DecidableEq, Repr

/-- The metadata set whose bitmap starts at the given block. -/
def metadataSetAt (bitmapBlocks start : Nat) : MetadataSet :=
  ⟨UInt64.ofNat start, UInt64.ofNat (start + bitmapBlocks), UInt64.ofNat (start + bitmapBlocks + 1)⟩

def metadataSets (blockCount : UInt64) : Except MountError (UInt32 × Vector MetadataSet 3) :=
  if blockCount.toNat < packageLimitBlock then .error .geometry
  else
    let bitmapBlocks := (blockCount.toNat - packageLimitBlock + (blockBytes * 8 - 1)) / (blockBytes * 8)
    if bitmapBlocks < 2 ^ 32 then
      let setBlocks := bitmapBlocks + 1 + inodeTableBlocks
      let secondStart := metadataFirstBlock + setBlocks
      let thirdStart := secondStart + setBlocks
      if thirdStart + bitmapBlocks + 1 + inodeTableBlocks > metadataLimitBlock then .error .geometry
      else
        .ok (UInt32.ofNat bitmapBlocks,
          #v[metadataSetAt bitmapBlocks metadataFirstBlock, metadataSetAt bitmapBlocks secondStart,
             metadataSetAt bitmapBlocks thirdStart])
    else .error .geometry

/-! ## The inode cache and the active root -/

abbrev Entries := Vector (Option Inode) maximumInodes

structure InodeCache where
  ready : Bool
  generation : UInt64
  inodeTableBlock : UInt64
  inodeCount : UInt32
  freeHint : Nat
  entries : Entries
  childIndex : DirectoryIndex maximumInodes directoryIndexBuckets
  metadataSets : Vector MetadataSet 3
  inodeDirty : Vector (List UInt64) 3
  bitmapDirty : Vector UInt64 3

/-- The static variables: the inode cache and the `ACTIVE_` words. -/
structure Volume where
  cache : InodeCache
  activeGeneration : UInt64
  activeCatalogBlock : UInt64
  activeBitmapBlock : UInt64
  activeBlockCount : UInt64

/-- The inode an index stands for, none when there is no such entry. -/
def entryAt (entries : Entries) (index : Nat) : Option Inode := entries[index]?.join

def allDirty : List UInt64 := List.replicate inodeDirtyWords 0xffffffffffffffff

def noneDirty : List UInt64 := List.replicate inodeDirtyWords 0

def InodeCache.empty : InodeCache where
  ready := false
  generation := 0
  inodeTableBlock := 0
  inodeCount := 0
  freeHint := 1
  entries := Vector.replicate _ none
  childIndex := .empty
  metadataSets := Vector.replicate _ ⟨0, 0, 0⟩
  inodeDirty := Vector.replicate _ allDirty
  bitmapDirty := Vector.replicate _ 0xffffffffffffffff

/-- The static variables before anything is mounted. -/
def Volume.unmounted : Volume := ⟨.empty, 0, 0, 0, 0⟩

def Volume.mounted (volume : Volume) : Bool := volume.activeGeneration != 0

def nextGeneration (generation : UInt64) : Except MountError UInt64 :=
  if generation.toNat + 1 < 2 ^ 64 then .ok (generation + 1) else .error .geometry

def activeSuperblock (volume : Volume) : Except MountError Superblock :=
  if volume.activeGeneration = 0 ∨ volume.activeBlockCount = 0 then .error .corrupt
  else
    let dataBlocks := volume.activeBlockCount.toNat - packageLimitBlock
    let bitmapBlocks := (dataBlocks + (blockBytes * 8 - 1)) / (blockBytes * 8)
    if bitmapBlocks < 2 ^ 32 then
      .ok { generation := volume.activeGeneration
            commitId := volume.activeGeneration
            blockCount := volume.activeBlockCount
            dataStart := UInt64.ofNat packageLimitBlock
            catalogBlock := volume.activeCatalogBlock
            bitmapBlock := volume.activeBitmapBlock
            bitmapBlocks := UInt32.ofNat bitmapBlocks }
    else .error .geometry

def activate (volume : Volume) (superblock : Superblock) : Volume :=
  { volume with
    activeBlockCount := superblock.blockCount
    activeBitmapBlock := superblock.bitmapBlock
    activeCatalogBlock := superblock.catalogBlock
    activeGeneration := superblock.generation }

/-! ## Requests -/

abbrev M := Prog Record MountError

abbrev Block := Vector Record 8

def zeroBlock : Block := Vector.replicate 8 (zeros 512)

def readRecord (lba : Nat) : M Record := readOne .io lba

/-- `block_first_sector` and the conversion to the 32-bit sector numbers of the disk. -/
def blockLba (block : Nat) : Option Nat :=
  if block * sectorsPerBlock < 2 ^ 32 then some (block * sectorsPerBlock) else none

def readBlockOr {ε : Type} (io : ε) (block : Nat) : Prog Record ε Block :=
  match blockLba block with
  | some lba => readMany io lba 8
  | none => .throw io

def readBlock (block : Nat) : M Block := readBlockOr .io block

def writeBlock (block : Nat) (input : Block) : M Unit :=
  match blockLba block with
  | some lba => writeMany .io lba input.toList
  | none => .throw .io

def zeroBlocks (start count : Nat) : M Unit :=
  forEach (fun block => writeBlock block zeroBlock) (List.range' start count)

def inodeLba (inodeTableBlock : UInt64) (index : Nat) : Except MountError Nat :=
  let lba := inodeTableBlock.toNat * sectorsPerBlock + index
  if lba < 2 ^ 32 then .ok lba else .error .geometry

def writeInodeRecord (inodeTableBlock : UInt64) (index : Nat) (record : Record) : M Unit :=
  if index ≥ maximumInodes then .throw .geometry
  else do
    let lba ← lift (inodeLba inodeTableBlock index)
    writeOne .io lba record

def writeRecordBlock (block : Nat) (record : Record) : M Unit := writeBlock block (zeroBlock.set 0 record)

def writeCatalogRecord (block : Nat) (record : Record) : M Unit :=
  match blockLba block with
  | some lba => writeOne .io lba record
  | none => .throw .geometry

/-! ## Bitmap blocks -/

def sectorWords (record : Record) : List UInt64 := (List.range 64).map fun index => getU64 record (index * 8)

def wordsSector (words : List UInt64) : Record := put (zeros 512) 0 (words.flatMap fun word => leBytes 8 word.toNat)

/-- The 64-bit words of a block, `block.chunks_exact(8)`. -/
def blockWords (block : Block) : List UInt64 := block.toList.flatMap sectorWords

def wordsBlock (words : List UInt64) : Block := Vector.ofFn fun i => wordsSector ((words.drop (i.val * 64)).take 64)

def wordsPerBlock : Nat := 512

/-- One round of the `read_bitmap_words` loop. -/
def readBitmapStep (bitmapBlock : UInt64) (wordCount : Nat) (words : List UInt64) (offset : Nat) : M (List UInt64) := do
  let block ← readBlock (bitmapBlock.toNat + offset)
  return words ++ (blockWords block).take (wordCount - words.length)

def readBitmapWords (active : Superblock) : M (List UInt64) := do
  let dataBlocks := active.blockCount.toNat - active.dataStart.toNat
  let wordCount := (dataBlocks + 63) / 64
  let words ← foldEach (readBitmapStep active.bitmapBlock wordCount) (List.range active.bitmapBlocks.toNat) []
  if words.length ≠ wordCount then .throw .corrupt else return words

/-! ## Roots -/

def validateGeometry (superblock : Superblock) (blockCount : UInt64) : Except MountError Unit := do
  let (bitmapBlocks, sets) ← metadataSets blockCount
  if superblock.blockCount ≠ blockCount ∨ superblock.dataStart ≠ UInt64.ofNat packageLimitBlock ∨
      superblock.bitmapBlocks ≠ bitmapBlocks ∨
      ¬ sets.toList.any (fun set => set.bitmapBlock == superblock.bitmapBlock &&
        set.catalogBlock == superblock.catalogBlock) then
    .error .geometry
  else .ok ()

/-- `read_catalog`, with the errors its caller makes of a failed read and a bad record. -/
def readCatalogOr {ε : Type} (io corrupt : ε) (superblock : Superblock) : Prog Record ε Catalog := do
  let block ← readBlockOr io superblock.catalogBlock.toNat
  lift ((Catalog.decode block[0] superblock.blockCount superblock.dataStart).mapError fun _ => corrupt)

def readCatalog (superblock : Superblock) : M Catalog := readCatalogOr .io .corrupt superblock

def rangesOverlap (firstStart firstEnd secondStart secondEnd : Nat) : Bool :=
  decide (firstStart < secondEnd) && decide (secondStart < firstEnd)

/-- The checks of `validate_root` on a root and its catalog. -/
def checkRoot (superblock : Superblock) (catalog : Catalog) (blockCount : UInt64) : Except Error Superblock :=
  if catalog.generation ≠ superblock.generation then .error .corrupt
  else
    let inodeEnd := catalog.inodeTableBlock.toNat + catalog.inodeTableBlocks.toNat
    let bitmapEnd := superblock.bitmapBlock.toNat + superblock.bitmapBlocks.toNat
    if inodeEnd ≥ 2 ^ 64 ∨ bitmapEnd ≥ 2 ^ 64 then .error .corrupt
    else if catalog.inodeTableBlock.toNat < metadataFirstBlock ∨ inodeEnd > metadataLimitBlock ∨
        rangesOverlap catalog.inodeTableBlock.toNat inodeEnd superblock.bitmapBlock.toNat bitmapEnd ∨
        (catalog.inodeTableBlock ≤ superblock.catalogBlock ∧ superblock.catalogBlock.toNat < inodeEnd) then
      .error .corrupt
    else
      match metadataSets blockCount with
      | .error _ => .error .corrupt
      | .ok (_, sets) =>
        if sets.toList.any (fun set => set.bitmapBlock == superblock.bitmapBlock &&
            set.catalogBlock == superblock.catalogBlock && set.inodeTableBlock == catalog.inodeTableBlock) then
          .ok superblock
        else .error .corrupt

def validateRoot (record : Record) (blockCount : UInt64) : Prog Record Error Superblock := do
  let superblock ← lift (Superblock.decode record)
  lift ((validateGeometry superblock blockCount).mapError fun _ => Error.corrupt)
  let catalog ← readCatalogOr .corrupt .corrupt superblock
  lift (checkRoot superblock catalog blockCount)

/-! ## Reading through the cache -/

/-- The cache is of the given catalog. -/
def cacheValid (volume : Volume) (catalog : Catalog) : Bool :=
  volume.cache.ready && volume.cache.generation == catalog.generation &&
    volume.cache.inodeTableBlock == catalog.inodeTableBlock

def activeCatalog (volume : Volume) (superblock : Superblock) : M Catalog :=
  if volume.cache.ready && volume.cache.generation == superblock.generation then
    .pure { generation := volume.cache.generation
            inodeCount := volume.cache.inodeCount
            maximumInodes := UInt32.ofNat maximumInodes
            inodeTableBlock := volume.cache.inodeTableBlock
            inodeTableBlocks := UInt32.ofNat inodeTableBlocks }
  else readCatalog superblock

def cachedInode (volume : Volume) (catalog : Catalog) (index : Nat) : Option (Option Inode) :=
  if cacheValid volume catalog ∧ index < catalog.maximumInodes.toNat then some (entryAt volume.cache.entries index)
  else none

/-- The inode a record stands for: none when the record is blank. -/
def decodeEntry (record : Record) : Except Error (Option Inode) :=
  if isBlank record then .ok none else (Inode.decode record).map some

/-- The record of an entry: blank when there is no inode. -/
def encodeEntry : Option Inode → Except Error Record
  | none => .ok (zeros 512)
  | some inode => inode.encode

def readInodeFrom (volume : Volume) (catalog : Catalog) (index : Nat) : M (Option Inode) :=
  if index ≥ catalog.maximumInodes.toNat then .pure none
  else
    match cachedInode volume catalog index with
    | some inode => .pure inode
    | none => do
      let lba ← lift (inodeLba catalog.inodeTableBlock index)
      let record ← readRecord lba
      lift ((decodeEntry record).mapError fun _ => .corrupt)

def requireInode (volume : Volume) (catalog : Catalog) (index : Nat) : M Inode := do
  match ← readInodeFrom volume catalog index with
  | some inode => return inode
  | none => .throw .geometry

def cachedFreeInode (volume : Volume) (catalog : Catalog) : Option Nat :=
  if cacheValid volume catalog then
    let hint := volume.cache.freeHint
    if hint < catalog.maximumInodes.toNat ∧ entryAt volume.cache.entries hint = none then some hint else none
  else none

def cachedChildIndex (volume : Volume) (catalog : Catalog) (parent : UInt64) (name : List UInt8) : Option (Option Nat) :=
  if cacheValid volume catalog then some (volume.cache.childIndex.find volume.cache.entries parent name) else none

def readInodeBlock (inode : Inode) (fileBlock : Nat) : M Block :=
  match inode.extents.fileBlockToDevice fileBlock with
  | none => .pure zeroBlock
  | some block => readBlock block

end MakOS.MakFS4
