/-
Mounting and formatting (`mount_or_format`). A disk with two blank roots is formatted; otherwise the
newest valid root is loaded into the cache, and the owner and the mode of the root directory are
brought up to date with a first commit. The clock is an argument of whatever reads it.
-/
import MakOS.MakFS4.Commit

namespace MakOS.MakFS4

open Bytes Device Device.Prog

/-! ## File types and times -/

def modeTypeMask : UInt32 := 0o170000
def modeDirectory : UInt32 := 0o040000
def modeRegular : UInt32 := 0o100000
def modeSymlink : UInt32 := 0o120000

def fileType (mode : UInt32) : UInt32 := mode &&& modeTypeMask

def initUid : UInt32 := 1000
def initGid : UInt32 := 1000
def rootMode : UInt32 := 0o040700

def rootName : List UInt8 := [0x2e]

def timestampSeconds (seconds : UInt64) : UInt32 :=
  if seconds.toNat < 2 ^ 32 then UInt32.ofNat seconds.toNat else 0xffffffff

/-- `now.saturating_mul(1_000_000_000)` -/
def nanoseconds (now : UInt64) : UInt64 :=
  if now.toNat * 1000000000 < 2 ^ 64 then UInt64.ofNat (now.toNat * 1000000000) else 0xffffffffffffffff

/-! ## Formatting and mounting -/

inductive MountResult
  | deferredSmallDisk
  | formatted
  | mounted
  deriving DecidableEq, Repr

/-- The root directory of a new volume. -/
def formatRoot : Inode :=
  { Inode.empty with
    inode := 1, generation := 1, mode := rootMode, uid := initUid, gid := initGid, parent := 1, name := rootName,
    short := by decide }

def format (blockCount : UInt64) : M Superblock := do
  let (bitmapBlocks, sets) ← lift (metadataSets blockCount)
  let active := sets.get ⟨0, Nat.succ_pos 2⟩
  let superblock : Superblock :=
    { generation := 1
      commitId := 1
      blockCount
      dataStart := UInt64.ofNat packageLimitBlock
      catalogBlock := active.catalogBlock
      bitmapBlock := active.bitmapBlock
      bitmapBlocks }
  let catalog : Catalog :=
    { generation := 1
      inodeCount := 1
      maximumInodes := UInt32.ofNat maximumInodes
      inodeTableBlock := active.inodeTableBlock
      inodeTableBlocks := UInt32.ofNat inodeTableBlocks }
  let sequence ← completePhase .new .data
  zeroBlocks active.inodeTableBlock.toNat inodeTableBlocks
  let rootRecord ← lift (formatRoot.encode.mapError fun _ => .corrupt)
  writeInodeRecord active.inodeTableBlock 0 rootRecord
  let sequence ← completePhase sequence .inodes
  zeroBlocks active.bitmapBlock.toNat bitmapBlocks.toNat
  let sequence ← completePhase sequence .bitmap
  let catalogRecord ← lift ((catalog.encode blockCount (UInt64.ofNat packageLimitBlock)).mapError fun _ => .corrupt)
  writeRecordBlock active.catalogBlock.toNat catalogRecord
  let sequence ← completePhase sequence .catalog
  sync .io
  let sequence ← completePhase sequence .flushMetadata
  let encoded ← lift (superblock.encode.mapError fun _ => .corrupt)
  writeOne .io superblockALba encoded
  writeOne .io superblockBLba encoded
  let sequence ← completePhase sequence .superblock
  sync .io
  let sequence ← completePhase sequence .flushRoot
  if sequence.phase ≠ .complete then .throw .corrupt else return superblock

def rejectPackageOverlap : M Unit := do
  let header ← readRecord packageHeaderLba
  if slice header 0 8 = packageMagic ∧ getLe header 32 8 > packageTransactionBaseLba then .throw .packageOverlap
  else return ()

/-- One round of the `load_inode_cache` loop; the state is the entries, their number and the first
free index. -/
def loadInode (superblock : Superblock) (catalog : Catalog) (state : Entries × Nat × Nat) (index : Nat) :
    M (Entries × Nat × Nat) := do
  let (entries, count, freeHint) := state
  let lba ← lift (inodeLba catalog.inodeTableBlock index)
  let record ← readRecord lba
  match ← lift (decodeOnVolume superblock record) with
  | none => return (entries, count, if index ≠ 0 ∧ freeHint = maximumInodes then index else freeHint)
  | some inode => return (entries.setIfInBounds index (some inode), count + 1, freeHint)

def loadInodeCache (superblock : Superblock) : M InodeCache := do
  let catalog ← readCatalog superblock
  if catalog.maximumInodes ≠ UInt32.ofNat maximumInodes then .throw .geometry
  else do
    let (entries, count, freeHint) ← foldEach (loadInode superblock catalog) (List.range maximumInodes)
      (Vector.replicate _ none, 0, maximumInodes)
    if count ≠ catalog.inodeCount.toNat ∨ entryAt entries 0 = none then .throw .corrupt
    else do
      let (_, sets) ← lift (metadataSets superblock.blockCount)
      match setPosition sets catalog.inodeTableBlock with
      | none => .throw .geometry
      | some activeSet => do
        let childIndex ← lift ((DirectoryIndex.rebuild entries).mapError fun _ => MountError.geometry)
        return {
          ready := true
          generation := catalog.generation
          inodeTableBlock := catalog.inodeTableBlock
          inodeCount := catalog.inodeCount
          freeHint
          entries
          childIndex
          metadataSets := sets
          inodeDirty := Vector.ofFn fun i => if i = activeSet then noneDirty else allDirty
          bitmapDirty := Vector.ofFn fun i => if i = activeSet then 0 else 0xffffffffffffffff }

/-- What an operation hands to `commit_inode_changes`. -/
structure Plan where
  active : Superblock
  catalog : Catalog
  change : Change

/-- Commit what was planned, if anything. -/
def perform (volume : Volume) : Option Plan → M Volume
  | none => .pure volume
  | some plan => commitInodeChanges volume plan.active plan.catalog plan.change

def normalizePlan (volume : Volume) (now : UInt64) : M (Option Plan) := do
  let active ← lift (activeSuperblock volume)
  let catalog ← activeCatalog volume active
  let root ← requireInode volume catalog 0
  if root.inode ≠ 1 ∨ root.parent ≠ 1 ∨ root.name ≠ rootName ∨ fileType root.mode ≠ modeDirectory then
    .throw .geometry
  else if root.mode = rootMode ∧ root.uid = initUid ∧ root.gid = initGid then return none
  else do
    let generation ← lift (nextGeneration active.generation)
    let root := { root with
                  generation, mode := rootMode, uid := initUid, gid := initGid,
                  changedSeconds := timestampSeconds now }
    let record ← lift (root.encode.mapError fun _ => .corrupt)
    return some ⟨active, catalog, ⟨0, record, none, 0, none⟩⟩

def normalizeUserRootPermissions (volume : Volume) (now : UInt64) : M Volume := do
  perform volume (← normalizePlan volume now)

def selectRoot (firstRecord secondRecord : Record) (blockCount : UInt64) : M (Superblock × Fin 2) := do
  let first ← (validateRoot firstRecord blockCount).attempt
  let second ← (validateRoot secondRecord blockCount).attempt
  lift ((newestSuperblock first second).mapError fun _ => .corrupt)

/-- Find the root to mount, formatting the disk when both roots are blank. -/
def findRoot (blockCount : UInt64) : M (Superblock × MountResult) := do
  let firstRecord ← readRecord superblockALba
  let secondRecord ← readRecord superblockBLba
  if isBlank firstRecord ∧ isBlank secondRecord then do
    let superblock ← format blockCount
    return (superblock, .formatted)
  else do
    let (superblock, _) ← selectRoot firstRecord secondRecord blockCount
    return (superblock, .mounted)

/-- Load the cache of a root and make it the active one. -/
def mountRoot (superblock : Superblock) (now : UInt64) : M Volume := do
  let cache ← loadInodeCache superblock
  normalizeUserRootPermissions (activate { Volume.unmounted with cache } superblock) now

def mountOrFormat (sectors : Nat) (now : UInt64) : M (MountResult × Volume) :=
  let diskBlocks := sectors / sectorsPerBlock
  if diskBlocks < minVolumeBlocks then .pure (.deferredSmallDisk, .unmounted)
  else do
    rejectPackageOverlap
    let (superblock, result) ← findRoot (UInt64.ofNat (min diskBlocks maxVolumeBlocks))
    let volume ← mountRoot superblock now
    return (result, volume)

end MakOS.MakFS4
