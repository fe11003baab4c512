/-
What is behind a file: the answers of the disk, of the MakFS4 volume and of the shared memory to one call, and the
loops that copy between them and the caller's buffer (`read_package_file`, `read_inode_at` and `rewrite_inode`).
The answers are parameters of a call; the loops are here with the slices they take.
-/
import MakOS.Data.Slice
import MakOS.MakFS4.Volume
import MakOS.Vfs.Tables

namespace MakOS.Vfs

open Data MakFS4

/-- `2^64` -/
abbrev wordRange : Nat := 2 ^ 64

/-- The data of the files in the kernel image -/
abbrev Image := SystemFile → List UInt8

inductive InodeKind
  | file
  | directory
  | symlink
  deriving DecidableEq, Repr

structure InodeInfo where
  kind : InodeKind
  size : Nat
  deriving DecidableEq, Repr

/-- What the MakFS4 volume answers during a call -/
structure VolumeAnswers where
  /-- `read_inode_from`, with the errors of finding the disk and the catalog -/
  inode : Nat → Except MountError (Option InodeInfo)
  /-- `validate_on_volume` -/
  valid : Bool
  /-- `read_inode_block` -/
  block : Nat → Except MountError (Vector UInt8 blockBytes)
  /-- `active.block_count - active.data_start` -/
  dataBlocks : Nat
  /-- The bitmap and the extents of a rewrite: how many blocks it keeps -/
  keptBlocks : Except MountError Nat
  /-- `write_block` -/
  written : Nat → Bool
  /-- The release of the old extents and `commit_inode_change` -/
  commit : Except MountError Unit
  /-- `maximum_file_bytes` -/
  maximum : Nat

/-- What is outside the tables during a call -/
structure Answers where
  volume : VolumeAnswers
  /-- `store_dynamic_file`, `store_dynamic_directory`, `store_user_file`: the disk took the write -/
  stored : Bool
  /-- `read_sector` of the data disk -/
  sector : Nat → Option (Vector UInt8 recordBytes)
  /-- `aarch64_virtio_rng::fill` -/
  random : Option (List UInt8)
  /-- `aarch64_shmem::read` and `write` -/
  shmemRead : Except DescriptorError (Nat × List UInt8)
  shmemWrite : Except DescriptorError Nat
  shmemTruncate : Except DescriptorError Unit
  shmemSize : Option Nat
  /-- The number of entries of a directory -/
  directoryLength : Option Nat

def makfs4Error : MountError → DescriptorError
  | .noSpace => .noSpace
  | .geometry => .invalid
  | .io | .corrupt | .packageOverlap => .io

/-- `.map_err(makfs4_error)` -/
def volumeResult {α : Type} : Except MountError α → Except Stop α
  | .error error => .error (.refused (makfs4Error error))
  | .ok value => .ok value

/-- `.ok_or(error)?` -/
def orStop {α : Type} (value : Option α) (stop : Stop) : Except Stop α := value.elim (.error stop) .ok

/-- An early return with an error -/
def ensure (test : Bool) (stop : Stop) : Except Stop Unit := if test then .ok () else .error stop

/-! ## Package files -/

def readSectors8 (answers : Answers) (lba : Nat) : Option (List UInt8) :=
  ((List.range 8).mapM fun i => (answers.sector (lba + i)).map Vector.toList).map List.flatten

/-- The next piece of a package file: eight sectors at once where they are all wanted -/
def packageTurn (answers : Answers) (snapshot : PackageSnapshot) (offset count copied : Nat) :
    Except Stop (List UInt8 × Nat × Nat) :=
  if (offset + copied) / 512 ≥ snapshot.sectors ∨ snapshot.firstLba + (offset + copied) / 512 ≥ 2 ^ 32 then
    .error (.refused .io)
  else if (offset + copied) % 512 = 0 ∧ count - copied ≥ 4096 ∧ (offset + copied) / 512 + 8 ≤ snapshot.sectors then do
    let block ← orStop (readSectors8 answers (snapshot.firstLba + (offset + copied) / 512)) (.refused .io)
    return (block, 0, 4096)
  else do
    let sector ← orStop (answers.sector (snapshot.firstLba + (offset + copied) / 512)) (.refused .io)
    return (sector.toList, (offset + copied) % 512, min (512 - (offset + copied) % 512) (count - copied))

/-- `read_package_file`; its `None` is an `Io` error of both callers. -/
def readPackageFile (answers : Answers) (snapshot : PackageSnapshot) (offset : Nat) (output : List UInt8) :
    Except Stop (Nat × List UInt8) := do
  ensure (snapshot.used && decide (offset ≤ snapshot.size)) (.refused .io)
  let count := min output.length (snapshot.size - offset)
  let output ← copyChunks .panic (packageTurn answers snapshot offset count) count count 0 output
  return (count, output)

/-! ## MakFS4 files -/

def blockTurn (volume : VolumeAnswers) (offset count copied : Nat) : Except Stop (List UInt8 × Nat × Nat) := do
  let block ← volumeResult (volume.block ((offset + copied) / blockBytes))
  return (block.toList, (offset + copied) % blockBytes,
    min (count - copied) (blockBytes - (offset + copied) % blockBytes))

/-- The inode with an index, which has to be there -/
def requireInfo (volume : VolumeAnswers) (index : Nat) : Except Stop InodeInfo := do
  let inode ← volumeResult (volume.inode index)
  orStop inode (.refused .invalid)

def readInodeAt (volume : VolumeAnswers) (index offset : Nat) (output : List UInt8) : Except Stop (Nat × List UInt8) := do
  let inode ← requireInfo volume index
  ensure (decide (inode.kind ≠ .directory)) (.refused .invalid)
  ensure volume.valid (.refused .io)
  if inode.size ≤ offset ∨ output = [] then return (0, output)
  else do
    let count := min output.length (inode.size - offset)
    let output ← copyChunks .panic (blockTurn volume offset count) count count 0 output
    return (count, output)

/-- `block[destination..destination + amount].copy_from_slice(&patch[source..source + amount])` -/
def patchBlock (block : List UInt8) (blockStart patchOffset patchEnd : Nat) (patch : List UInt8) :
    Except Stop (List UInt8) :=
  let copyStart := max blockStart patchOffset
  let copyEnd := min (blockStart + blockBytes) patchEnd
  if copyStart < copyEnd then do
    let part ← orStop (slice patch (copyStart - patchOffset) (copyStart - patchOffset + (copyEnd - copyStart))) .panic
    orStop (copyInto block (copyStart - blockStart) (copyStart - blockStart + (copyEnd - copyStart)) part) .panic
  else return block

/-- `block[valid..].fill(0)` past the end of the file -/
def clearTail (block : List UInt8) (blockStart newSize : Nat) : Except Stop (List UInt8) :=
  if blockStart + blockBytes > newSize then orStop (fillRange block (newSize - blockStart) block.length 0) .panic
  else return block

/-- The block as it was, unless all of it is past the end or written over -/
def oldBlock (volume : VolumeAnswers) (size blockStart patchOffset patchEnd fileBlock : Nat) :
    Except Stop (List UInt8) :=
  if blockStart < size ∧ ¬ (patchOffset ≤ blockStart ∧ patchEnd ≥ blockStart + blockBytes) then do
    let block ← volumeResult (volume.block fileBlock)
    return block.toList
  else return List.replicate blockBytes 0

def rewriteBlock (volume : VolumeAnswers) (size patchOffset patchEnd newSize : Nat) (patch : List UInt8)
    (fileBlock : Nat) : Except Stop Unit := do
  let block ← oldBlock volume size (fileBlock * blockBytes) patchOffset patchEnd fileBlock
  let block ← patchBlock block (fileBlock * blockBytes) patchOffset patchEnd patch
  let _ ← clearTail block (fileBlock * blockBytes) newSize
  ensure (volume.written fileBlock) (.refused .io)

/-- The blocks of a rewrite, one after the other -/
def rewriteBlocks (turn : Nat → Except Stop Unit) : List Nat → Except Stop Unit
  | [] => return ()
  | fileBlock :: rest => do
    turn fileBlock
    rewriteBlocks turn rest

def rewriteInode (volume : VolumeAnswers) (index : Nat) (requestedSize : Option Nat) (patchOffset : Nat)
    (patch : List UInt8) : Except Stop Unit := do
  let inode ← requireInfo volume index
  ensure (decide (inode.kind = .file)) (.refused .invalid)
  ensure volume.valid (.refused .io)
  ensure (decide (patchOffset + patch.length < wordRange)) (.refused .invalid)
  let patchEnd := patchOffset + patch.length
  let newSize := requestedSize.getD (max inode.size patchEnd)
  ensure (decide (patchEnd ≤ newSize)) (.refused .invalid)
  if patch = [] ∧ requestedSize = some inode.size then return ()
  else do
    let neededBlocks := (newSize + blockBytes - 1) / blockBytes
    ensure (decide (neededBlocks ≤ volume.dataBlocks)) (.refused .noSpace)
    let keptBlocks ← volumeResult volume.keptBlocks
    rewriteBlocks (rewriteBlock volume inode.size patchOffset patchEnd newSize patch)
      (List.range' keptBlocks (neededBlocks - keptBlocks))
    volumeResult volume.commit

def writeInodeAt (volume : VolumeAnswers) (index offset : Nat) (input : List UInt8) : Except Stop Nat :=
  if input = [] then return 0
  else do
    rewriteInode volume index none offset input
    return input.length

def truncateInode (volume : VolumeAnswers) (index size : Nat) : Except Stop Unit :=
  rewriteInode volume index (some size) 0 []

end MakOS.Vfs
