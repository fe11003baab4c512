/-
Reading, writing, seeking and truncating through a descriptor (`read_result`, `write_result`, `read_at`, `write_at`,
`seek`, `truncate`), on every kind of description, with the slices that the source takes.
-/
import MakOS.Vfs.Descriptors
import MakOS.Vfs.Storage

namespace MakOS.Vfs

open Data Data.Act

/-- A computation outside the tables -/
def outside {α : Type} (result : Except Stop α) : M α := look fun _ => result

/-- The answer of the shared memory -/
def shmemResult {α : Type} (result : Except DescriptorError α) : M α :=
  look fun _ => match result with
    | .error error => .error (.refused error)
    | .ok value => .ok value

namespace State

/-- The MakFS v3 file of a node, the boot file or the user file -/
def stored (s : State) : FileNode → Option StoredFile
  | .boot => some s.boot
  | .user => some s.user
  | .dynamic slot =>
    match s.dynamic[slot] with
    | none => none
    | some file => if file.kind = .file then some file.contents else none

def setStored (s : State) (contents : StoredFile) : FileNode → State
  | .boot => { s with boot := contents }
  | .user => { s with user := contents }
  | .dynamic slot =>
    match s.dynamic[slot] with
    | none => s
    | some file => { s with dynamic := s.dynamic.set slot (some { file with contents }) }

/-- `file_length`, for a description -/
def descriptionLength (image : Image) (answers : Answers) (s : State) : DescriptionKind → Option Nat
  | .file node => (s.stored node).map StoredFile.length
  | .systemFile file => some (image file).length
  -- the node of a package file is 0, the one of the boot file
  | .packageFile snapshot => if snapshot.used then some snapshot.size else some s.boot.length
  | .makfs4File inode =>
    match answers.volume.inode inode with
    | .ok (some info) => some info.size
    | _ => none
  | .makfs4Directory _ => answers.directoryLength
  | .packageDirectory _ => answers.directoryLength
  | .shmem _ => answers.shmemSize
  | _ => none

def setOffset (s : State) (index : Fin maxFileDescriptions) (offset : Nat) : State :=
  match s.descriptions[index] with
  | none => s
  | some description => { s with descriptions := s.descriptions.set index (some { description with offset }) }

/-- The array and the length that a read of a file looks at -/
def fileBytes (image : Image) (s : State) : DescriptionKind → Option (List UInt8 × Nat)
  | .file node => (s.stored node).map fun file => (file.data, file.length)
  | .systemFile file => some (image file, (image file).length)
  | _ => none

end State

/-- `description.offset.checked_add(count).ok_or(DescriptorError::TooLarge)?` -/
def advance (index : Fin maxFileDescriptions) (offset count : Nat) : M Unit := do
  guard (fun _ => decide (offset + count < wordRange)) (.refused .tooLarge)
  modify fun s => s.setOffset index (offset + count)

/-! ## Reading -/

def readPipeBytes (index : Fin maxPipes) (output : List UInt8) : M (Nat × List UInt8) :=
  if output = [] then return (0, output)
  else do
    let pipe ← need (fun s => s.pipes[index]) (.refused .badFile)
    if pipe.length = 0 then
      if pipe.writers = 0 then return (0, output) else fail (.refused .again)
    else do
      let count := min output.length pipe.length
      let bytes ← checked (readRing pipe.data pipe.head count)
      let output ← checked (copyInto output 0 count bytes)
      modify fun s => { s with pipes := s.pipes.set index (some { pipe with
        head := (pipe.head + count) % pipeBytes
        length := pipe.length - count }) }
      return (count, output)

/-- `output[..count].copy_from_slice(&data[offset..offset + count])` -/
def copyFrom (data : List UInt8) (length offset : Nat) (output : List UInt8) : M (Nat × List UInt8) := do
  let count := min output.length (length - offset)
  let bytes ← checked (slice data offset (offset + count))
  let output ← checked (copyInto output 0 count bytes)
  return (count, output)

def readPackage (answers : Answers) (snapshot : PackageSnapshot) (offset : Nat) (output : List UInt8) :
    M (Nat × List UInt8) := do
  guard (fun _ => snapshot.used) (.refused .badFile)
  let part ← checked (slice output 0 (min output.length (snapshot.size - offset)))
  let result ← outside (readPackageFile answers snapshot offset part)
  return (result.1, result.2 ++ output.drop (min output.length (snapshot.size - offset)))

def readFile (image : Image) (kind : DescriptionKind) (offset : Nat) (output : List UInt8) : M (Nat × List UInt8) := do
  let bytes ← need (fun s => s.fileBytes image kind) (.refused .badFile)
  copyFrom bytes.1 bytes.2 offset output

/-- A read at the offset of a description, by its kind -/
def readKind (image : Image) (answers : Answers) (file : OpenFile) (description : FileDescription) (output : List UInt8) :
    M (Nat × List UInt8) :=
  match description.kind with
  | .socketPair pipe _ => do
    let received ← readSocketpairWithRights file.ownerPid pipe output 0
    return (received.count, received.output)
  | .pipeRead pipe => readPipeBytes pipe output
  | .random => do
    let bytes ← need (fun _ => answers.random) (.refused .io)
    return (output.length, bytes)
  | .null => return (0, output)
  | .zero => return (output.length, List.replicate output.length 0)
  | .shmem _ => do
    let result ← shmemResult answers.shmemRead
    advance file.description description.offset result.1
    return result
  | .makfs4File inode => do
    let result ← outside (readInodeAt answers.volume inode description.offset output)
    advance file.description description.offset result.1
    return result
  | .packageFile snapshot => do
    let result ← readPackage answers snapshot description.offset output
    modify fun s => s.setOffset file.description (description.offset + result.1)
    return result
  | .file _ => do
    let result ← readFile image description.kind description.offset output
    modify fun s => s.setOffset file.description (description.offset + result.1)
    return result
  | .systemFile _ => do
    let result ← readFile image description.kind description.offset output
    modify fun s => s.setOffset file.description (description.offset + result.1)
    return result
  | _ => fail (.refused .badFile)

def readResult (image : Image) (answers : Answers) (ownerPid fd : Nat) (output : List UInt8) : M (Nat × List UInt8) := do
  let named ← need (fun s => s.described ownerPid fd) (.refused .badFile)
  guard (fun _ => named.2.readable) (.refused .badFile)
  readKind image answers named.1 named.2 output

/-- A read at a given offset. A system file is the only kind that lets an offset past the end through to the slice. -/
def readAtKind (image : Image) (answers : Answers) (description : FileDescription) (output : List UInt8) (offset : Nat) :
    M (Nat × List UInt8) :=
  match description.kind with
  | .makfs4File inode => outside (readInodeAt answers.volume inode offset output)
  | .shmem _ => shmemResult answers.shmemRead
  | .packageFile snapshot => do
    guard (fun _ => snapshot.used) (.refused .badFile)
    outside (readPackageFile answers snapshot offset output)
  | .file _ => do
    guard (fun _ => decide (offset ≤ maxFileBytes)) (.refused .tooLarge)
    readFile image description.kind offset output
  | .systemFile _ => readFile image description.kind offset output
  | _ => fail (.refused .badFile)

/-- The kinds that have no position -/
def DescriptionKind.unseekable : DescriptionKind → Bool
  | .pipeRead _ | .pipeWrite _ | .socketPair _ _ | .directory _ | .makfs4Directory _ | .packageDirectory _ => true
  | _ => false

def readAt (image : Image) (answers : Answers) (ownerPid fd : Nat) (output : List UInt8) (offset : Nat) :
    M (Nat × List UInt8) := do
  let named ← need (fun s => s.described ownerPid fd) (.refused .badFile)
  guard (fun _ => !named.2.kind.unseekable) (.refused .illegalSeek)
  guard (fun _ => named.2.readable) (.refused .badFile)
  readAtKind image answers named.2 output offset

/-! ## Writing -/

def writePipeBytes (index : Fin maxPipes) (input : List UInt8) : M Nat :=
  if input = [] then return 0
  else do
    let pipe ← need (fun s => s.pipes[index]) (.refused .badFile)
    guard (fun _ => pipe.readers != 0) (.refused .brokenPipe)
    guard (fun _ => !pipe.full input.length) (.refused .again)
    let count := min input.length (pipeBytes - pipe.length)
    let bytes ← checked (slice input 0 count)
    let data ← checked (writeRing pipe.data ((pipe.head + pipe.length) % pipeBytes) bytes)
    modify fun s => { s with pipes := s.pipes.set index (some { pipe with data, length := pipe.length + count }) }
    return count

/-- `store_user_file` and `store_dynamic_file`: the longest data they take, and the answer of the disk -/
def FileNode.limit : FileNode → Nat
  | .user => userFileLimit
  | _ => maxFileBytes

def FileNode.persists (node : FileNode) (answers : Answers) (data : List UInt8) : Bool :=
  decide (data.length ≤ node.limit) && answers.stored

/-- A file that can be written; the boot file cannot. -/
def State.rewritable (s : State) : FileNode → Option StoredFile
  | .boot => none
  | node => s.stored node

/-- Write a file's data to the disk, then to the tables. -/
def storeContents (answers : Answers) (node : FileNode) (data : List UInt8) (length : Nat) (error : DescriptorError) :
    M Unit := do
  let kept ← checked (slice data 0 length)
  guard (fun _ => node.persists answers kept) (.refused error)
  modify fun s => s.setStored ⟨data, length⟩ node

def writeFile (answers : Answers) (index : Fin maxFileDescriptions) (offset : Nat) (node : FileNode)
    (input : List UInt8) : M Nat := do
  let count := min input.length (maxFileBytes - offset)
  let contents ← need (fun s => s.rewritable node) (.refused .badFile)
  let bytes ← checked (slice input 0 count)
  let data ← checked (copyInto contents.data offset (offset + count) bytes)
  storeContents answers node data (max contents.length (offset + count)) .badFile
  modify fun s => s.setOffset index (offset + count)
  return count

def writeKind (answers : Answers) (file : OpenFile) (description : FileDescription) (input : List UInt8) : M Nat :=
  match description.kind with
  | .pipeWrite pipe => writePipeBytes pipe input
  | .socketPair _ peerPipe => writePipeBytes peerPipe input
  | .null => do
    guard (fun _ => description.writable) (.refused .badFile)
    return input.length
  | .zero => do
    guard (fun _ => description.writable) (.refused .badFile)
    return input.length
  | .makfs4File inode => do
    guard (fun _ => description.writable) (.refused .badFile)
    let count ← outside (writeInodeAt answers.volume inode description.offset input)
    advance file.description description.offset count
    return count
  | .shmem _ => do
    guard (fun _ => description.writable) (.refused .badFile)
    let count ← shmemResult answers.shmemWrite
    advance file.description description.offset count
    return count
  | .file node => do
    guard (fun _ => description.writable) (.refused .badFile)
    writeFile answers file.description description.offset node input
  | _ => fail (.refused .badFile)

def writeResult (answers : Answers) (ownerPid fd : Nat) (input : List UInt8) : M Nat := do
  let named ← need (fun s => s.described ownerPid fd) (.refused .badFile)
  writeKind answers named.1 named.2 input

/-- `data[length..offset].fill(0)` where the write starts after the end -/
def fillGap (contents : StoredFile) (offset : Nat) : Option (List UInt8) :=
  if offset > contents.length then fillRange contents.data contents.length offset 0 else some contents.data

def writeFileAt (answers : Answers) (node : FileNode) (input : List UInt8) (offset : Nat) : M Nat := do
  let contents ← need (fun s => s.rewritable node) (.refused .badFile)
  guard (fun _ => decide (offset < node.limit ∨ (offset = node.limit ∧ input = []))) (.refused .tooLarge)
  let count := min input.length (node.limit - offset)
  let data ← checked (fillGap contents offset)
  let bytes ← checked (slice input 0 count)
  let data ← checked (copyInto data offset (offset + count) bytes)
  storeContents answers node data (max contents.length (offset + count)) .io
  return count

def writeAtKind (answers : Answers) (description : FileDescription) (input : List UInt8) (offset : Nat) : M Nat :=
  match description.kind with
  | .makfs4File inode => do
    guard (fun _ => description.writable) (.refused .badFile)
    outside (writeInodeAt answers.volume inode offset input)
  | .shmem _ => do
    guard (fun _ => description.writable) (.refused .badFile)
    shmemResult answers.shmemWrite
  | .file node => do
    guard (fun _ => decide (offset ≤ maxFileBytes)) (.refused .tooLarge)
    guard (fun _ => description.writable) (.refused .badFile)
    writeFileAt answers node input offset
  | _ => do
    guard (fun _ => decide (offset ≤ maxFileBytes)) (.refused .tooLarge)
    fail (.refused .badFile)

def writeAt (answers : Answers) (ownerPid fd : Nat) (input : List UInt8) (offset : Nat) : M Nat := do
  let named ← need (fun s => s.described ownerPid fd) (.refused .badFile)
  guard (fun _ => !named.2.kind.unseekable) (.refused .illegalSeek)
  writeAtKind answers named.2 input offset

/-! ## Truncation and seeking -/

/-- The part of the array that a change of the length clears -/
def resize (contents : StoredFile) (length : Nat) : Option (List UInt8) :=
  if length > contents.length then fillRange contents.data contents.length length 0
  else fillRange contents.data length contents.length 0

def truncateFile (answers : Answers) (node : FileNode) (length : Nat) : M Unit := do
  guard (fun _ => decide (length ≤ maxFileBytes)) (.refused .tooLarge)
  let contents ← need (fun s => s.rewritable node) (.refused .badFile)
  guard (fun _ => decide (length ≤ node.limit)) (.refused .tooLarge)
  let data ← checked (resize contents length)
  storeContents answers node data length .io

def truncateKind (answers : Answers) (length : Nat) : DescriptionKind → M Unit
  | .shmem _ => shmemResult answers.shmemTruncate
  | .makfs4File inode => outside (truncateInode answers.volume inode length)
  | .file node => truncateFile answers node length
  | _ => fail (.refused .badFile)

def truncate (answers : Answers) (ownerPid fd length : Nat) : M Unit := do
  let named ← need (fun s => s.described ownerPid fd) (.refused .badFile)
  guard (fun _ => named.2.writable) (.refused .badFile)
  truncateKind answers length named.2.kind

/-- The length that a seek counts from, and the largest position it gives -/
def seekLength (image : Image) (answers : Answers) (s : State) : DescriptionKind → Option Nat
  | .directory _ => answers.directoryLength
  | .packageDirectory _ => answers.directoryLength
  | .packageFile snapshot => if snapshot.used then some snapshot.size else none
  | kind => s.descriptionLength image answers kind

def seekMaximum (answers : Answers) (length : Nat) : DescriptionKind → Nat
  | .systemFile _ => length
  | .packageFile _ => length
  | .makfs4File _ => answers.volume.maximum
  | .makfs4Directory _ => MakFS4.maximumInodes + 2
  | .packageDirectory _ => length
  | .shmem _ => length
  | _ => maxFileBytes

def seekBase (description : FileDescription) (length whence : Nat) : Option Int :=
  match whence with
  | 0 => some 0
  | 1 => some description.offset
  | 2 => some length
  | _ => none

/-- `(0..=maximum).contains(&next)` -/
def seekTarget (base offset : Int) (maximum : Nat) : Option Nat :=
  if 0 ≤ base + offset ∧ base + offset ≤ maximum then some (base + offset).toNat else none

def seek (image : Image) (answers : Answers) (ownerPid fd : Nat) (offset : Int) (whence : Nat) : M Nat := do
  let named ← need (fun s => s.described ownerPid fd) .failed
  let length ← need (fun s => seekLength image answers s named.2.kind) .failed
  let base ← need (fun _ => seekBase named.2 length whence) .failed
  let next ← need (fun _ => seekTarget base offset (seekMaximum answers length named.2.kind)) .failed
  modify fun s => s.setOffset named.1.description next
  return next

end MakOS.Vfs
