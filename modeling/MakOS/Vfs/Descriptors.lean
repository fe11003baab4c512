/-
The calls that make, copy, pass and close descriptors: `open_mode`, `pipe_pair`, `socket_pair`, the three
duplications, `send_result_with_rights`, `read_socketpair_with_rights`, `close`, `close_on_exec`, `close_all` and
`inherit_process`. The path of an `open` is a parameter as what it resolves to, with the caller's permission
already granted; the answer of the disk to a truncation is a parameter too.
-/
import MakOS.Data.Slice
import MakOS.Vfs.Release

namespace MakOS.Vfs

open Data Data.Act

/-! ## Opening -/

/-- What a path resolves to -/
inductive Target
  | shmem (object : Nat)
  | directory (node : DirectoryNode)
  | random
  | null
  | zero
  | boot
  | user
  | systemFile (file : SystemFile)
  | package (snapshot : PackageSnapshot)
  | packageDirectory (path : List UInt8)
  | makfs4File (inode : Nat)
  | makfs4Directory (inode : Nat)
  | dynamic (slot : Fin dynamicFileCount)
  deriving DecidableEq, Repr

namespace State

/-- The kind of the description for a target, unless it cannot be opened for writing -/
def describe (s : State) (writable : Bool) : Target → Option DescriptionKind
  | .shmem object => some (.shmem object)
  | .directory (.dynamic _) => none
  | .directory node => if writable then none else some (.directory node)
  | .random => if writable then none else some .random
  | .null => some .null
  | .zero => some .zero
  | .boot => if writable then none else some (.file .boot)
  | .user => some (.file .user)
  | .systemFile file => if writable then none else some (.systemFile file)
  | .package snapshot => if writable then none else some (.packageFile snapshot)
  | .packageDirectory path => if writable then none else some (.packageDirectory path)
  | .makfs4File inode => some (.makfs4File inode)
  | .makfs4Directory inode => if writable then none else some (.makfs4Directory inode)
  | .dynamic slot =>
    match s.dynamic[slot] with
    | none => none
    | some file =>
      match file.kind with
      | .file => some (.file (.dynamic slot))
      | .directory => if writable then none else some (.directory (.dynamic slot))

/-- Empty the file that is opened. A file of MakFS4 and a shared memory object are outside these tables. -/
def truncateOpened (s : State) : DescriptionKind → Option State
  | .shmem _ => some s
  | .makfs4File _ => some s
  | .file .user => some { s with user := .blank }
  | .file (.dynamic slot) =>
    match s.dynamic[slot] with
    | none => none
    | some file =>
      match file.kind with
      | .file => some { s with dynamic := s.dynamic.set slot (some { file with contents := .blank }) }
      | .directory => none
  | _ => none

/-- Fill a slot of the open files and a description. -/
def install (s : State) (slot : Fin maxOpenFiles) (file : OpenFile) (description : FileDescription) : State :=
  { s with
    files := s.files.set slot (some file)
    descriptions := s.descriptions.set file.description (some description) }

end State

/-- `stored` is whether the disk, MakFS4 or the shared memory took the truncation. -/
def openMode (ownerPid : Nat) (target : Target) (access : Nat) (truncate stored : Bool) : M Nat := do
  guard (fun s => decide (access ≤ 2) && !(truncate && access == 0) && s.mounted) .failed
  let kind ← need (fun s => s.describe (access != 0) target) .failed
  let slot ← need State.freeFile .failed
  let fd ← need (fun s => s.freeNumber ownerPid 3) .failed
  let description ← need State.freeDescription .failed
  guard (fun _ => !truncate || stored) .failed
  let s ← need (fun s => if truncate then s.truncateOpened kind else some s) .failed
  modify fun _ => s.install slot ⟨fd, description, false, ownerPid⟩ ⟨1, kind, 0, access != 1, access != 0, access, false⟩
  return fd

def firstTwo {α : Type} : List α → Option (α × α)
  | first :: second :: _ => some (first, second)
  | _ => none

def pipePair (ownerPid : Nat) (closeOnExec nonblocking : Bool) : M (Nat × Nat) := do
  let pipe ← need (fun s => position Option.isNone s.pipes) (.refused .tooMany)
  let slots ← need (fun s => firstTwo s.freeFiles) (.refused .tooMany)
  let descriptions ← need (fun s => firstTwo s.freeDescriptions) (.refused .tooMany)
  let numbers ← need (fun s => firstTwo (s.freeNumbers ownerPid)) (.refused .tooMany)
  modify fun s => { s with pipes := s.pipes.set pipe (some .fresh) }
  modify fun s => s.install slots.1 ⟨numbers.1, descriptions.1, closeOnExec, ownerPid⟩
    ⟨1, .pipeRead pipe, 0, true, false, 0, nonblocking⟩
  modify fun s => s.install slots.2 ⟨numbers.2, descriptions.2, closeOnExec, ownerPid⟩
    ⟨1, .pipeWrite pipe, 0, false, true, 1, nonblocking⟩
  return numbers

def socketPair (ownerPid : Nat) (closeOnExec nonblocking : Bool) : M (Nat × Nat) := do
  let pipes ← need (fun s => firstTwo s.freePipes) (.refused .tooMany)
  let slots ← need (fun s => firstTwo s.freeFiles) (.refused .tooMany)
  let descriptions ← need (fun s => firstTwo s.freeDescriptions) (.refused .tooMany)
  let numbers ← need (fun s => firstTwo (s.freeNumbers ownerPid)) (.refused .tooMany)
  modify fun s => { s with pipes := (s.pipes.set pipes.1 (some .fresh)).set pipes.2 (some .fresh) }
  modify fun s => s.install slots.1 ⟨numbers.1, descriptions.1, closeOnExec, ownerPid⟩
    ⟨1, .socketPair pipes.1 pipes.2, 0, true, true, 2, nonblocking⟩
  modify fun s => s.install slots.2 ⟨numbers.2, descriptions.2, closeOnExec, ownerPid⟩
    ⟨1, .socketPair pipes.2 pipes.1, 0, true, true, 2, nonblocking⟩
  return numbers

/-! ## Duplication -/

/-- `references += 1`, in a `u8` -/
def addReference (descriptions : Slots (Option FileDescription) maxFileDescriptions)
    (index : Fin maxFileDescriptions) : Slots (Option FileDescription) maxFileDescriptions :=
  match descriptions[index] with
  | none => descriptions
  | some description =>
    descriptions.set index (some { description with references := (description.references + 1) % (byteMax + 1) })

/-- Fill a slot with one more descriptor of a description that is in use. -/
def State.share (s : State) (destination : Fin maxOpenFiles) (file : OpenFile) : State :=
  { s with
    files := s.files.set destination (some file)
    descriptions := addReference s.descriptions file.description }

def shareUnlessFull (destination : Fin maxOpenFiles) (file : OpenFile) (stop : Stop) : M Unit := do
  guard (fun s => s.descriptions[file.description].any fun description => description.references != byteMax) stop
  modify fun s => s.share destination file

def duplicate (ownerPid fd : Nat) : M Nat := do
  let slot ← need (fun s => s.descriptorSlot ownerPid fd) .failed
  let file ← need (fun s => s.files[slot]) .failed
  let newFd ← need (fun s => s.freeNumber ownerPid 3) .failed
  let destination ← need State.freeFile .failed
  shareUnlessFull destination { file with fd := newFd, closeOnExec := false } .failed
  return newFd

def duplicateMin (ownerPid fd minimum : Nat) (closeOnExec : Bool) : M Nat := do
  guard (fun _ => decide (minimum ≤ byteMax)) (.refused .invalid)
  let slot ← need (fun s => s.descriptorSlot ownerPid fd) (.refused .badFile)
  let file ← need (fun s => s.files[slot]) (.refused .badFile)
  let newFd ← need (fun s => s.freeNumber ownerPid (max minimum 3)) (.refused .tooMany)
  let destination ← need State.freeFile (.refused .tooMany)
  shareUnlessFull destination { file with fd := newFd, closeOnExec } (.refused .tooMany)
  return newFd

namespace State

/-- Clear a slot of the open files and give up its reference. -/
def dropFile (s : State) (slot : Fin maxOpenFiles) (file : OpenFile) : State :=
  { s with files := s.files.set slot none }.release file.description

/-- The key of the record locks that go with a descriptor -/
def lockKeyOf (s : State) (file : OpenFile) : Option LockKey :=
  s.descriptions[file.description].bind fun description => description.kind.lockKey

/-- Close one descriptor: the owner's record locks on the file go with it. -/
def closeSlot (s : State) (slot : Fin maxOpenFiles) (file : OpenFile) : State :=
  match s.lockKeyOf file with
  | none => s.dropFile slot file
  | some key => (s.dropFile slot file).releaseRecordLocks file.ownerPid key

end State

/-- The slot for the new number: the one that has it, after it is closed, or a free one. -/
def duplicateTarget (ownerPid newFd : Nat) : M (Fin maxOpenFiles) := fun s =>
  match s.descriptorSlot ownerPid newFd with
  | none => (s.freeFile.elim (.error (.refused .tooMany)) .ok, s)
  | some slot =>
    match s.files[slot] with
    | none => (.error (.refused .badFile), s)
    | some file => (.ok slot, s.closeSlot slot file)

/-- When the description already has 255 references the call fails, with the old file of the new number closed. -/
def duplicateTo (ownerPid fd newFd : Nat) (closeOnExec : Bool) : M Nat := do
  guard (fun _ => decide (3 ≤ newFd ∧ newFd ≤ byteMax ∧ fd ≠ newFd)) (.refused .invalid)
  let slot ← need (fun s => s.descriptorSlot ownerPid fd) (.refused .badFile)
  let file ← need (fun s => s.files[slot]) (.refused .badFile)
  let destination ← duplicateTarget ownerPid newFd
  shareUnlessFull destination { file with fd := newFd, closeOnExec } (.refused .tooMany)
  return newFd

/-! ## Passing descriptors -/

/-- The bytes of a buffer are written after the last one, around its end. -/
def writeRing (data : List UInt8) (tail : Nat) (input : List UInt8) : Option (List UInt8) :=
  input.zipIdx.foldlM (fun data (byte, offset) => store data ((tail + offset) % pipeBytes) byte) data

def readRing (data : List UInt8) (head count : Nat) : Option (List UInt8) :=
  (List.range count).mapM fun offset => data[(head + offset) % pipeBytes]?

/-- The descriptions of the descriptors to pass. Each must have room for one more reference besides the ones
that this message has already taken. -/
def checkRights (ownerPid : Nat) (s : State) : (fds : List Nat) → (queued : List (Fin maxFileDescriptions)) →
    Except Stop (List (Fin maxFileDescriptions))
  | [], queued => .ok queued
  | fd :: rest, queued =>
    match s.described ownerPid fd with
    | none => .error (.refused .badFile)
    | some (file, description) =>
      if description.references + queued.count file.description ≥ byteMax then .error (.refused .tooMany)
      else checkRights ownerPid s rest (queued ++ [file.description])

/-- The buffer that a writable endpoint of a socket pair writes -/
def writtenPipe (description : FileDescription) : Option (Fin maxPipes) :=
  match description.kind with
  | .socketPair _ peerPipe => if description.writable then some peerPipe else none
  | _ => none

/-- The buffer that a readable endpoint of a socket pair reads -/
def readPipe (description : FileDescription) : Option (Fin maxPipes) :=
  match description.kind with
  | .socketPair pipe _ => if description.readable then some pipe else none
  | _ => none

/-- Nothing can be written, or a write that could be done at once would be cut. -/
def Pipe.full (pipe : Pipe) (wanted : Nat) : Bool :=
  decide (pipeBytes - pipe.length = 0 ∨ (wanted ≤ pipeBytes ∧ pipeBytes - pipe.length < wanted))

/-- Put bytes and rights into a buffer. -/
def Pipe.append (pipe : Pipe) (data : List UInt8) (count : Nat) (rights : List (Fin maxFileDescriptions)) : Pipe :=
  if rights = [] then { pipe with data, length := pipe.length + count }
  else { pipe with data, length := pipe.length + count, rights, rightsSkip := pipe.length }

/-- The part of a send that has the buffer, `index`. -/
def sendInto (ownerPid : Nat) (index : Fin maxPipes) (input : List UInt8) (rightsFds : List Nat) : M Nat := do
  let pipe ← need (fun s => s.pipes[index]) (.refused .badFile)
  guard (fun _ => pipe.readers != 0) (.refused .brokenPipe)
  guard (fun _ => rightsFds.isEmpty || pipe.rights.isEmpty) (.refused .again)
  guard (fun _ => !pipe.full input.length) (.refused .again)
  let rights ← look fun s => checkRights ownerPid s rightsFds []
  let count := min input.length (pipeBytes - pipe.length)
  let bytes ← checked (slice input 0 count)
  let data ← checked (writeRing pipe.data ((pipe.head + pipe.length) % pipeBytes) bytes)
  modify fun s => { s with
    descriptions := rights.foldl addReference s.descriptions
    pipes := s.pipes.set index (some (pipe.append data count rights)) }
  return count

def sendResultWithRights (ownerPid fd : Nat) (input : List UInt8) (rightsFds : List Nat) : M Nat := do
  guard (fun _ => decide (rightsFds.length ≤ maxSocketRights)) (.refused .invalid)
  let named ← need (fun s => s.described ownerPid fd) (.refused .badFile)
  let index ← need (fun _ => writtenPipe named.2) (.refused .badFile)
  if input = [] then return 0 else sendInto ownerPid index input rightsFds

/-- What a receive gives: the buffer it was given, how many bytes of it are filled, and the new descriptors. -/
structure Received where
  output : List UInt8
  count : Nat
  numbers : List Nat
  deriving DecidableEq, Repr

/-- Take bytes, and the rights if the byte they came with is among them. -/
def Pipe.consume (pipe : Pipe) (count : Nat) (deliver : Bool) : Pipe :=
  { pipe with
    head := (pipe.head + count) % pipeBytes
    length := pipe.length - count
    rights := if deliver then [] else pipe.rights
    rightsSkip := if deliver then 0 else if pipe.rights = [] then pipe.rightsSkip else pipe.rightsSkip - count }

/-- Descriptors for received rights -/
def State.adopt (s : State) (ownerPid : Nat) : List (Fin maxOpenFiles × Nat × Fin maxFileDescriptions) → State
  | [] => s
  | (slot, fd, description) :: rest =>
    State.adopt { s with files := s.files.set slot (some ⟨fd, description, false, ownerPid⟩) } ownerPid rest

/-- The part of a receive from a buffer with bytes in it. Rights beyond the room the caller has for them are given
up. -/
def receiveFrom (ownerPid : Nat) (index : Fin maxPipes) (pipe : Pipe) (output : List UInt8) (rightsOut : Nat) :
    M Received := do
  let count := min output.length pipe.length
  let deliver := !pipe.rights.isEmpty && decide (count > pipe.rightsSkip)
  let queued := if deliver then pipe.rights else []
  let received := min queued.length rightsOut
  let slots ← look fun s => .ok (s.freeFiles.take received)
  guard (fun _ => slots.length == received) (.refused .tooMany)
  let numbers ← look fun s => .ok ((s.freeNumbers ownerPid).take received)
  guard (fun _ => numbers.length == received) (.refused .tooMany)
  guard (fun s => queued.all fun description => s.descriptions[description].isSome) (.refused .io)
  let bytes ← checked (readRing pipe.data pipe.head count)
  let output ← checked (copyInto output 0 count bytes)
  modify fun s => { s with pipes := s.pipes.set index (some (pipe.consume count deliver)) }
  modify fun s => s.adopt ownerPid (slots.zip (numbers.zip queued))
  modify fun s => s.releaseAll (queued.drop received)
  return ⟨output, count, numbers⟩

def readSocketpairWithRights (ownerPid : Nat) (index : Fin maxPipes) (output : List UInt8) (rightsOut : Nat) :
    M Received :=
  if output = [] then return ⟨output, 0, []⟩
  else do
    let pipe ← need (fun s => s.pipes[index]) (.refused .badFile)
    if pipe.length = 0 then
      if pipe.writers = 0 then return ⟨output, 0, []⟩ else fail (.refused .again)
    else receiveFrom ownerPid index pipe output rightsOut

def readResultWithRights (ownerPid fd : Nat) (output : List UInt8) (rightsOut : Nat) : M Received := do
  let named ← need (fun s => s.described ownerPid fd) (.refused .badFile)
  let index ← need (fun _ => readPipe named.2) (.refused .badFile)
  readSocketpairWithRights ownerPid index output rightsOut

/-! ## Closing -/

def close (ownerPid fd : Nat) : M Unit := do
  let slot ← need (fun s => s.descriptorSlot ownerPid fd) .failed
  let file ← need (fun s => s.files[slot]) .failed
  modify fun s => s.closeSlot slot file

namespace State

def closeOnExecSlot (pid : Nat) (s : State) (slot : Fin maxOpenFiles) : State :=
  match s.files[slot] with
  | none => s
  | some file => if file.ownerPid = pid ∧ file.closeOnExec then s.closeSlot slot file else s

def closeOnExec (s : State) (pid : Nat) : State := (List.finRange maxOpenFiles).foldl (closeOnExecSlot pid) s

def closeOwnedSlot (pid : Nat) (s : State) (slot : Fin maxOpenFiles) : State :=
  match s.files[slot] with
  | none => s
  | some file => if file.ownerPid = pid then s.dropFile slot file else s

/-- Forget the working directory and the record locks of a process. -/
def forgetOwner (s : State) (pid : Nat) : State :=
  { s with
    workingDirectories := s.workingDirectories.map fun entry => if entry.any (·.ownerPid == pid) then none else entry
    recordLocks := s.recordLocks.map fun lock => if lock.any (·.ownerPid == pid) then none else lock }

def closeAll (s : State) (pid : Nat) : State :=
  ((List.finRange maxOpenFiles).foldl (closeOwnedSlot pid) s).forgetOwner pid

end State

/-! ## Fork -/

namespace State

def ownedBy (pid : Nat) (entry : Option OpenFile) : Bool := entry.any fun file => file.ownerPid == pid

def holds (pid : Nat) (index : Fin maxFileDescriptions) (entry : Option OpenFile) : Bool :=
  entry.any fun file => file.ownerPid == pid && file.description == index

def holders (s : State) (pid : Nat) (index : Fin maxFileDescriptions) : Nat := s.files.toList.countP (holds pid index)

def workingDirectoryOf (s : State) (pid : Nat) : Option WorkingDirectory :=
  (s.workingDirectories.toList.find? fun entry => entry.any (·.ownerPid == pid)).join

/-- `inherit_process` looks at each descriptor of the parent once, also when several name one description. -/
def canInherit (s : State) (parentPid childPid : Nat) : Bool :=
  decide (s.files.toList.countP (ownedBy parentPid) ≤ s.files.toList.countP Option.isNone) &&
  !s.files.toList.any (ownedBy childPid) &&
  s.files.toList.all (fun entry => !ownedBy parentPid entry || entry.any fun file =>
    s.descriptions[file.description].any fun description => description.references != byteMax) &&
  ((s.workingDirectoryOf parentPid).isNone || s.workingDirectories.toList.any Option.isNone)

end State

def inheritFile (parentPid childPid : Nat) (slot : Fin maxOpenFiles) : M Unit := fun s =>
  match s.files[slot] with
  | none => (.ok (), s)
  | some file =>
    if file.ownerPid = parentPid then
      match s.freeFile with
      | none => (.error .panic, s)
      | some destination => (.ok (), s.share destination { file with ownerPid := childPid })
    else (.ok (), s)

/-- The parent's working directory -/
def inheritWorkingDirectory (parentPid childPid : Nat) : M Unit := fun s =>
  match s.workingDirectoryOf parentPid with
  | none => (.ok (), s)
  | some directory =>
    match position Option.isNone s.workingDirectories with
    | none => (.error .panic, s)
    | some destination =>
      (.ok (), { s with workingDirectories :=
        s.workingDirectories.set destination (some { directory with ownerPid := childPid }) })

def inheritProcess (parentPid childPid : Nat) : M Unit := do
  guard (fun _ => parentPid != 0 && childPid != 0 && parentPid != childPid) .failed
  guard (fun s => s.canInherit parentPid childPid) .failed
  each (inheritFile parentPid childPid) (List.finRange maxOpenFiles)
  inheritWorkingDirectory parentPid childPid

end MakOS.Vfs
