/-
The tables of the virtual file system (`kernel/src/vfs.rs`). A process names an open file by a small number; the
entry for it in the table of open files names a description, which processes share after a fork, a duplication or
a passed right. Pipes and the two directions of a socket pair are buffers in a table of their own. An entry that
the source marks as not used is `none` here; the source resets such entries to one fixed value.
-/
import MakOS.Data.Act
import MakOS.Data.Slots

namespace MakOS.Vfs

open Data

abbrev maxOpenFiles : Nat := 512
abbrev maxFileDescriptions : Nat := 256
abbrev maxPipes : Nat := 16
abbrev maxSocketRights : Nat := 200
abbrev maxWorkingDirectories : Nat := 32
abbrev maxRecordLocks : Nat := 64
abbrev pipeBytes : Nat := 512
abbrev maxFileBytes : Nat := 2048
abbrev dynamicFileCount : Nat := 16
abbrev dynamicNameBytes : Nat := 32
/-- The limit `store_user_file` has for the fixed user file -/
abbrev userFileLimit : Nat := 64
/-- `u8::MAX` -/
abbrev byteMax : Nat := 255

inductive DescriptorError
  | badFile
  | invalid
  | tooMany
  | again
  | brokenPipe
  | tooLarge
  | io
  | permission
  | busy
  | alreadyExists
  | notDirectory
  | notEmpty
  | notFound
  | illegalSeek
  | noSpace
  | loop
  deriving DecidableEq, Repr

/-- How a call ends without its result. A panic is an index or a slice out of range, or an `expect` that fails. -/
inductive Stop
  | panic
  /-- `None` or `false`, from a call that has no error codes -/
  | failed
  | refused (error : DescriptorError)
  deriving DecidableEq, Repr

/-! ## Descriptions -/

/-- The fixed files and the slots of the MakFS v3 files -/
inductive FileNode
  | boot
  | user
  | dynamic (slot : Fin dynamicFileCount)
  deriving DecidableEq, Repr

inductive DirectoryNode
  | root
  | home
  | user
  | dynamic (slot : Fin dynamicFileCount)
  deriving DecidableEq, Repr

/-- `SYSTEM_FILES`: the files that are part of the kernel image -/
inductive SystemFile
  | libc
  | libmakosdemo
  | execTarget
  | sharedDemo
  | stdint
  deriving DecidableEq, Repr

structure PackageSnapshot where
  used : Bool
  size : Nat
  firstLba : Nat
  sectors : Nat
  deriving DecidableEq, Repr

/-- The kind of a description, with the fields of the source that the kind uses. -/
inductive DescriptionKind
  | file (node : FileNode)
  | pipeRead (pipe : Fin maxPipes)
  | pipeWrite (pipe : Fin maxPipes)
  | directory (node : DirectoryNode)
  | systemFile (file : SystemFile)
  /-- `DESCRIPTION_SYSTEM_FILE` with a `package_file` -/
  | packageFile (snapshot : PackageSnapshot)
  | random
  | makfs4File (inode : Nat)
  | makfs4Directory (inode : Nat)
  | shmem (object : Nat)
  | null
  | zero
  | packageDirectory (path : List UInt8)
  | socketPair (pipe peerPipe : Fin maxPipes)
  deriving DecidableEq, Repr

/-- What a record lock is on: the file's node, or `0x1_0000 | inode`. -/
inductive LockKey
  | node (node : FileNode)
  | inode (inode : Nat)
  deriving DecidableEq, Repr

namespace DescriptionKind

/-- `description_lock_key` -/
def lockKey : DescriptionKind → Option LockKey
  | .file node => some (.node node)
  | .makfs4File inode => some (.inode inode)
  | _ => none

/-- The MakFS v3 slot of a description: the `node` that `unlink`, `remove_directory` and `rename` look for. -/
def dynamicSlot : DescriptionKind → Option (Fin dynamicFileCount)
  | .file (.dynamic slot) => some slot
  | .directory (.dynamic slot) => some slot
  | _ => none

/-- `makfs4_inode`, if there is one -/
def makfs4Inode : DescriptionKind → Option Nat
  | .makfs4File inode => some inode
  | .makfs4Directory inode => some inode
  | _ => none

/-- The buffers whose reader or writer this is -/
def pipes : DescriptionKind → List (Fin maxPipes)
  | .pipeRead pipe => [pipe]
  | .pipeWrite pipe => [pipe]
  | .socketPair pipe peerPipe => [pipe, peerPipe]
  | _ => []

end DescriptionKind

/-- `references` is a `u8`; the release build adds to it without a check, so it wraps at 256. -/
structure FileDescription where
  references : Nat
  kind : DescriptionKind
  offset : Nat
  readable : Bool
  writable : Bool
  /-- The access mode, without `STATUS_NONBLOCK` -/
  access : Nat
  nonblocking : Bool
  deriving DecidableEq, Repr

structure OpenFile where
  fd : Nat
  description : Fin maxFileDescriptions
  closeOnExec : Bool
  ownerPid : Nat
  deriving DecidableEq, Repr

/-- A buffer of bytes. `rights` are the descriptions of a message that has not been received yet; it comes with the
byte that has `rightsSkip` bytes before it. -/
structure Pipe where
  data : List UInt8
  head : Nat
  length : Nat
  readers : Nat
  writers : Nat
  rights : List (Fin maxFileDescriptions)
  rightsSkip : Nat
  deriving DecidableEq, Repr

/-- `Pipe { used: true, readers: 1, writers: 1, ..Pipe::EMPTY }` -/
def Pipe.fresh : Pipe where
  data := List.replicate pipeBytes 0
  head := 0
  length := 0
  readers := 1
  writers := 1
  rights := []
  rightsSkip := 0

/-! ## Files -/

/-- An array of `maxFileBytes` bytes and how many of them are the file. -/
structure StoredFile where
  data : List UInt8
  length : Nat
  deriving DecidableEq, Repr

def StoredFile.blank : StoredFile := ⟨List.replicate maxFileBytes 0, 0⟩

inductive NodeKind
  | file
  | directory
  deriving DecidableEq, Repr

structure DynamicFile where
  kind : NodeKind
  name : List UInt8
  contents : StoredFile
  deriving DecidableEq, Repr

structure WorkingDirectory where
  ownerPid : Nat
  path : List UInt8
  deriving DecidableEq, Repr

/-- A lock on the bytes from `start` to before `stop`. -/
structure RecordLock where
  exclusive : Bool
  key : LockKey
  ownerPid : Nat
  start : Nat
  stop : Nat
  deriving DecidableEq, Repr

structure State where
  mounted : Bool
  boot : StoredFile
  user : StoredFile
  dynamic : Slots (Option DynamicFile) dynamicFileCount
  files : Slots (Option OpenFile) maxOpenFiles
  descriptions : Slots (Option FileDescription) maxFileDescriptions
  pipes : Slots (Option Pipe) maxPipes
  workingDirectories : Slots (Option WorkingDirectory) maxWorkingDirectories
  recordLocks : Slots (Option RecordLock) maxRecordLocks
  deriving DecidableEq, Repr

/-- A call of the file system -/
abbrev M := Act State Stop

/-- `.ok_or(error)?` -/
def need {α : Type} (found : State → Option α) (stop : Stop) : M α :=
  Act.look fun s => (found s).elim (.error stop) .ok

/-- A slice, an index or an `expect` -/
def checked {α : Type} (value : Option α) : M α := Act.look fun _ => value.elim (.error .panic) .ok

section Rules

variable {α β : Type} {Q : State → Prop} {s : State} {f : α → M β}

theorem leaves_need {found : State → Option α} {stop : Stop} (h : Q s)
    (hok : ∀ a, found s = some a → Act.Leaves Q (f a) s) : Act.Leaves Q (need found stop >>= f) s := by
  refine Act.leaves_bind_look h fun a ha => hok a ?_
  cases hf : found s with
  | none => rw [hf] at ha; cases ha
  | some b => rw [hf] at ha; cases ha; rfl

theorem leaves_checked {value : Option α} (h : Q s) (hok : ∀ a, value = some a → Act.Leaves Q (f a) s) :
    Act.Leaves Q (checked value >>= f) s :=
  leaves_need h hok

end Rules

/-! ## Looking things up -/

namespace State

def descriptorSlot (s : State) (ownerPid fd : Nat) : Option (Fin maxOpenFiles) :=
  if fd ≤ byteMax then
    position (fun entry => entry.any fun file => file.ownerPid == ownerPid && file.fd == fd) s.files
  else none

/-- The open file with a number, and its description -/
def described (s : State) (ownerPid fd : Nat) : Option (OpenFile × FileDescription) := do
  let slot ← s.descriptorSlot ownerPid fd
  let file ← s.files[slot]
  let description ← s.descriptions[file.description]
  return (file, description)

def freeFile (s : State) : Option (Fin maxOpenFiles) := position Option.isNone s.files

def freeDescription (s : State) : Option (Fin maxFileDescriptions) := position Option.isNone s.descriptions

/-- `(first..=u8::MAX).find(|candidate| descriptor_slot(state, owner_pid, *candidate).is_none())` -/
def freeNumber (s : State) (ownerPid first : Nat) : Option Nat :=
  (List.range' first (byteMax + 1 - first)).find? fun candidate => (s.descriptorSlot ownerPid candidate).isNone

/-- The numbers that a process does not use, from 3 on -/
def freeNumbers (s : State) (ownerPid : Nat) : List Nat :=
  (List.range' 3 (byteMax + 1 - 3)).filter fun candidate => (s.descriptorSlot ownerPid candidate).isNone

def freeFiles (s : State) : List (Fin maxOpenFiles) := slotsWhere Option.isNone s.files

def freeDescriptions (s : State) : List (Fin maxFileDescriptions) := slotsWhere Option.isNone s.descriptions

def freePipes (s : State) : List (Fin maxPipes) := slotsWhere Option.isNone s.pipes

variable {s : State} {ownerPid fd : Nat} {slot : Fin maxOpenFiles}

theorem descriptorSlot_some (h : s.descriptorSlot ownerPid fd = some slot) :
    ∃ file, s.files[slot] = some file ∧ file.ownerPid = ownerPid ∧ file.fd = fd := by
  unfold descriptorSlot at h
  split at h
  · have hp := position_some h
    obtain ⟨file, hfile, htest⟩ := (Option.any_eq_true _ _).1 hp
    simp only [Bool.and_eq_true, beq_iff_eq] at htest
    exact ⟨file, hfile, htest.1, htest.2⟩
  · cases h

theorem described_some {file : OpenFile} {description : FileDescription}
    (h : s.described ownerPid fd = some (file, description)) :
    ∃ slot : Fin maxOpenFiles, s.files[slot] = some file ∧ s.descriptions[file.description] = some description := by
  unfold described at h
  simp only [Option.bind_eq_bind, Option.bind_eq_some_iff] at h
  obtain ⟨slot, -, file', hfile, description', hdescription, rfl, rfl⟩ := h
  exact ⟨slot, hfile, hdescription⟩

theorem freeFile_some (h : s.freeFile = some slot) : s.files[slot] = none := by
  simpa using position_some h

theorem freeDescription_some {d : Fin maxFileDescriptions} (h : s.freeDescription = some d) : s.descriptions[d] = none := by
  simpa using position_some h

end State

end MakOS.Vfs
