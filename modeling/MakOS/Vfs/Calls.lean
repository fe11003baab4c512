/-
Every call of the file system as one type, a step of the tables for each, and what each does to the references.
-/
import MakOS.Vfs.Effects
import MakOS.Vfs.Locks
import MakOS.Vfs.Nodes

namespace MakOS.Vfs

open Data Data.Act

/-- A call by a process, with what its environment answers. Calls that only look something up are left out. -/
inductive Call
  | openMode (pid : Nat) (target : Target) (access : Nat) (truncate stored : Bool)
  | pipePair (pid : Nat) (closeOnExec nonblocking : Bool)
  | socketPair (pid : Nat) (closeOnExec nonblocking : Bool)
  | duplicate (pid fd : Nat)
  | duplicateTo (pid fd newFd : Nat) (closeOnExec : Bool)
  | duplicateMin (pid fd minimum : Nat) (closeOnExec : Bool)
  | send (pid fd : Nat) (input : List UInt8) (rightsFds : List Nat)
  | receive (pid fd : Nat) (output : List UInt8) (rightsOut : Nat)
  | close (pid fd : Nat)
  | closeOnExec (pid : Nat)
  | closeAll (pid : Nat)
  | inheritProcess (parentPid childPid : Nat)
  | read (answers : Answers) (pid fd : Nat) (output : List UInt8)
  | readAt (answers : Answers) (pid fd : Nat) (output : List UInt8) (offset : Nat)
  | write (answers : Answers) (pid fd : Nat) (input : List UInt8)
  | writeAt (answers : Answers) (pid fd : Nat) (input : List UInt8) (offset : Nat)
  | seek (answers : Answers) (pid fd : Nat) (offset : Int) (whence : Nat)
  | truncate (answers : Answers) (pid fd length : Nat)
  | getFileLock (answers : Answers) (pid fd : Nat) (lock : FileLock)
  | setFileLock (answers : Answers) (pid fd : Nat) (lock : FileLock)
  | create (answers : Answers) (name : List UInt8)
  | createDirectory (answers : Answers) (name : List UInt8)
  | unlink (answers : Answers) (name : List UInt8)
  | removeDirectory (answers : Answers) (path name : List UInt8)
  | rename (answers : Answers) (source destination : List UInt8)
  | changeWorkingDirectory (pid : Nat) (path : List UInt8)
  | readDirectory (pid fd : Nat) (next : Option Nat)
  | setDescriptorFlags (pid fd flags : Nat)
  | setStatusFlags (pid fd : Nat) (valid nonblocking : Bool)

/-- A call, without its result -/
def done {α : Type} (x : M α) : M Unit := fun s => ((x s).1.map fun _ => (), (x s).2)

def Call.act (image : Image) : Call → M Unit
  | .openMode pid target access truncated stored => done (Vfs.openMode pid target access truncated stored)
  | .pipePair pid onExec nonblocking => done (Vfs.pipePair pid onExec nonblocking)
  | .socketPair pid onExec nonblocking => done (Vfs.socketPair pid onExec nonblocking)
  | .duplicate pid fd => done (Vfs.duplicate pid fd)
  | .duplicateTo pid fd newFd onExec => done (Vfs.duplicateTo pid fd newFd onExec)
  | .duplicateMin pid fd minimum onExec => done (Vfs.duplicateMin pid fd minimum onExec)
  | .send pid fd input rightsFds => done (sendResultWithRights pid fd input rightsFds)
  | .receive pid fd output rightsOut => done (readResultWithRights pid fd output rightsOut)
  | .close pid fd => done (Vfs.close pid fd)
  | .closeOnExec pid => modify fun s => s.closeOnExec pid
  | .closeAll pid => modify fun s => s.closeAll pid
  | .inheritProcess parentPid childPid => Vfs.inheritProcess parentPid childPid
  | .read answers pid fd output => done (readResult image answers pid fd output)
  | .readAt answers pid fd output offset => done (Vfs.readAt image answers pid fd output offset)
  | .write answers pid fd input => done (writeResult answers pid fd input)
  | .writeAt answers pid fd input offset => done (Vfs.writeAt answers pid fd input offset)
  | .seek answers pid fd offset whence => done (Vfs.seek image answers pid fd offset whence)
  | .truncate answers pid fd length => Vfs.truncate answers pid fd length
  | .getFileLock answers pid fd lock => done (Vfs.getFileLock image answers pid fd lock)
  | .setFileLock answers pid fd lock => Vfs.setFileLock image answers pid fd lock
  | .create answers name => Vfs.create answers name
  | .createDirectory answers name => Vfs.createDirectory answers name
  | .unlink answers name => Vfs.unlink answers name
  | .removeDirectory answers path name => Vfs.removeDirectory answers path name
  | .rename answers source destination => renameNode answers source destination
  | .changeWorkingDirectory pid path => Vfs.changeWorkingDirectory pid path
  | .readDirectory pid fd next => readDirectoryFd pid fd next
  | .setDescriptorFlags pid fd flags => Vfs.setDescriptorFlags pid fd flags
  | .setStatusFlags pid fd valid nonblocking => Vfs.setStatusFlags pid fd valid nonblocking

/-- The tables after a call. A call that panics ends the kernel; the tables stay as it leaves them. -/
def step (image : Image) (s : State) (call : Call) : State := (call.act image s).2

def run (image : Image) (s : State) (calls : List Call) : State := calls.foldl (step image) s

/-- A file of the disk, as it is mounted -/
structure MountedFile where
  kind : NodeKind
  name : List UInt8
  data : List UInt8
  fits : data.length ≤ maxFileBytes

/-- An array with the data at its start -/
def StoredFile.ofData (data : List UInt8) : StoredFile :=
  ⟨data ++ List.replicate (maxFileBytes - data.length) 0, data.length⟩

/-- `mount_files`; the kernel ends when the boot file or the user file is too long. -/
def mountFiles (bootData userData : List UInt8) (dynamic : Slots (Option MountedFile) dynamicFileCount) : Option State :=
  if bootData.length ≤ maxFileBytes ∧ userData.length ≤ maxFileBytes then
    some {
      mounted := true
      boot := .ofData bootData
      user := .ofData userData
      dynamic := dynamic.map (Option.map fun file => ⟨file.kind, file.name, .ofData file.data⟩)
      files := .replicate _ none
      descriptions := .replicate _ none
      pipes := .replicate _ none
      workingDirectories := .replicate _ none
      recordLocks := .replicate _ none }
  else none

/-! ## What the calls do to the references -/

variable {allowed : Policy} {s : State}

/-- Nothing is open at first. -/
theorem mountFiles_tables {bootData userData : List UInt8} {dynamic : Slots (Option MountedFile) dynamicFileCount}
    (h : mountFiles bootData userData dynamic = some s) :
    s.files = .replicate _ none ∧ s.descriptions = .replicate _ none ∧ s.pipes = .replicate _ none := by
  unfold mountFiles at h
  split at h
  · obtain rfl := Option.some.inj h
    exact ⟨rfl, rfl, rfl⟩
  · cases h

theorem setOffset_same (s : State) (d : Fin maxFileDescriptions) (offset : Nat) : Same s (s.setOffset d offset) := by
  unfold State.setOffset
  cases hd : s.descriptions[d] with
  | none => exact .refl s
  | some x => exact .setDescription hd rfl

theorem setStored_same (s : State) (contents : StoredFile) (node : FileNode) : Same s (s.setStored contents node) := by
  unfold State.setStored
  split
  · exact .of_tables rfl rfl rfl
  · exact .of_tables rfl rfl rfl
  · split
    · exact .refl s
    · exact .of_tables rfl rfl rfl

/-- The last steps of a read or a write that moves the position -/
theorem advance_effect {α : Type} {value : α} (index : Fin maxFileDescriptions) (offset count : Nat) :
    Leaves (Effect allowed s) (do advance index offset count; return value) s :=
  leaves_bind_pure (.same (leaves_bind_guard (.refl s) fun _ => leaves_modify (setOffset_same s index _)))

theorem readFile_still (image : Image) (kind : DescriptionKind) (offset : Nat) (output : List UInt8) :
    Leaves (fun t => t = s) (readFile image kind offset output) s :=
  leaves_need rfl fun _ _ => leaves_checked rfl fun _ _ => leaves_checked rfl fun _ _ => leaves_pure rfl

theorem readPipeBytes_same (index : Fin maxPipes) (output : List UInt8) :
    Leaves (Same s) (readPipeBytes index output) s := by
  refine leaves_ite (fun _ => leaves_pure (.refl s)) fun _ => leaves_need (.refl s) fun pipe hpipe => ?_
  refine leaves_ite (fun _ => leaves_ite (fun _ => leaves_pure (.refl s)) fun _ => leaves_fail (.refl s)) fun _ => ?_
  exact leaves_checked (.refl s) fun _ _ => leaves_checked (.refl s) fun _ _ =>
    leaves_bind_modify (leaves_pure (.setPipe hpipe rfl))

theorem readPackage_still (answers : Answers) (snapshot : PackageSnapshot) (offset : Nat) (output : List UInt8) :
    Leaves (fun t => t = s) (readPackage answers snapshot offset output) s :=
  leaves_bind_guard rfl fun _ => leaves_checked rfl fun _ _ => leaves_bind_look rfl fun _ _ => leaves_pure rfl

/-- A read that does not touch the tables, and then the new position -/
theorem thenSetOffset_effect {x : M (Nat × List UInt8)} (hx : Leaves (fun t => t = s) x s) (index : Fin maxFileDescriptions) (offset : Nat) :
    Leaves (Effect allowed s)
      (do let result ← x; modify fun s => s.setOffset index (offset + result.1); return result) s :=
  leaves_bind_still hx .refl fun _ _ => leaves_bind_modify (leaves_pure (.same (setOffset_same s index _)))

theorem readResult_effect (image : Image) (answers : Answers) (pid fd : Nat) (output : List UInt8) :
    Leaves (Effect allowed s) (readResult image answers pid fd output) s := by
  refine leaves_need .refl fun named _ => leaves_bind_guard .refl fun _ => ?_
  unfold readKind
  split
  · exact leaves_bind_pure (.moves readSocketpairWithRights_changes)
  · exact .same (readPipeBytes_same _ _)
  · exact leaves_need .refl fun _ _ => leaves_pure .refl
  · exact leaves_pure .refl
  · exact leaves_pure .refl
  · exact leaves_bind_look .refl fun _ _ => advance_effect _ _ _
  · exact leaves_bind_look .refl fun _ _ => advance_effect _ _ _
  · exact thenSetOffset_effect (readPackage_still _ _ _ _) _ _
  · exact thenSetOffset_effect (readFile_still _ _ _ _) _ _
  · exact thenSetOffset_effect (readFile_still _ _ _ _) _ _
  · exact leaves_fail .refl

theorem readAt_still (image : Image) (answers : Answers) (pid fd : Nat) (output : List UInt8) (offset : Nat) :
    Leaves (fun t => t = s) (readAt image answers pid fd output offset) s := by
  refine leaves_need rfl fun named _ => leaves_bind_guard rfl fun _ => leaves_bind_guard rfl fun _ => ?_
  unfold readAtKind
  split
  · rfl
  · rfl
  · exact leaves_bind_guard rfl fun _ => rfl
  · exact leaves_bind_guard rfl fun _ => readFile_still _ _ _ _
  · exact readFile_still _ _ _ _
  · rfl

theorem writePipeBytes_same (index : Fin maxPipes) (input : List UInt8) : Leaves (Same s) (writePipeBytes index input) s :=
  leaves_ite (fun _ => leaves_pure (.refl s)) fun _ => leaves_need (.refl s) fun _ hpipe =>
    leaves_bind_guard (.refl s) fun _ => leaves_bind_guard (.refl s) fun _ => leaves_checked (.refl s) fun _ _ =>
    leaves_checked (.refl s) fun _ _ => leaves_bind_modify (leaves_pure (.setPipe hpipe rfl))

theorem storeContents_same (answers : Answers) (node : FileNode) (data : List UInt8) (length : Nat)
    (error : DescriptorError) : Leaves (Same s) (storeContents answers node data length error) s :=
  leaves_checked (.refl s) fun _ _ => leaves_bind_guard (.refl s) fun _ => leaves_modify (setStored_same s _ node)

/-- What follows a store of a file's data -/
theorem leaves_storeContents {α : Type} {answers : Answers} {node : FileNode} {data : List UInt8} {length : Nat}
    {error : DescriptorError} {x : M α} (h : ∀ t, Same s t → Leaves (Same s) x t) :
    Leaves (Same s) (do storeContents answers node data length error; x) s := by
  have hstore := @storeContents_same s answers node data length error
  refine leaves_bind (fun e s' he => ?_) fun a s' ha => ?_
  · rwa [Leaves, he] at hstore
  · rw [Leaves, ha] at hstore
    exact h s' hstore

theorem writeFile_same (answers : Answers) (index : Fin maxFileDescriptions) (offset : Nat) (node : FileNode)
    (input : List UInt8) : Leaves (Same s) (writeFile answers index offset node input) s :=
  leaves_need (.refl s) fun _ _ => leaves_checked (.refl s) fun _ _ => leaves_checked (.refl s) fun _ _ =>
    leaves_storeContents fun t ht => leaves_bind_modify (leaves_pure (ht.trans (setOffset_same t index _)))

theorem writeResult_effect (answers : Answers) (pid fd : Nat) (input : List UInt8) :
    Leaves (Effect allowed s) (writeResult answers pid fd input) s := by
  refine leaves_need .refl fun named _ => ?_
  unfold writeKind
  split
  · exact .same (writePipeBytes_same _ _)
  · exact .same (writePipeBytes_same _ _)
  · exact leaves_bind_guard .refl fun _ => leaves_pure .refl
  · exact leaves_bind_guard .refl fun _ => leaves_pure .refl
  · exact leaves_bind_guard .refl fun _ => leaves_bind_look .refl fun _ _ => advance_effect _ _ _
  · exact leaves_bind_guard .refl fun _ => leaves_bind_look .refl fun _ _ => advance_effect _ _ _
  · exact leaves_bind_guard .refl fun _ => .same (writeFile_same _ _ _ _ _)
  · exact leaves_fail .refl

theorem writeFileAt_same (answers : Answers) (node : FileNode) (input : List UInt8) (offset : Nat) :
    Leaves (Same s) (writeFileAt answers node input offset) s :=
  leaves_need (.refl s) fun _ _ => leaves_bind_guard (.refl s) fun _ => leaves_checked (.refl s) fun _ _ =>
    leaves_checked (.refl s) fun _ _ => leaves_checked (.refl s) fun _ _ =>
    leaves_storeContents fun _ ht => leaves_pure ht

theorem writeAt_same (answers : Answers) (pid fd : Nat) (input : List UInt8) (offset : Nat) :
    Leaves (Same s) (writeAt answers pid fd input offset) s := by
  refine leaves_need (.refl s) fun named _ => leaves_bind_guard (.refl s) fun _ => ?_
  unfold writeAtKind
  split
  · exact leaves_bind_guard (.refl s) fun _ => .refl s
  · exact leaves_bind_guard (.refl s) fun _ => .refl s
  · exact leaves_bind_guard (.refl s) fun _ => leaves_bind_guard (.refl s) fun _ => writeFileAt_same _ _ _ _
  · exact leaves_bind_guard (.refl s) fun _ => leaves_fail (.refl s)

theorem truncate_same (answers : Answers) (pid fd length : Nat) : Leaves (Same s) (truncate answers pid fd length) s := by
  refine leaves_need (.refl s) fun named _ => leaves_bind_guard (.refl s) fun _ => ?_
  unfold truncateKind
  split
  · exact .refl s
  · exact .refl s
  · exact leaves_bind_guard (.refl s) fun _ => leaves_need (.refl s) fun _ _ => leaves_bind_guard (.refl s) fun _ =>
      leaves_checked (.refl s) fun _ _ => storeContents_same _ _ _ _ _
  · exact leaves_fail (.refl s)

theorem seek_same (image : Image) (answers : Answers) (pid fd : Nat) (offset : Int) (whence : Nat) :
    Leaves (Same s) (seek image answers pid fd offset whence) s :=
  leaves_need (.refl s) fun _ _ => leaves_need (.refl s) fun _ _ => leaves_need (.refl s) fun _ _ =>
    leaves_need (.refl s) fun _ _ => leaves_bind_modify (leaves_pure (setOffset_same s _ _))

theorem getFileLock_same (image : Image) (answers : Answers) (pid fd : Nat) (lock : FileLock) :
    Leaves (Same s) (getFileLock image answers pid fd lock) s :=
  leaves_need (.refl s) fun _ _ => leaves_bind_look (.refl s) fun _ _ => leaves_bind_look (.refl s) fun _ _ =>
    leaves_bind_look (.refl s) fun _ _ => leaves_pure (.refl s)

theorem setFileLock_same (image : Image) (answers : Answers) (pid fd : Nat) (lock : FileLock) :
    Leaves (Same s) (setFileLock image answers pid fd lock) s :=
  leaves_need (.refl s) fun _ _ => leaves_bind_look (.refl s) fun _ _ => leaves_bind_look (.refl s) fun _ _ =>
    leaves_bind_guard (.refl s) fun _ => leaves_bind_look (.refl s) fun _ _ => leaves_modify (.of_tables rfl rfl rfl)

theorem createNode_same (answers : Answers) (kind : NodeKind) (name : List UInt8) (exists_ noParent full io : Stop) :
    Leaves (Same s) (createNode answers kind name exists_ noParent full io) s :=
  leaves_bind_guard (.refl s) fun _ => leaves_bind_guard (.refl s) fun _ => leaves_need (.refl s) fun _ _ =>
    leaves_bind_guard (.refl s) fun _ => leaves_modify (.of_tables rfl rfl rfl)

theorem unlink_same (answers : Answers) (name : List UInt8) : Leaves (Same s) (unlink answers name) s :=
  leaves_need (.refl s) fun _ _ => leaves_bind_guard (.refl s) fun _ => leaves_bind_guard (.refl s) fun _ =>
    leaves_modify (.of_tables rfl rfl rfl)

theorem removeDirectory_same (answers : Answers) (path name : List UInt8) :
    Leaves (Same s) (removeDirectory answers path name) s :=
  leaves_need (.refl s) fun _ _ => leaves_bind_guard (.refl s) fun _ => leaves_bind_guard (.refl s) fun _ =>
    leaves_bind_guard (.refl s) fun _ => leaves_bind_guard (.refl s) fun _ => leaves_modify (.of_tables rfl rfl rfl)

theorem renameNode_same (answers : Answers) (source destination : List UInt8) :
    Leaves (Same s) (renameNode answers source destination) s :=
  leaves_need (.refl s) fun _ _ => leaves_bind_guard (.refl s) fun _ =>
    leaves_ite (fun _ => leaves_pure (.refl s)) fun _ =>
    leaves_bind_guard (.refl s) fun _ => leaves_bind_guard (.refl s) fun _ => leaves_checked (.refl s) fun _ _ =>
    leaves_bind_guard (.refl s) fun _ => leaves_modify (.of_tables rfl rfl rfl)

theorem readDirectoryFd_same (pid fd : Nat) (next : Option Nat) : Leaves (Same s) (readDirectoryFd pid fd next) s := by
  refine leaves_need (.refl s) fun _ _ => leaves_bind_guard (.refl s) fun _ => leaves_modify ?_
  cases next with
  | none => exact .refl s
  | some => exact setOffset_same s _ ..

theorem setDescriptorFlags_same (pid fd flags : Nat) : Leaves (Same s) (setDescriptorFlags pid fd flags) s :=
  leaves_bind_guard (.refl s) fun _ => leaves_need (.refl s) fun _ _ => leaves_need (.refl s) fun _ hfile =>
    leaves_modify (.setFile hfile rfl)

theorem setStatusFlags_same (pid fd : Nat) (valid nonblocking : Bool) :
    Leaves (Same s) (setStatusFlags pid fd valid nonblocking) s := by
  refine leaves_bind_guard (.refl s) fun _ => leaves_need (.refl s) fun named hnamed => leaves_modify ?_
  obtain ⟨slot, -, hx⟩ := State.described_some hnamed
  exact .setDescription hx rfl

/-- What a call needs so that the references stay in order: a fork must not pass a count over 255, and a send has to
meet the policy. -/
def Call.Admitted (allowed : Policy) (s : State) : Call → Prop
  | .inheritProcess parentPid _ => ForkFits s parentPid
  | .send pid fd _ rightsFds => SendAllowed allowed s pid fd rightsFds
  | _ => True

theorem step_effect (image : Image) (call : Call) (hfits : Fits s.descriptions) (hadmitted : call.Admitted allowed s) :
    Effect allowed s (step image s call) := by
  cases call with
  | openMode => exact openMode_effect ..
  | pipePair => exact pipePair_effect ..
  | socketPair => exact socketPair_effect ..
  | duplicate => exact duplicate_effect hfits ..
  | duplicateTo => exact duplicateTo_effect hfits ..
  | duplicateMin => exact duplicateMin_effect hfits ..
  | send pid fd input rightsFds => exact sendResultWithRights_effect hadmitted
  | receive => exact readResultWithRights_effect ..
  | close => exact close_effect ..
  | closeOnExec pid =>
    simp only [step, Call.act, modify_apply]
    exact .moves (closeOnExec_changes s pid)
  | closeAll pid =>
    exact .moves (closeAll_changes s pid)
  | inheritProcess parentPid childPid => exact inheritProcess_effect hfits hadmitted
  | read => exact readResult_effect image ..
  | readAt answers pid fd output offset =>
    have h : step image s (.readAt answers pid fd output offset) = s := readAt_still image answers pid fd output offset
    rw [h]
    exact .refl
  | write => exact writeResult_effect ..
  | writeAt => exact .same (writeAt_same ..)
  | seek => exact .same (seek_same image ..)
  | truncate => exact .same (truncate_same ..)
  | getFileLock => exact .same (getFileLock_same image ..)
  | setFileLock => exact .same (setFileLock_same image ..)
  | create answers name | createDirectory answers name => exact .same (createNode_same answers _ name _ _ _ _)
  | unlink => exact .same (unlink_same ..)
  | removeDirectory => exact .same (removeDirectory_same ..)
  | rename => exact .same (renameNode_same ..)
  | changeWorkingDirectory pid path => exact .same (leaves_need (.refl s) fun _ _ => leaves_modify (.of_tables rfl rfl rfl))
  | readDirectory => exact .same (readDirectoryFd_same ..)
  | setDescriptorFlags => exact .same (setDescriptorFlags_same ..)
  | setStatusFlags => exact .same (setStatusFlags_same ..)

end MakOS.Vfs
