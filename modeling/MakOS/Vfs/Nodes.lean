/-
The calls on names of MakFS v3 nodes (`create`, `unlink`, `create_directory`, `remove_directory`, `rename`), on
working directories and on the flags of descriptors. The name is a parameter as it comes out of the path.
-/
import MakOS.Vfs.ReadWrite

namespace MakOS.Vfs

open Data Data.Act

/-- `b'/'` -/
def separator : UInt8 := 0x2f

namespace State

def dynamicIndexByName (s : State) (name : List UInt8) : Option (Fin dynamicFileCount) :=
  position (fun entry => entry.any fun file => file.name == name) s.dynamic

/-- The name up to its last separator, if it has one -/
def parentName (name : List UInt8) : Option (List UInt8) :=
  if separator ∈ name then some (name.reverse.dropWhile (· != separator)).tail.reverse else none

/-- `parent_directory_node(state, name).is_some()` -/
def hasParent (s : State) (name : List UInt8) : Bool :=
  match parentName name with
  | none => true
  | some parent =>
    match s.dynamicIndexByName parent with
    | none => false
    | some slot => s.dynamic[slot].any fun file => file.kind = .directory

def hasChildren (s : State) (name : List UInt8) : Bool :=
  s.dynamic.toList.any fun entry => entry.any fun file => (name ++ [separator]).isPrefixOf file.name

/-- A used description of a MakFS v3 slot -/
def dynamicOpen (s : State) (slot : Fin dynamicFileCount) : Bool :=
  s.descriptions.toList.any fun entry => entry.any fun description => description.kind.dynamicSlot = some slot

/-- `path_is_same_or_descendant` -/
def sameOrDescendant (path ancestor : List UInt8) : Bool :=
  path == ancestor || (ancestor ++ [separator]).isPrefixOf path

def isWorkingDirectory (s : State) (path : List UInt8) : Bool :=
  s.workingDirectories.toList.any fun entry => entry.any fun directory => sameOrDescendant directory.path path

/-- The slot of a name, with the node in it -/
def dynamicNode (s : State) (name : List UInt8) : Option (Fin dynamicFileCount × DynamicFile) := do
  let slot ← s.dynamicIndexByName name
  let file ← s.dynamic[slot]
  return (slot, file)

end State

/-- A new node in a free slot -/
def createNode (answers : Answers) (kind : NodeKind) (name : List UInt8) (exists_ noParent full io : Stop) : M Unit := do
  guard (fun s => (s.dynamicIndexByName name).isNone) exists_
  guard (fun s => s.hasParent name) noParent
  let slot ← need (fun s => position Option.isNone s.dynamic) full
  guard (fun _ => answers.stored) io
  modify fun s => { s with dynamic := s.dynamic.set slot (some ⟨kind, name, .blank⟩) }

def create (answers : Answers) (name : List UInt8) : M Unit := createNode answers .file name .failed .failed .failed .failed

def createDirectory (answers : Answers) (name : List UInt8) : M Unit :=
  createNode answers .directory name (.refused .alreadyExists) (.refused .notDirectory) (.refused .tooMany) (.refused .io)

def unlink (answers : Answers) (name : List UInt8) : M Unit := do
  let node ← need (fun s => s.dynamicNode name) .failed
  guard (fun _ => decide (node.2.kind = .file)) .failed
  guard (fun s => !s.dynamicOpen node.1 && answers.stored) .failed
  modify fun s => { s with dynamic := s.dynamic.set node.1 none }

def removeDirectory (answers : Answers) (path name : List UInt8) : M Unit := do
  let node ← need (fun s => s.dynamicNode name) (.refused .notFound)
  guard (fun _ => decide (node.2.kind = .directory)) (.refused .notDirectory)
  guard (fun s => !s.hasChildren name) (.refused .notEmpty)
  guard (fun s => !s.dynamicOpen node.1 && !s.isWorkingDirectory path) (.refused .busy)
  guard (fun _ => answers.stored) (.refused .io)
  modify fun s => { s with dynamic := s.dynamic.set node.1 none }

/-- A file that is open keeps its name. -/
def renameNode (answers : Answers) (source destination : List UInt8) : M Unit := do
  let node ← need (fun s => s.dynamicNode source) .failed
  guard (fun s => decide (node.2.kind = .file) && s.hasParent destination) .failed
  if source = destination then return ()
  else do
    guard (fun s => (s.dynamicIndexByName destination).isNone) .failed
    guard (fun s => !s.dynamicOpen node.1) .failed
    let _ ← checked (slice node.2.contents.data 0 node.2.contents.length)
    guard (fun _ => answers.stored) .failed
    modify fun s => { s with dynamic := s.dynamic.set node.1 (some { node.2 with name := destination }) }

/-- The path is the one of a directory that the caller may read. -/
def changeWorkingDirectory (ownerPid : Nat) (path : List UInt8) : M Unit := do
  let slot ← need (fun s => (position (fun entry => entry.any (·.ownerPid == ownerPid)) s.workingDirectories).or
    (position Option.isNone s.workingDirectories)) (.refused .tooMany)
  modify fun s => { s with workingDirectories := s.workingDirectories.set slot (some ⟨ownerPid, path⟩) }

/-- The kinds that `read_directory_fd` reads -/
def DescriptionKind.isDirectory : DescriptionKind → Bool
  | .directory _ | .makfs4Directory _ | .packageDirectory _ => true
  | _ => false

/-- `next` is the position after the entry, if there is one. -/
def readDirectoryFd (ownerPid fd : Nat) (next : Option Nat) : M Unit := do
  let named ← need (fun s => s.described ownerPid fd) (.refused .badFile)
  guard (fun _ => named.2.kind.isDirectory) (.refused .badFile)
  modify fun s => next.elim s (s.setOffset named.1.description)

def setDescriptorFlags (ownerPid fd flags : Nat) : M Unit := do
  guard (fun _ => decide (flags ≤ 1)) (.refused .invalid)
  let slot ← need (fun s => s.descriptorSlot ownerPid fd) (.refused .badFile)
  let file ← need (fun s => s.files[slot]) (.refused .badFile)
  modify fun s => { s with files := s.files.set slot (some { file with closeOnExec := flags == 1 }) }

/-- Only `STATUS_NONBLOCK` can be changed. -/
def setStatusFlags (ownerPid fd : Nat) (valid nonblocking : Bool) : M Unit := do
  guard (fun _ => valid) (.refused .invalid)
  let named ← need (fun s => s.described ownerPid fd) (.refused .badFile)
  modify fun s => { s with
    descriptions := s.descriptions.set named.1.description (some { named.2 with nonblocking }) }

end MakOS.Vfs
