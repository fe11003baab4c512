/-
Shared-memory objects (`kernel/src/aarch64_shmem.rs`), as far as mappings use them: references to
objects, and the frames of their pages. The calls that name objects or read and write them are not
here.
-/
import MakOS.Data.Slots
import MakOS.Vm.Memory

namespace MakOS.Shmem

open MakOS.Data MakOS.Frames MakOS.Vm

structure Object where
  used : Bool
  linked : Bool
  name : List UInt8
  mode : Nat
  uid : Nat
  gid : Nat
  size : Nat
  modifiedTicks : Nat
  handleRefs : Nat
  mappingRefs : Nat
  deriving DecidableEq, Repr

def Object.empty : Object := ⟨false, false, [], 0, 0, 0, 0, 0, 0, 0⟩

structure ObjectPage where
  object : Nat
  index : Nat
  frame : Nat
  deriving DecidableEq, Repr

def ObjectPage.empty : ObjectPage := ⟨0, 0, 0⟩

structure State (objects pages : Nat) where
  objects : Slots Object objects
  pages : Slots ObjectPage pages
  deriving DecidableEq, Repr

def refsMax : Nat := 2 ^ 32 - 1

namespace State

variable {O P : Nat}

/-- `object_index`: identifiers start at one -/
def objectIndex (state : State O P) (id : Nat) : Option (Fin O) :=
  if h : 0 < id ∧ id - 1 < O then
    let index : Fin O := ⟨id - 1, h.2⟩
    if state.objects[index].used then some index else none
  else none

def setObject (state : State O P) (index : Fin O) (object : Object) : State O P :=
  { state with objects := state.objects.set index object }

/-- `retain_mapping`; `none` is `false` -/
def retainMapping (state : State O P) (id : Nat) : Option (State O P) :=
  (state.objectIndex id).bind fun index =>
    let object := state.objects[index]
    if object.mappingRefs = refsMax then none
    else some (state.setObject index { object with mappingRefs := object.mappingRefs + 1 })

/-- Give back the frames of an object's pages, slot by slot. -/
def releasePages (id : Nat) : List (Fin P) → State O P × Memory → Except Fatal (State O P × Memory)
  | [], s => .ok s
  | slot :: rest, (state, memory) =>
    if state.pages[slot].object = id then
      match memory.release .sharedFrameRelease state.pages[slot].frame with
      | .error fatal => .error fatal
      | .ok memory => releasePages id rest ({ state with pages := state.pages.set slot .empty }, memory)
    else releasePages id rest (state, memory)

def reapIfUnused (index : Fin O) (s : State O P × Memory) : Except Fatal (State O P × Memory) :=
  let object := s.1.objects[index]
  if object.linked || object.handleRefs != 0 || object.mappingRefs != 0 then .ok s
  else match releasePages (index + 1) (List.finRange P) s with
    | .error fatal => .error fatal
    | .ok (state, memory) => .ok (state.setObject index .empty, memory)

def releaseMapping (id : Nat) (s : State O P × Memory) : Except Fatal (State O P × Memory) :=
  match s.1.objectIndex id with
  | none => .ok s
  | some index =>
    let object := s.1.objects[index]
    reapIfUnused index (s.1.setObject index { object with mappingRefs := object.mappingRefs - 1 }, s.2)

def getOrAllocatePage (id pageIndex : Nat) (s : State O P × Memory) : Option (Nat × State O P × Memory) :=
  match s.1.pages.toList.find? fun page => page.object == id && page.index == pageIndex with
  | some page => some (page.frame, s)
  | none =>
    (slot? (fun page : ObjectPage => page.object == 0) s.1.pages).bind fun slot =>
      s.2.allocateFrame.map fun (frame, memory) =>
        (frame, { s.1 with pages := s.1.pages.set slot ⟨id, pageIndex, frame⟩ }, memory.fill frame Memory.zeroPage)

def pageFrame (id byteOffset : Nat) (s : State O P × Memory) : Option (Nat × State O P × Memory) :=
  (s.1.objectIndex id).bind fun index =>
    if s.1.objects[index].size ≤ byteOffset then none
    else if 2 ^ 32 ≤ byteOffset / pageSize then none
    else getOrAllocatePage id (byteOffset / pageSize) s

end State

end MakOS.Shmem
