/-
The state of the user memory manager (`kernel/src/aarch64_vm.rs`): processes, memory regions and file
backings in fixed tables, the shared-memory objects and physical memory they refer to, and the page
faults that are being served. Sizes of the tables are parameters.
-/
import MakOS.VmSpace.Table
import MakOS.Shmem.Objects

namespace MakOS.Vm

open MakOS.Data MakOS.Frames MakOS.VmSpace

def protRead : Nat := 1
def protWrite : Nat := 2
def protExec : Nat := 4

def maxPagesPerCall : Nat := 4 * 1024 * 1024

structure ProcessVm where
  pid : Nat
  root : Nat
  breakBase : Nat
  currentBreak : Nat
  generation : Nat
  deriving DecidableEq, Repr

def ProcessVm.empty : ProcessVm := ⟨0, 0, 0, 0, 0⟩

structure MountedPackageFile where
  path : List UInt8
  size : Nat
  firstLba : Nat
  sectors : Nat
  deriving DecidableEq, Repr

inductive ReadOnlyFileBacking
  | embedded (bytes : List UInt8)
  | package (file : MountedPackageFile)
  deriving DecidableEq, Repr

structure SharedMemoryBacking where
  object : Nat
  size : Nat
  deriving DecidableEq, Repr

inductive FileBackingSource
  | empty
  | readOnly (file : ReadOnlyFileBacking)
  | shared (backing : SharedMemoryBacking)
  deriving DecidableEq, Repr

structure FileBacking where
  pid : Nat
  base : Nat
  pages : Nat
  fileOffset : Nat
  source : FileBackingSource
  deriving DecidableEq, Repr

namespace FileBacking

def empty : FileBacking := ⟨0, 0, 0, 0, .empty⟩

def used (backing : FileBacking) : Bool := backing.pid != 0

/-- `end` -/
def endOf (backing : FileBacking) : Option Nat := checkedAdd backing.base (wrap (backing.pages * pageSize))

def isReadOnly (backing : FileBacking) : Bool :=
  match backing.source with
  | .readOnly _ => true
  | _ => false

def shared? (backing : FileBacking) : Option SharedMemoryBacking :=
  match backing.source with
  | .shared shared => some shared
  | _ => none

/-- The test of the searches for the backing of an address. -/
def covers (backing : FileBacking) (pid address : Nat) : Bool :=
  backing.pid == pid && decide (backing.base ≤ address) && decide (address < backing.endOf.getD backing.base)

end FileBacking

structure Capacity where
  processes : Nat
  regions : Nat
  backings : Nat
  objects : Nat
  objectPages : Nat

/-- `MAX_PROCESSES`, `MAX_REGIONS`, `MAX_FILE_BACKINGS`, and `MAX_OBJECTS`, `MAX_PAGES` of shared memory -/
def kernelCapacity : Capacity := ⟨64, 8192, 1024, 128, 16384⟩

structure VmState (K : Capacity) where
  nextGeneration : Nat
  processes : Slots ProcessVm K.processes
  regions : RegionTable K.regions
  fileBackings : Slots FileBacking K.backings

/-- What a page fault asks for. -/
structure FaultRequest where
  pid : Nat
  page : Nat
  write : Bool
  execute : Bool
  deriving DecidableEq, Repr

structure FaultSnapshot where
  root : Nat
  generation : Nat
  protection : Nat
  backing : Option FileBacking
  deriving DecidableEq, Repr

inductive FaultCommit
  | installed
  | resolved (result : Bool)
  | retry
  deriving DecidableEq, Repr

/-- Where a task stands in `handle_page_fault`. -/
inductive FaultStage
  /-- not in a fault; the last one was resolved or not -/
  | idle (resolved : Bool)
  /-- about to prepare -/
  | prepare (request : FaultRequest)
  /-- prepared, with the page to be filled -/
  | populate (request : FaultRequest) (snapshot : FaultSnapshot)
  /-- filled, with the page to be committed -/
  | commit (request : FaultRequest) (snapshot : FaultSnapshot) (frame : Nat) (loaded : Bool)
  /-- not installed, with the frame to be given back -/
  | discard (request : FaultRequest) (frame : Nat) (outcome : FaultCommit)
  deriving DecidableEq, Repr

structure Machine (K : Capacity) where
  vm : VmState K
  shmem : Shmem.State K.objects K.objectPages
  memory : Memory
  tasks : Nat → FaultStage
  /-- what `read_package_file` reads for a page at an offset of a file -/
  storage : MountedPackageFile → Nat → Option (List UInt8)

/-! ## Arguments -/

def pagesForLength (length : Nat) : Option Nat :=
  if length = 0 then none
  else (checkedAdd length (pageSize - 1)).bind fun padded =>
    if padded / pageSize ≤ maxPagesPerCall then some (padded / pageSize) else none

def exactPages (base length : Nat) : Option Nat :=
  if base &&& (pageSize - 1) ≠ 0 then none else pagesForLength length

def validProtection (protection : Nat) : Bool :=
  decide (protection ≤ 7) && (protection == 0 || protection &&& protRead != 0) &&
    protection &&& (protWrite ||| protExec) != (protWrite ||| protExec)

def alignUp (value : Nat) : Nat :=
  match checkedAdd value (pageSize - 1) with
  | some value => clearLow value pageSize
  | none => wordMax

def pageAddresses (base pages : Nat) : List Nat := (List.range pages).map fun page => base + page * pageSize

namespace VmState

variable {K : Capacity}

def processSlot (vm : VmState K) (pid : Nat) : Option (Fin K.processes) :=
  slot? (fun process => process.pid == pid) vm.processes

def processRoot (vm : VmState K) (pid : Nat) : Option Nat :=
  (vm.processSlot pid).map fun slot => vm.processes[slot].root

def setProcess (vm : VmState K) (slot : Fin K.processes) (process : ProcessVm) : VmState K :=
  { vm with processes := vm.processes.set slot process }

def setBacking (vm : VmState K) (slot : Fin K.backings) (backing : FileBacking) : VmState K :=
  { vm with fileBackings := vm.fileBackings.set slot backing }

/-- `next_generation` -/
def takeGeneration (vm : VmState K) : Except Fatal (VmState K) :=
  match checkedAdd vm.nextGeneration 1 with
  | none => .error .generationExhausted
  | some generation => .ok { vm with nextGeneration := generation }

def invalidateFaults (vm : VmState K) (pid : Nat) : Except Fatal (VmState K) :=
  match vm.takeGeneration with
  | .error fatal => .error fatal
  | .ok vm =>
    match vm.processSlot pid with
    | none => .error .mutationOwnerAbsent
    | some slot => .ok (vm.setProcess slot { vm.processes[slot] with generation := vm.nextGeneration })

/-- `iter_mut().find(|backing| backing.pid == 0)` -/
def freeBacking (vm : VmState K) : Option (Fin K.backings) :=
  slot? (fun backing : FileBacking => backing.pid == 0) vm.fileBackings

/-- The first free backing slot besides one. -/
def freeBackingBesides (vm : VmState K) (index : Fin K.backings) : Option (Fin K.backings) :=
  (List.finRange K.backings).find? fun slot => slot ≠ index && vm.fileBackings[slot].pid == 0

/-- The backing of an address, as `prepare_fault` finds it -/
def backingAt (vm : VmState K) (pid address : Nat) : Option FileBacking :=
  vm.fileBackings.toList.find? fun backing => backing.covers pid address

def sharedBackingAt (vm : VmState K) (pid address : Nat) : Option SharedMemoryBacking :=
  vm.fileBackings.toList.findSome? fun backing => if backing.covers pid address then backing.shared? else none

end VmState

end MakOS.Vm
