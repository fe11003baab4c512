/-
Physical frames and user page tables, as the user memory manager sees them (`kernel/src/mm.rs` and the
user-page calls of `kernel/src/arch/aarch64.rs`). A page table is a map from user pages to entries; the
frames of the tables themselves are not accounted for.
-/
import MakOS.Data.Word
import MakOS.Frames.Allocator

namespace MakOS.Vm

open MakOS.Data MakOS.Frames

/-- The branches that stop the kernel. -/
inductive Fatal
  -- `aarch64_vm`
  | generationExhausted
  | mutationOwnerAbsent
  | fileMapRollback
  | sharedMapRollback
  | sharedMapRefRollback
  | faultFrameRelease
  | regionOverflow
  | rangeRemoval
  | frameRelease
  | backingSplitCapacity
  | adviseFrameRelease
  | protectMismatch
  | rangeProtection
  | brkPageAbsent
  | brkFrameRelease
  | brkProcessDisappeared
  | sharedSplitOverflow
  | brkRollbackPage
  | brkRollbackRelease
  -- the `expect`s of `clone_process` and of the region table
  | clonePreflight
  -- `arch::aarch64` and `aarch64_shmem`
  | invalidMapping
  | duplicateMapping
  | tableFrameRelease
  | sharedFrameRelease
  deriving DecidableEq, Repr

def userAddressBase : Nat := 0x10000000
def userHeapBase : Nat := 0x14000000
def userHeapLimit : Nat := 0x18000000
def userMmapBase : Nat := 0x80000000
def userMmapLimit : Nat := 0x3c0000000
def userAddressLimit : Nat := 0x400000000

/-- A level-3 descriptor, by what its bits mean. -/
structure Pte where
  frame : Nat
  readable : Bool
  writable : Bool
  executable : Bool
  deriving DecidableEq, Repr

structure Memory where
  frames : FrameAllocator
  /-- contents of the frames, by physical address -/
  bytes : Nat → List UInt8
  /-- page tables, by root and page -/
  tables : Nat → Nat → Option Pte
  kernelRoot : Nat

namespace Memory

/-- The roots the page-table calls accept. -/
def userRoot (memory : Memory) (root : Nat) : Bool :=
  root != 0 && root != memory.kernelRoot && root &&& (pageSize - 1) == 0

def userPage (address : Nat) : Bool :=
  address &&& (pageSize - 1) == 0 && decide (userAddressBase ≤ address) && decide (address < userAddressLimit)

def setPage (memory : Memory) (root address : Nat) (entry : Option Pte) : Memory :=
  { memory with tables := Function.update memory.tables root (Function.update (memory.tables root) address entry) }

/-- `user_page_slot`, with the entry read if it is a page descriptor -/
def pageAt (memory : Memory) (root address : Nat) : Option Pte :=
  if memory.userRoot root && userPage address then memory.tables root address else none

def userPagePhysicalIn (memory : Memory) (root address : Nat) : Option Nat :=
  (memory.pageAt root address).map Pte.frame

def unmapUserPageIn (memory : Memory) (root address : Nat) : Option (Nat × Memory) :=
  (memory.pageAt root address).map fun entry => (entry.frame, memory.setPage root address none)

/-- `protect_user_page_permissions_in`; `none` is `false` -/
def protectUserPagePermissionsIn (memory : Memory) (root address : Nat) (readable writable executable : Bool) :
    Option Memory :=
  if (!readable && (writable || executable)) || (writable && executable) then none
  else (memory.pageAt root address).map fun entry =>
    memory.setPage root address (some ⟨entry.frame, readable, writable, executable⟩)

/-- `map_user_page_permissions_if_absent_in`; `none` is `Err`, with the page already there -/
def mapUserPagePermissionsIfAbsentIn (memory : Memory) (root address physical : Nat)
    (readable writable executable : Bool) : Except Fatal (Option Memory) :=
  if !memory.userRoot root || !userPage address || physical == 0 || physical &&& (pageSize - 1) != 0 ||
      decide (2 ^ 48 ≤ physical) || (!readable && (writable || executable)) || (writable && executable) then
    .error .invalidMapping
  else if (memory.tables root address).isSome then .ok none
  else .ok (some (memory.setPage root address (some ⟨physical, readable, writable, executable⟩)))

def mapUserPageIn (memory : Memory) (root address physical : Nat) (writable executable : Bool) :
    Except Fatal Memory :=
  match memory.mapUserPagePermissionsIfAbsentIn root address physical true writable executable with
  | .error fatal => .error fatal
  | .ok none => .error .duplicateMapping
  | .ok (some memory) => .ok memory

def userPageAccessPermittedIn (memory : Memory) (root address : Nat) (write execute : Bool) : Bool :=
  if write && execute then false
  else match memory.pageAt root address with
    | none => false
    | some entry =>
      if execute then entry.readable && !entry.writable && entry.executable
      else entry.frame != 0 && entry.readable && (!entry.writable || !entry.executable) && (!write || entry.writable)

def allocateFrame (memory : Memory) : Option (Nat × Memory) :=
  memory.frames.allocate.map fun (frame, frames) => (frame, { memory with frames })

def freeFrame (memory : Memory) (frame : Nat) : Except FreeError Memory :=
  (memory.frames.free frame).map fun frames => { memory with frames }

def release (memory : Memory) (fatal : Fatal) (frame : Nat) : Except Fatal Memory :=
  match memory.freeFrame frame with
  | .error _ => .error fatal
  | .ok memory => .ok memory

def fill (memory : Memory) (frame : Nat) (contents : List UInt8) : Memory :=
  { memory with bytes := Function.update memory.bytes frame contents }

def zeroPage : List UInt8 := List.replicate pageSize 0

end Memory

end MakOS.Vm
