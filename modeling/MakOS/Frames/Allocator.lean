/-
The physical frame allocator (`crates/frame-allocator`): a bitmap of frames, a set bit for a frame that
is not available, a count of the free ones and a hint where the next search starts.
-/
import MakOS.Data.FirstRun

namespace MakOS.Frames

def pageSize : Nat := 4096

inductive FreeError
  | outOfRange
  | alreadyFree
  | unaligned
  deriving DecidableEq, Repr

structure FrameAllocator where
  words : Array (BitVec 64)
  freeCount : Nat
  nextWord : Nat
  deriving DecidableEq, Repr

def trailingZeros (word : BitVec 64) : Nat := (List.range 64).findIdx fun i => word.getLsbD i

namespace FrameAllocator

/-- The source keeps the number in a field that never changes. -/
def frameCount (allocator : FrameAllocator) : Nat := allocator.words.size * 64

/-- Every use is behind a check of the frame against `frameCount`. -/
def isUsed (allocator : FrameAllocator) (frame : Nat) : Bool :=
  match allocator.words[frame / 64]? with
  | some word => word.getLsbD (frame % 64)
  | none => true

def setUsed (allocator : FrameAllocator) (frame : Nat) (used : Bool) : FrameAllocator :=
  let mask := BitVec.twoPow 64 (frame % 64)
  { allocator with words := allocator.words.modify (frame / 64) fun word => if used then word ||| mask else word &&& ~~~mask }

/-- One word of the search: its first free frame is taken. -/
def takeFrom (allocator : FrameAllocator) (wordIndex : Nat) : Option (Nat × FrameAllocator) :=
  match allocator.words[wordIndex]? with
  | none => none
  | some word =>
    let available := ~~~word
    if available = 0 then none
    else
      let frame := wordIndex * 64 + trailingZeros available
      if allocator.frameCount ≤ frame then none
      else some (frame * pageSize, { allocator.setUsed frame true with
        freeCount := allocator.freeCount - 1
        nextWord := wordIndex })

/-- `allocate`: from the hint to the end, then from the start to the hint -/
def allocate (allocator : FrameAllocator) : Option (Nat × FrameAllocator) :=
  if allocator.freeCount = 0 then none
  else (List.range' allocator.nextWord (allocator.words.size - allocator.nextWord) ++
    List.range allocator.nextWord).findSome? allocator.takeFrom

def free (allocator : FrameAllocator) (physicalAddress : Nat) : Except FreeError FrameAllocator :=
  if physicalAddress % pageSize ≠ 0 then .error .unaligned
  else
    let frame := physicalAddress / pageSize
    if allocator.frameCount ≤ frame then .error .outOfRange
    else if !allocator.isUsed frame then .error .alreadyFree
    else .ok { allocator.setUsed frame false with
      freeCount := allocator.freeCount + 1
      nextWord := min allocator.nextWord (frame / 64) }

def new (size : Nat) : FrameAllocator := ⟨Array.replicate size (BitVec.allOnes 64), 0, 0⟩

/-- The frames of a region, as far as they are managed -/
def region (allocator : FrameAllocator) (physicalStart pageCount : Nat) : List Nat :=
  let first := physicalStart / pageSize
  List.range' first (min (first + pageCount) allocator.frameCount - first)

/-- The loop of `release_region` and `reserve_region`, and how many frames it changes -/
def change (allocator : FrameAllocator) (used : Bool) : (frames : List Nat) → FrameAllocator × Nat
  | [] => (allocator, 0)
  | frame :: rest =>
    if allocator.isUsed frame = used then allocator.change used rest
    else
      let (allocator, changed) := (allocator.setUsed frame used).change used rest
      (allocator, changed + 1)

def releaseRegion (allocator : FrameAllocator) (physicalStart pageCount : Nat) : Nat × FrameAllocator :=
  let (next, released) := allocator.change false (allocator.region physicalStart pageCount)
  (released, { next with
    freeCount := allocator.freeCount + released
    nextWord := min allocator.nextWord (physicalStart / pageSize / 64) })

def reserveRegion (allocator : FrameAllocator) (physicalStart pageCount : Nat) : Nat × FrameAllocator :=
  let (next, reserved) := allocator.change true (allocator.region physicalStart pageCount)
  (reserved, { next with freeCount := allocator.freeCount - reserved })

def allocateContiguous (allocator : FrameAllocator) (count : Nat) : Option (Nat × FrameAllocator) :=
  if count = 0 ∨ allocator.freeCount < count ∨ allocator.frameCount < count then none
  else
    match Data.firstRun allocator.isUsed count (List.range' 0 allocator.frameCount) 0 0 with
    | none => none
    | some runStart =>
      some (runStart * pageSize, {
        (List.range' runStart count).foldl (fun allocator frame => allocator.setUsed frame true) allocator with
        freeCount := allocator.freeCount - count
        nextWord := runStart / 64 })

variable {allocator allocator' : FrameAllocator} {frame address : Nat}

/-! ## Which frames are handed out -/

/-- A frame that can be given back. -/
structure Taken (allocator : FrameAllocator) (address : Nat) : Prop where
  aligned : address % pageSize = 0
  inRange : address / pageSize < allocator.frameCount
  used : allocator.isUsed (address / pageSize) = true

end FrameAllocator

end MakOS.Frames
