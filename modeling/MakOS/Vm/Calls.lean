/-
The calls of the user memory manager (`kernel/src/aarch64_vm.rs`), each one transaction under its lock.
An error is a branch that stops the kernel; a refusal is a `none` or `false` of the result. Descriptors
are looked up by the caller: a call gets the file or object found. Traces on the serial line are left
out.
-/
import MakOS.Vm.State

namespace MakOS.Vm

open MakOS.Data MakOS.Frames MakOS.VmSpace

/-! ## Loops over regions and pages -/

section Loops

variable {N : Nat}

/-- The loop of `unmap_locked` over a range of addresses. Every round moves the cursor forward, so that
`fuel` is enough when it bounds the distance to the end. -/
def removeRange (pid stop : Nat) : Nat → Nat → RegionTable N → Except Fatal (RegionTable N)
  | 0, _, regions => .ok regions
  | fuel + 1, cursor, regions =>
    if cursor < stop then
      match regions.find pid cursor pageSize with
      | none => removeRange pid stop fuel (cursor + pageSize) regions
      | some region =>
        match region.endOf pageSize with
        | none => .error .regionOverflow
        | some regionEnd =>
          let chunkEnd := min regionEnd stop
          match regions.remove pid cursor ((chunkEnd - cursor) / pageSize) pageSize with
          | none => .error .rangeRemoval
          | some regions => removeRange pid stop fuel chunkEnd regions
    else .ok regions

/-- The loop of `range_covered` -/
def coveredFrom (regions : RegionTable N) (pid stop : Nat) : Nat → Nat → Bool
  | 0, _ => true
  | fuel + 1, cursor =>
    if cursor < stop then
      match (regions.find pid cursor pageSize).bind fun region => region.endOf pageSize with
      | none => false
      | some regionEnd => coveredFrom regions pid stop fuel (min regionEnd stop)
    else true

def rangeCovered (regions : RegionTable N) (pid base pages : Nat) : Bool :=
  match checkedAdd base (wrap (pages * pageSize)) with
  | none => false
  | some stop => coveredFrom regions pid stop (stop - base) base

/-- The first loop of `protect_metadata`: the slots needed for the pieces of split regions -/
def extraSlots (regions : RegionTable N) (pid protection stop : Nat) : Nat → Nat → Nat → Option Nat
  | 0, _, extra => some extra
  | fuel + 1, cursor, extra =>
    if cursor < stop then
      (regions.find pid cursor pageSize).bind fun region =>
        (region.endOf pageSize).bind fun regionEnd =>
          let chunkEnd := min regionEnd stop
          let extra := if region.protection ≠ protection % 256 then
            extra + (if cursor ≠ region.base then 1 else 0) + (if chunkEnd ≠ regionEnd then 1 else 0) else extra
          extraSlots regions pid protection stop fuel chunkEnd extra
    else some extra

/-- The second loop of `protect_metadata`; `none` is its `?` on a lookup that fails -/
def protectRange (pid protection stop : Nat) : Nat → Nat → RegionTable N → Except Fatal (Option (RegionTable N))
  | 0, _, regions => .ok (some regions)
  | fuel + 1, cursor, regions =>
    if cursor < stop then
      match regions.find pid cursor pageSize with
      | none => .ok none
      | some region =>
        match region.endOf pageSize with
        | none => .ok none
        | some regionEnd =>
          let chunkEnd := min regionEnd stop
          if region.protection ≠ protection % 256 then
            match regions.protect pid cursor ((chunkEnd - cursor) / pageSize) (protection % 256) pageSize with
            | none => .error .rangeProtection
            | some regions => protectRange pid protection stop fuel chunkEnd regions
          else protectRange pid protection stop fuel chunkEnd regions
    else .ok (some regions)

/-- The loop of `unmap_locked` and `advise` over resident pages. Frames of shared memory belong to their
object. -/
def releasePages (fatal : Fatal) (shared : Nat → Bool) (root : Nat) (addresses : List Nat) (memory : Memory) :
    Except Fatal Memory :=
  addresses.foldlM (fun memory address =>
    match memory.unmapUserPageIn root address with
    | none => .ok memory
    | some (frame, memory) => if shared address then .ok memory else memory.release fatal frame) memory

/-- The loops of `brk_locked` and `rollback_brk` over pages that have to be resident -/
def dropPages (absent release : Fatal) (root : Nat) (addresses : List Nat) (memory : Memory) : Except Fatal Memory :=
  addresses.foldlM (fun memory address =>
    match memory.unmapUserPageIn root address with
    | none => .error absent
    | some (frame, memory) => memory.release release frame) memory

def rollbackBrk (root base mapped : Nat) (memory : Memory) : Except Fatal Memory :=
  dropPages .brkRollbackPage .brkRollbackRelease root (pageAddresses base mapped) memory

/-- The loop of `brk_locked` that maps `left` more pages; `false` is a rollback -/
def growHeap (root base : Nat) : Nat → Nat → Memory → Except Fatal (Bool × Memory)
  | 0, _, memory => .ok (true, memory)
  | left + 1, mapped, memory =>
    match memory.allocateFrame with
    | none =>
      match rollbackBrk root base mapped memory with
      | .error fatal => .error fatal
      | .ok memory => .ok (false, memory)
    | some (frame, memory) =>
      match (memory.fill frame Memory.zeroPage).mapUserPageIn root (base + mapped * pageSize) frame true false with
      | .error fatal => .error fatal
      | .ok memory => growHeap root base left (mapped + 1) memory

/-- The loop of `protect` over resident pages -/
def protectPages (root protection : Nat) (addresses : List Nat) (memory : Memory) : Except Fatal Memory :=
  addresses.foldlM (fun memory address =>
    if (memory.userPagePhysicalIn root address).isSome then
      match memory.protectUserPagePermissionsIn root address (protection &&& protRead != 0)
          (protection &&& protWrite != 0) (protection &&& protExec != 0) with
      | none => .error .protectMismatch
      | some memory => .ok memory
    else .ok memory) memory

end Loops

variable {K : Capacity}

/-! ## File backings -/

/-- One round of `remove_file_backing_range`; `none` is its `false` -/
def removeBacking (pid base stop : Nat) (index : Fin K.backings) (m : Machine K) :
    Except Fatal (Option (Machine K)) :=
  let backing := m.vm.fileBackings[index]
  if backing.pid ≠ pid then .ok (some m)
  else match backing.endOf with
    | none => .ok none
    | some backingEnd =>
      if backingEnd ≤ base ∨ stop ≤ backing.base then .ok (some m)
      else
        let removedStart := max base backing.base
        let removedEnd := min stop backingEnd
        let leftPages := (removedStart - backing.base) / pageSize
        let rightPages := (backingEnd - removedEnd) / pageSize
        let left := { backing with pages := leftPages }
        let right := { backing with
          base := removedEnd
          pages := rightPages
          fileOffset := wrap (backing.fileOffset + removedEnd - backing.base) }
        if leftPages ≠ 0 then
          if rightPages ≠ 0 then
            match m.vm.freeBackingBesides index with
            | none => .ok none
            | some rightSlot =>
              let vm := (m.vm.setBacking index left).setBacking rightSlot right
              match backing.shared? with
              | none => .ok (some { m with vm })
              | some shared =>
                match m.shmem.retainMapping shared.object with
                | none => .error .sharedSplitOverflow
                | some shmem => .ok (some { m with vm, shmem })
          else .ok (some { m with vm := m.vm.setBacking index left })
        else if rightPages ≠ 0 then .ok (some { m with vm := m.vm.setBacking index right })
        else
          let vm := m.vm.setBacking index .empty
          match backing.shared? with
          | none => .ok (some { m with vm })
          | some shared =>
            match Shmem.State.releaseMapping shared.object (m.shmem, m.memory) with
            | .error fatal => .error fatal
            | .ok (shmem, memory) => .ok (some { m with vm, shmem, memory })

def removeBackings (pid base stop : Nat) : List (Fin K.backings) → Machine K → Except Fatal (Option (Machine K))
  | [], m => .ok (some m)
  | index :: rest, m =>
    match removeBacking pid base stop index m with
    | .error fatal => .error fatal
    | .ok none => .ok none
    | .ok (some m) => removeBackings pid base stop rest m

def removeFileBackingRange (pid base pages : Nat) (m : Machine K) : Except Fatal (Option (Machine K)) :=
  match checkedAdd base (wrap (pages * pageSize)) with
  | none => .ok none
  | some stop => removeBackings pid base stop (List.finRange K.backings) m

/-- One round of `detach_shared_pages` -/
def detachBacking (pid root : Nat) (index : Fin K.backings) (m : Machine K) : Except Fatal (Machine K) :=
  let backing := m.vm.fileBackings[index]
  if backing.pid ≠ pid then .ok m
  else match backing.shared? with
    | none => .ok m
    | some shared =>
      let memory := (pageAddresses backing.base backing.pages).foldl (fun memory address =>
        match memory.unmapUserPageIn root address with
        | none => memory
        | some (_, memory) => memory) m.memory
      match Shmem.State.releaseMapping shared.object (m.shmem, memory) with
      | .error fatal => .error fatal
      | .ok (shmem, memory) => .ok { m with vm := m.vm.setBacking index .empty, shmem, memory }

def detachSharedPages (pid root : Nat) (m : Machine K) : Except Fatal (Machine K) :=
  (List.finRange K.backings).foldlM (fun m index => detachBacking pid root index m) m

/-! ## Unmapping and mapping -/

def unmapLocked (pid base pages : Nat) (m : Machine K) : Except Fatal (Bool × Machine K) :=
  match m.vm.processRoot pid with
  | none => .ok (false, m)
  | some root =>
    match checkedAdd base (wrap (pages * pageSize)) with
    | none => .ok (false, m)
    | some stop => do
      let vm ← m.vm.invalidateFaults pid
      let regions ← removeRange pid stop (stop - base) base vm.regions
      let memory ← releasePages .frameRelease (fun address => (vm.sharedBackingAt pid address).isSome) root
        (pageAddresses base pages) m.memory
      match ← removeFileBackingRange pid base pages { m with vm := { vm with regions }, memory } with
      | none => .error .backingSplitCapacity
      | some m => .ok (true, m)

def unmap (pid base length : Nat) (m : Machine K) : Except Fatal (Bool × Machine K) :=
  match exactPages base length with
  | none => .ok (false, m)
  | some pages =>
    match checkedAdd base (wrap (pages * pageSize)) with
    | none => .ok (false, m)
    | some stop =>
      if base < userAddressBase ∨ userMmapLimit < stop then .ok (false, m)
      else unmapLocked pid base pages m

def map (pid length protection : Nat) (m : Machine K) : Option Nat × Machine K :=
  match pagesForLength length with
  | none => (none, m)
  | some pages =>
    if !validProtection protection then (none, m)
    else if (m.vm.processRoot pid).isNone then (none, m)
    else
      let (base, regions) := m.vm.regions.allocateFirstFit pid pages (protection % 256) userMmapBase userMmapLimit pageSize
      (base, { m with vm := { m.vm with regions } })

/-- The part `map_file` and `map_shared` have in common: find the range of the new mapping, or take the
fixed one. -/
def reserve (pid requested pages protection : Nat) (fixed : Bool) (m : Machine K) :
    Except Fatal (Option Nat × Machine K) :=
  if (m.vm.processRoot pid).isNone then .ok (none, m)
  else if fixed then do
    let (unmapped, m) ← unmapLocked pid requested pages m
    if !unmapped then .ok (none, m)
    else match m.vm.regions.allocateFixed pid requested pages (protection % 256) userMmapBase userMmapLimit pageSize with
      | none => .ok (none, m)
      | some regions => .ok (some requested, { m with vm := { m.vm with regions } })
  else
    let (base, regions) := m.vm.regions.allocateFirstFit pid pages (protection % 256) userMmapBase userMmapLimit pageSize
    .ok (base, { m with vm := { m.vm with regions } })

def giveBack (fatal : Fatal) (pid base pages : Nat) (m : Machine K) : Except Fatal (Option Nat × Machine K) :=
  match m.vm.regions.remove pid base pages pageSize with
  | none => .error fatal
  | some regions => .ok (none, { m with vm := { m.vm with regions } })

/-- The check of a fixed range in the mapping arena. -/
def fixedRange (requested pages : Nat) : Bool :=
  requested &&& (pageSize - 1) == 0 && decide (userMmapBase ≤ requested) &&
    match checkedAdd requested (wrap (pages * pageSize)) with
    | none => false
    | some stop => decide (stop ≤ userMmapLimit)

/-- `map_file`, with the file of the descriptor -/
def mapFile (pid requested length protection : Nat) (fixed : Bool) (file : Option ReadOnlyFileBacking)
    (fileOffset : Nat) (m : Machine K) : Except Fatal (Option Nat × Machine K) :=
  match pagesForLength length with
  | none => .ok (none, m)
  | some pages =>
    if !validProtection protection || fileOffset &&& (pageSize - 1) != 0 then .ok (none, m)
    else match file with
      | none => .ok (none, m)
      | some file =>
        if fixed && !fixedRange requested pages then .ok (none, m)
        else do
          match ← reserve pid requested pages protection fixed m with
          | (none, m) => .ok (none, m)
          | (some base, m) =>
            match m.vm.freeBacking with
            | none => giveBack .fileMapRollback pid base pages m
            | some slot =>
              .ok (some base, { m with vm := m.vm.setBacking slot ⟨pid, base, pages, fileOffset, .readOnly file⟩ })

/-- `map_shared`, with the object of the descriptor -/
def mapShared (pid requested length protection : Nat) (fixed : Bool) (backing : Option SharedMemoryBacking)
    (fileOffset : Nat) (m : Machine K) : Except Fatal (Option Nat × Machine K) :=
  match pagesForLength length with
  | none => .ok (none, m)
  | some pages =>
    if !validProtection protection || fileOffset &&& (pageSize - 1) != 0 then .ok (none, m)
    else match backing with
      | none => .ok (none, m)
      | some backing =>
        if backing.size ≤ fileOffset ∨ wordMax < fileOffset + length ∨ backing.size < fileOffset + length ∨
            (fixed && !fixedRange requested pages) then .ok (none, m)
        else do
          match ← reserve pid requested pages protection fixed m with
          | (none, m) => .ok (none, m)
          | (some base, m) =>
            match m.vm.freeBacking with
            | none => giveBack .sharedMapRollback pid base pages m
            | some slot =>
              match m.shmem.retainMapping backing.object with
              | none => giveBack .sharedMapRefRollback pid base pages m
              | some shmem =>
                .ok (some base, { m with
                  vm := m.vm.setBacking slot ⟨pid, base, pages, fileOffset, .shared backing⟩
                  shmem })

def mapAnonymousFixed (pid base length protection : Nat) (m : Machine K) : Except Fatal (Option Nat × Machine K) :=
  match pagesForLength length with
  | none => .ok (none, m)
  | some pages =>
    if !validProtection protection || base &&& (pageSize - 1) != 0 || decide (base < userAddressBase) then .ok (none, m)
    else match checkedAdd base (wrap (pages * pageSize)) with
      | none => .ok (none, m)
      | some stop =>
        if userMmapLimit < stop then .ok (none, m)
        else do
          let (unmapped, m) ← unmapLocked pid base pages m
          if !unmapped then .ok (none, m)
          else if (m.vm.processRoot pid).isNone then .ok (none, m)
          else match m.vm.regions.allocateFixed pid base pages (protection % 256) userAddressBase userMmapLimit pageSize with
            | none => .ok (none, m)
            | some regions => .ok (some base, { m with vm := { m.vm with regions } })

/-! ## Advice and protection -/

def madvDontneed : Nat := 4
def madvFree : Nat := 8

/-- The values `advise` accepts. -/
def knownAdvice : List Nat := [0, 1, 2, 3, madvDontneed, madvFree, 14, 15, 16, 17]

/-- The test of `MADV_FREE` for a file backing in the range -/
def backedIn (vm : VmState K) (pid base stop : Nat) : Bool :=
  vm.fileBackings.toList.any fun backing => backing.pid == pid && decide (backing.base < stop) &&
    match backing.endOf with
    | none => false
    | some backingEnd => decide (base < backingEnd)

def advise (pid base length advice : Nat) (m : Machine K) : Except Fatal (Bool × Machine K) :=
  if advice ∉ knownAdvice then .ok (false, m)
  else match exactPages base length with
    | none => .ok (false, m)
    | some pages =>
      match m.vm.processRoot pid with
      | none => .ok (false, m)
      | some root =>
        if !rangeCovered m.vm.regions pid base pages then .ok (false, m)
        else match checkedAdd base (wrap (pages * pageSize)) with
          -- a covered range has an end, so that this only stands for the check of `MADV_FREE`
          | none => .ok (false, m)
          | some stop =>
            if advice = madvFree ∧ backedIn m.vm pid base stop then .ok (false, m)
            else if advice ≠ madvDontneed ∧ advice ≠ madvFree then .ok (true, m)
            else do
              let vm ← m.vm.invalidateFaults pid
              let memory ← releasePages .adviseFrameRelease (fun address => (vm.sharedBackingAt pid address).isSome) root
                (pageAddresses base pages) m.memory
              .ok (true, { m with vm, memory })

/-- `protect_metadata`: the root of the process and the regions with the new protection -/
def protectMetadata (pid base pages protection : Nat) (m : Machine K) :
    Except Fatal (Option (Nat × RegionTable K.regions)) :=
  match m.vm.processRoot pid with
  | none => .ok none
  | some root =>
    match checkedAdd base (wrap (pages * pageSize)) with
    | none => .ok none
    | some stop =>
      if !rangeCovered m.vm.regions pid base pages then
        -- pages without a region, but resident: the image, the heap, the stack
        if base < userAddressBase ∨ userMmapLimit < stop ∨
            (pageAddresses base pages).any fun address => (m.memory.userPagePhysicalIn root address).isNone then .ok none
        else .ok (some (root, m.vm.regions))
      else match extraSlots m.vm.regions pid protection stop (stop - base) base 0 with
        | none => .ok none
        | some extra =>
          if m.vm.regions.freeSlots < extra then .ok none
          else match protectRange pid protection stop (stop - base) base m.vm.regions with
            | .error fatal => .error fatal
            | .ok none => .ok none
            | .ok (some regions) => .ok (some (root, regions))

def protect (pid base length protection : Nat) (m : Machine K) : Except Fatal (Bool × Machine K) :=
  match exactPages base length with
  | none => .ok (false, m)
  | some pages =>
    if !validProtection protection then .ok (false, m)
    else do
      match ← protectMetadata pid base pages protection m with
      | none => .ok (false, m)
      | some (root, regions) =>
        let vm ← VmState.invalidateFaults { m.vm with regions } pid
        let memory ← protectPages root protection (pageAddresses base pages) m.memory
        .ok (true, { m with vm, memory })

/-! ## The heap -/

/-- `brk`: `brk_locked` -/
def brk (pid requested : Nat) (m : Machine K) : Except Fatal (Option Nat × Machine K) :=
  match m.vm.processSlot pid with
  | none => .ok (none, m)
  | some slot =>
    let process := m.vm.processes[slot]
    if requested = 0 then .ok (some process.currentBreak, m)
    else if requested < process.breakBase ∨ userHeapLimit < requested then .ok (none, m)
    else do
      let oldLimit := alignUp process.currentBreak
      let newLimit := alignUp requested
      let vm ← m.vm.invalidateFaults pid
      let (done, memory) ←
        if oldLimit < newLimit then growHeap process.root oldLimit ((newLimit - oldLimit) / pageSize) 0 m.memory
        else if newLimit < oldLimit then
          (dropPages .brkPageAbsent .brkFrameRelease process.root
            (pageAddresses newLimit ((oldLimit - newLimit) / pageSize)) m.memory).map fun memory => (true, memory)
        else .ok (true, m.memory)
      if !done then .ok (none, { m with vm, memory })
      else match vm.processSlot pid with
        | none => .error .brkProcessDisappeared
        | some slot =>
          .ok (some requested, { m with
            vm := vm.setProcess slot { vm.processes[slot] with currentBreak := requested }
            memory })

/-! ## Processes -/

/-- The break of a new image. -/
def imageBreak (imageEnd : Nat) : Nat := alignUp (max imageEnd userHeapBase)

def attachProcess (pid root imageEnd : Nat) (m : Machine K) : Except Fatal (Bool × Machine K) :=
  if pid = 0 ∨ root = 0 ∨ userHeapLimit < imageBreak imageEnd then .ok (false, m)
  else if (m.vm.processSlot pid).isSome then .ok (false, m)
  else do
    let vm ← m.vm.takeGeneration
    match vm.processSlot 0 with
    | none => .ok (false, { m with vm })
    | some slot =>
      .ok (true, { m with vm := vm.setProcess slot ⟨pid, root, imageBreak imageEnd, imageBreak imageEnd, vm.nextGeneration⟩ })

/-- The loop of `clone_process` over the file backings; `none` is its `expect` failing -/
def cloneBackings (parent child : Nat) : List (Fin K.backings) → VmState K → Option (VmState K)
  | [], vm => some vm
  | index :: rest, vm =>
    let backing := vm.fileBackings[index]
    if backing.pid ≠ parent ∨ !backing.isReadOnly then cloneBackings parent child rest vm
    else vm.freeBacking.bind fun slot =>
      cloneBackings parent child rest (vm.setBacking slot { backing with pid := child })

def cloneProcess (parentPid childPid childRoot : Nat) (m : Machine K) : Except Fatal (Bool × Machine K) :=
  if parentPid = 0 ∨ childPid = 0 ∨ childRoot = 0 then .ok (false, m)
  else match m.vm.processSlot parentPid with
    | none => .ok (false, m)
    | some parentSlot =>
      if (m.vm.processSlot childPid).isSome then .ok (false, m)
      else if m.vm.fileBackings.toList.countP (fun backing => backing.pid == 0) <
          m.vm.fileBackings.toList.countP (fun backing => backing.pid == parentPid && backing.isReadOnly) then .ok (false, m)
      else if (m.vm.processSlot 0).isNone then .ok (false, m)
      else match m.vm.regions.cloneOwner parentPid childPid with
        | none => .error .clonePreflight
        | some none => .ok (false, m)
        | some (some regions) =>
          match cloneBackings parentPid childPid (List.finRange K.backings) { m.vm with regions } with
          | none => .error .clonePreflight
          | some vm => do
            let vm ← vm.takeGeneration
            match vm.processSlot 0 with
            | none => .error .clonePreflight
            | some slot =>
              let parent := m.vm.processes[parentSlot]
              let child := ⟨childPid, childRoot, parent.breakBase, parent.currentBreak, vm.nextGeneration⟩
              .ok (true, { m with vm := vm.setProcess slot child })

/-- Drop the regions and backings of a process. -/
def VmState.forgetMappings (vm : VmState K) (pid : Nat) : VmState K :=
  { vm with
    regions := (vm.regions.forget pid).2
    fileBackings := vm.fileBackings.map fun backing => if !(backing.pid == pid) then backing else .empty }

/-- `close_process`; the numbers of forgotten regions and pages are returned -/
def closeProcess (pid : Nat) (m : Machine K) : Except Fatal ((Nat × Nat) × Machine K) := do
  let m ← match m.vm.processRoot pid with
    | none => .ok m
    | some root => detachSharedPages pid root m
  let forgotten := (m.vm.regions.forget pid).1
  let vm := m.vm.forgetMappings pid
  let vm := match vm.processSlot pid with
    | none => vm
    | some slot => vm.setProcess slot .empty
  .ok (forgotten, { m with vm })

/-- `replace_process`: the previous root, and the numbers of forgotten regions and pages -/
def replaceProcess (pid root imageEnd : Nat) (m : Machine K) : Except Fatal (Option (Nat × Nat × Nat) × Machine K) :=
  if pid = 0 ∨ root = 0 ∨ userHeapLimit < imageBreak imageEnd then .ok (none, m)
  else match m.vm.processSlot pid with
    | none => .ok (none, m)
    | some slot => do
      let previousRoot := m.vm.processes[slot].root
      let m ← detachSharedPages pid previousRoot m
      let forgotten := (m.vm.regions.forget pid).1
      let vm ← (m.vm.forgetMappings pid).takeGeneration
      .ok (some (previousRoot, forgotten), { m with
        vm := vm.setProcess slot ⟨pid, root, imageBreak imageEnd, imageBreak imageEnd, vm.nextGeneration⟩ })

end MakOS.Vm
