/-
Page faults of the user memory manager (`kernel/src/aarch64_vm.rs`, `handle_page_fault`), cut where the
source takes and leaves its lock, and the machine as a whole: any number of tasks in page faults, and
calls of any process between their steps. What the loader, `fork` and the teardown of an address space do
to a root that belongs to no process goes page by page.
-/
import MakOS.Vm.Calls

namespace MakOS.Vm

open MakOS.Data MakOS.Frames MakOS.VmSpace

def accessAllowed (protection : Nat) (write execute : Bool) : Bool :=
  (!execute || protection &&& protExec != 0) && (!write || protection &&& protWrite != 0) &&
    (write || execute || protection &&& protRead != 0)

inductive FaultPreparation
  | complete (resolved : Bool)
  | populate (snapshot : FaultSnapshot)
  deriving DecidableEq, Repr

variable {K : Capacity}

/-- Map a page with the permissions of a protection. -/
def mapProtected (memory : Memory) (root page frame protection : Nat) : Except Fatal (Option Memory) :=
  memory.mapUserPagePermissionsIfAbsentIn root page frame (protection &&& protRead != 0)
    (protection &&& protWrite != 0) (protection &&& protExec != 0)

/-- The part of `prepare_fault` for a page of a shared object, which is installed at once -/
def prepareShared (request : FaultRequest) (root protection : Nat) (backing : FileBacking)
    (shared : SharedMemoryBacking) (m : Machine K) : Except Fatal (FaultPreparation × Machine K) :=
  match (checkedAdd backing.fileOffset (request.page - backing.base)).bind fun offset =>
      Shmem.State.pageFrame shared.object offset (m.shmem, m.memory) with
  | none => .ok (.complete false, m)
  | some (frame, shmem, memory) =>
    match mapProtected memory root request.page frame protection with
    | .error fatal => .error fatal
    | .ok none =>
      .ok (.complete (memory.userPageAccessPermittedIn root request.page request.write request.execute),
        { m with shmem, memory })
    | .ok (some memory) => .ok (.complete true, { m with shmem, memory })

def prepareFault (request : FaultRequest) (m : Machine K) : Except Fatal (FaultPreparation × Machine K) :=
  match m.vm.processSlot request.pid with
  | none => .ok (.complete false, m)
  | some slot =>
    match m.vm.regions.find request.pid request.page pageSize with
    | none => .ok (.complete false, m)
    | some region =>
      let process := m.vm.processes[slot]
      if !accessAllowed region.protection request.write request.execute then .ok (.complete false, m)
      else if (m.memory.userPagePhysicalIn process.root request.page).isSome then
        .ok (.complete (m.memory.userPageAccessPermittedIn process.root request.page request.write request.execute), m)
      else
        let backing := m.vm.backingAt request.pid request.page
        match backing.bind fun backing => backing.shared?.map fun shared => (backing, shared) with
        | some (backing, shared) => prepareShared request process.root region.protection backing shared m
        | none => .ok (.populate ⟨process.root, process.generation, region.protection, backing⟩, m)

/-- `load_fault_page`: the bytes read into the zeroed page; `io` is false when a package read fails -/
def loadFaultPage (storage : MountedPackageFile → Nat → Option (List UInt8)) (io : Bool) (page : Nat) :
    Option FileBacking → Option (List UInt8)
  | none => some []
  | some backing =>
    let fileOffset := min (backing.fileOffset + (page - backing.base)) wordMax
    match backing.source with
    | .empty => some []
    | .readOnly (.embedded bytes) => some ((bytes.drop fileOffset).take pageSize)
    | .readOnly (.package file) => if io then storage file fileOffset else none
    | .shared _ => none

/-- A page of bytes, with zeros behind. -/
def padPage (bytes : List UInt8) : List UInt8 :=
  bytes.take pageSize ++ List.replicate (pageSize - bytes.length) 0

/-- The work of `handle_page_fault` outside the lock: a frame is allocated, zeroed and filled. -/
def fillPage (io : Bool) (request : FaultRequest) (snapshot : FaultSnapshot) (m : Machine K) : FaultStage × Machine K :=
  match m.memory.allocateFrame with
  | none => (.idle false, m)
  | some (frame, memory) =>
    match loadFaultPage m.storage io request.page snapshot.backing with
    | none => (.commit request snapshot frame false, { m with memory := memory.fill frame Memory.zeroPage })
    | some bytes => (.commit request snapshot frame true, { m with memory := memory.fill frame (padPage bytes) })

/-- The commit of `handle_page_fault` -/
def commitFault (request : FaultRequest) (snapshot : FaultSnapshot) (frame : Nat) (loaded : Bool) (m : Machine K) :
    Except Fatal (FaultCommit × Machine K) :=
  if !m.vm.processes.toList.any (fun process => process.pid == request.pid && process.root == snapshot.root &&
      process.generation == snapshot.generation) then .ok (.retry, m)
  else
    let permitted := m.memory.userPageAccessPermittedIn snapshot.root request.page request.write request.execute
    if !loaded then .ok (.resolved permitted, m)
    else match mapProtected m.memory snapshot.root request.page frame snapshot.protection with
      | .error fatal => .error fatal
      | .ok none => .ok (.resolved permitted, m)
      | .ok (some memory) => .ok (.installed, { m with memory })

def Machine.setTask (m : Machine K) (task : Nat) (stage : FaultStage) : Machine K :=
  { m with tasks := Function.update m.tasks task stage }

/-- One step of a task in `handle_page_fault` -/
def resume (task : Nat) (io : Bool) (m : Machine K) : Except Fatal (Machine K) :=
  match m.tasks task with
  | .idle _ => .ok m
  | .prepare request =>
    match prepareFault request m with
    | .error fatal => .error fatal
    | .ok (.complete resolved, m) => .ok (m.setTask task (.idle resolved))
    | .ok (.populate snapshot, m) => .ok (m.setTask task (.populate request snapshot))
  | .populate request snapshot =>
    let (stage, m) := fillPage io request snapshot m
    .ok (m.setTask task stage)
  | .commit request snapshot frame loaded =>
    match commitFault request snapshot frame loaded m with
    | .error fatal => .error fatal
    | .ok (.installed, m) => .ok (m.setTask task (.idle true))
    | .ok (outcome, m) => .ok (m.setTask task (.discard request frame outcome))
  | .discard request frame outcome =>
    match m.memory.release .faultFrameRelease frame with
    | .error fatal => .error fatal
    | .ok memory =>
      let m := { m with memory }
      match outcome with
      | .resolved resolved => .ok (m.setTask task (.idle resolved))
      | .retry => .ok (m.setTask task (.prepare request))
      | .installed => .ok (m.setTask task (.idle true))

/-! ## Roots without a process -/

/-- A page-table root that no process has. -/
def unregistered (m : Machine K) (root : Nat) : Bool :=
  m.memory.userRoot root && !m.vm.processes.toList.any fun process => process.pid != 0 && process.root == root

/-- The loader or `clone_user_address_space_eager` puts a frame into a new address space. -/
def place (root address : Nat) (readable writable executable : Bool) (contents : List UInt8) (m : Machine K) :
    Except Fatal (Machine K) :=
  match m.memory.allocateFrame with
  | none => .ok m
  | some (frame, memory) =>
    match (memory.fill frame contents).mapUserPagePermissionsIfAbsentIn root address frame readable writable executable with
    | .error fatal => .error fatal
    | .ok none => .error .duplicateMapping
    | .ok (some memory) => .ok { m with memory }

/-- `destroy_user_address_space` gives a frame back. -/
def tearDown (root address : Nat) (m : Machine K) : Except Fatal (Machine K) :=
  match m.memory.unmapUserPageIn root address with
  | none => .ok m
  | some (frame, memory) =>
    match memory.release .tableFrameRelease frame with
    | .error fatal => .error fatal
    | .ok memory => .ok { m with memory }

/-! ## Runs -/

/-- Identifiers of processes start at one. -/
abbrev Pid : Type := { pid : Nat // pid ≠ 0 }

inductive Event
  | map (pid : Pid) (length protection : Nat)
  | mapFile (pid : Pid) (requested length protection : Nat) (fixed : Bool) (file : Option ReadOnlyFileBacking)
      (fileOffset : Nat)
  | mapShared (pid : Pid) (requested length protection : Nat) (fixed : Bool) (backing : Option SharedMemoryBacking)
      (fileOffset : Nat)
  | mapAnonymousFixed (pid : Pid) (base length protection : Nat)
  | unmap (pid : Pid) (base length : Nat)
  | advise (pid : Pid) (base length advice : Nat)
  | protect (pid : Pid) (base length protection : Nat)
  | brk (pid : Pid) (requested : Nat)
  | attach (pid : Pid) (root imageEnd : Nat)
  | clone (parent child : Pid) (root : Nat)
  | close (pid : Pid)
  | replace (pid : Pid) (root imageEnd : Nat)
  | fault (task : Nat) (pid : Pid) (address : Nat) (write execute : Bool)
  | resume (task : Nat) (io : Bool)
  | place (root address : Nat) (readable writable executable : Bool) (contents : List UInt8)
  | tearDown (root address : Nat)

/-- The permissions the page-table calls accept. -/
def soundPermissions (readable writable executable : Bool) : Bool :=
  (readable || (!writable && !executable)) && !(writable && executable)

/-- One event. Events the kernel does not cause leave the machine as it is: a task in a page fault does not
start another one, and a root goes to one process at a time. -/
def step (m : Machine K) : Event → Except Fatal (Machine K)
  | .map pid length protection => .ok (Vm.map pid length protection m).2
  | .mapFile pid requested length protection fixed file fileOffset =>
    (Vm.mapFile pid requested length protection fixed file fileOffset m).map Prod.snd
  | .mapShared pid requested length protection fixed backing fileOffset =>
    (Vm.mapShared pid requested length protection fixed backing fileOffset m).map Prod.snd
  | .mapAnonymousFixed pid base length protection => (Vm.mapAnonymousFixed pid base length protection m).map Prod.snd
  | .unmap pid base length => (Vm.unmap pid base length m).map Prod.snd
  | .advise pid base length advice => (Vm.advise pid base length advice m).map Prod.snd
  | .protect pid base length protection => (Vm.protect pid base length protection m).map Prod.snd
  | .brk pid requested => (Vm.brk pid requested m).map Prod.snd
  | .attach pid root imageEnd =>
    if unregistered m root then (attachProcess pid root imageEnd m).map Prod.snd else .ok m
  | .clone parent child root =>
    if unregistered m root then (cloneProcess parent child root m).map Prod.snd else .ok m
  | .close pid => (closeProcess pid m).map Prod.snd
  | .replace pid root imageEnd =>
    if unregistered m root then (replaceProcess pid root imageEnd m).map Prod.snd else .ok m
  | .fault task pid address write execute =>
    match m.tasks task with
    | .idle _ => .ok (m.setTask task (.prepare ⟨pid, clearLow address pageSize, write, execute⟩))
    | _ => .ok m
  | .resume task io => Vm.resume task io m
  | .place root address readable writable executable contents =>
    if unregistered m root && Memory.userPage address && (m.memory.tables root address).isNone &&
        soundPermissions readable writable executable then
      Vm.place root address readable writable executable contents m
    else .ok m
  | .tearDown root address => if unregistered m root then Vm.tearDown root address m else .ok m

/-- A run; it ends where the kernel stops. -/
def run (events : List Event) (m : Machine K) : Except Fatal (Machine K) := events.foldlM step m

end MakOS.Vm
