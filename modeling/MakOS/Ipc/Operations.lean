/-
The operations of typed IPC (`crates/ipc`). Every operation gives the state it leaves also when it
fails. A message may carry a handle: the queue holds its own reference to the object until the
message is received, and the receiver's new handle takes that reference over.
-/
import MakOS.Ipc.Collect

namespace MakOS.Ipc

open Data Data.Act

variable {H O : Nat}

abbrev Op (H O : Nat) (α : Type) := Act (IpcCore H O) Error α

/-! ## Allocation -/

/-- `ensure_free_objects` and the error its callers make of a refusal. -/
def ensureFreeObjects (required : Nat) : Op H O Unit := fun core =>
  let core := if core.freeObjectCount < required then core.collectUnreachableObjects else core
  (if core.freeObjectCount ≥ required then .ok () else .error .objectTableFull, core)

def allocateObject (kind : ObjectKind) : Op H O ObjectRef := fun core =>
  match core.objects.toList.findIdx? fun object => object.kind.isFree with
  | none => (.error .objectTableFull, core)
  | some slot =>
    match core.objects[slot]? with
    | none => (.error .objectTableFull, core)
    | some object =>
      let generation := nextGeneration object.generation
      (.ok ⟨slot, generation⟩, core.updateObject slot fun _ => ⟨generation, 0, kind⟩)

def retainObject (object : ObjectRef) : Op H O Unit := fun core =>
  match core.resolveObject object with
  | .error error => (.error error, core)
  | .ok slot =>
    if slot.references + 1 < 2 ^ 64 then
      (.ok (), core.updateObject object.slot fun slot => { slot with references := slot.references + 1 })
    else (.error .refcountOverflow, core)

def occupyHandle (slot : Nat) (owner : Identity) (object : ObjectRef) (rights : Rights) : Op H O Handle := fun core =>
  match core.handles[slot]? with
  | none => (.error .handleTableFull, core)
  | some handle =>
    let generation := nextGeneration handle.generation
    (.ok ⟨slot, generation⟩, core.updateHandle slot ⟨generation, true, owner, object, rights⟩)

def freeHandle (core : IpcCore H O) : Except Error Nat :=
  match core.handles.toList.findIdx? fun handle => !handle.occupied with
  | some slot => .ok slot
  | none => .error .handleTableFull

def installHandle (owner : Identity) (object : ObjectRef) (rights : Rights) (retain : Bool) : Op H O Handle := do
  let slot ← look freeHandle
  let _ ← look fun core => core.resolveObject object
  if retain then
    retainObject object
    occupyHandle slot owner object rights
  else occupyHandle slot owner object rights

def setChannelPeer (object : ObjectRef) (peer : Option ObjectRef) (core : IpcCore H O) : IpcCore H O :=
  core.updateObject object.slot fun slot =>
    match slot.kind with
    | .channel channel => { slot with kind := .channel { channel with peer } }
    | _ => slot

def allocatePair : Op H O (ObjectRef × ObjectRef) := do
  let left ← allocateObject (.channel ⟨none, .empty⟩)
  let right ← allocateObject (.channel ⟨some left, .empty⟩)
  modify (setChannelPeer left (some right))
  return (left, right)

/-! ## Channels and services -/

def createChannel (leftOwner : Identity) (leftRights : Rights) (rightOwner : Identity) (rightRights : Rights) :
    Op H O (Handle × Handle) := do
  look fun _ => validateChannelRights leftRights
  look fun _ => validateChannelRights rightRights
  ensureFreeObjects 2
  guard (fun core => decide (core.freeHandleCount ≥ 2)) .handleTableFull
  let (left, right) ← allocatePair
  let leftHandle ← installHandle leftOwner left leftRights true
  let rightHandle ← installHandle rightOwner right rightRights true
  return (leftHandle, rightHandle)

def freeService (core : IpcCore H O) : Except Error Nat :=
  match core.services.toList.findIdx? fun entry => !entry.occupied with
  | some slot => .ok slot
  | none => .error .serviceTableFull

def publish (provider : Identity) (name : List UInt8) : Op H O Handle := do
  look fun _ => validateName name
  guard (fun core => (core.findService name).isNone) .duplicateService
  let registrySlot ← look freeService
  ensureFreeObjects 1
  guard (fun core => core.freeHandleCount != 0) .handleTableFull
  let object ← allocateObject (.service registrySlot)
  let listener ← installHandle provider object .accept true
  modify fun core => core.updateService registrySlot ⟨true, name, provider, .empty⟩
  return listener

def lookupService (name : List UInt8) (core : IpcCore H O) : Except Error (Nat × ServiceEntry) :=
  match core.findService name with
  | none => .error .serviceNotFound
  | some slot =>
    match core.services[slot]? with
    | none => .error .serviceNotFound
    | some entry => .ok (slot, entry)

/-- Who may connect, and whether there is room for one more connection. -/
def checkRoute (client : Identity) (entry : ServiceEntry) : Except Error Unit :=
  if client.uid ≠ entry.provider.uid ∨ client.session ≠ entry.provider.session then .error .routingDenied
  else if entry.pending.length = servicePendingCapacity then .error .pendingQueueFull
  else .ok ()

def pushPending (registrySlot : Nat) (connection : PendingConnection) : Op H O Unit := fun core =>
  match core.services[registrySlot]? with
  | none => (.error .serviceNotFound, core)
  | some entry =>
    match entry.pending.push connection with
    | none => (.error .pendingQueueFull, core)
    | some pending => (.ok (), core.updateService registrySlot { entry with pending })

def connect (client : Identity) (name : List UInt8) : Op H O Handle := do
  look fun _ => validateName name
  let (registrySlot, entry) ← look (lookupService name)
  look fun _ => checkRoute client entry
  ensureFreeObjects 2
  guard (fun core => core.freeHandleCount != 0) .handleTableFull
  let (clientObject, serverObject) ← allocatePair
  let clientHandle ← installHandle client clientObject .channelAll true
  retainObject serverObject
  pushPending registrySlot ⟨serverObject, .channelAll⟩
  return clientHandle

/-- The registry slot a listener stands for. -/
def listenerSlot (object : ObjectRef) (core : IpcCore H O) : Except Error Nat := do
  let slot ← core.resolveObject object
  match slot.kind with
  | .service registrySlot => .ok registrySlot
  | _ => .error .wrongObjectType

/-- The checks of `accept` on the service, before a handle is needed. -/
def checkPending (provider : Identity) (registrySlot : Nat) (core : IpcCore H O) : Except Error Unit :=
  match core.services[registrySlot]? with
  | none => .error .accessDenied
  | some entry =>
    if entry.provider ≠ provider then .error .accessDenied
    else if entry.pending.length = 0 then .error .pendingQueueEmpty
    else .ok ()

def popPending (registrySlot : Nat) : Op H O PendingConnection := fun core =>
  match core.services[registrySlot]? with
  | none => (.error .pendingQueueEmpty, core)
  | some entry =>
    match entry.pending.pop .empty with
    | none => (.error .pendingQueueEmpty, core)
    | some (connection, pending) => (.ok connection, core.updateService registrySlot { entry with pending })

def accept (provider : Identity) (listener : Handle) : Op H O Handle := do
  let held ← look (IpcCore.resolveHandle provider listener)
  look fun _ => requireRight held.rights .accept
  let registrySlot ← look (listenerSlot held.object)
  look (checkPending provider registrySlot)
  guard (fun core => core.freeHandleCount != 0) .handleTableFull
  let pending ← popPending registrySlot
  installHandle provider pending.endpoint pending.rights false

/-! ## Closing -/

def close (owner : Identity) (handle : Handle) : Op H O Unit := do
  let held ← look (IpcCore.resolveHandle owner handle)
  modify fun core => core.updateHandle handle.slot { held with occupied := false, rights := .none }
  modify fun core => core.releaseObject held.object
  modify IpcCore.collectUnreachableObjects

def unpublish (provider : Identity) (listener : Handle) : Op H O Unit := do
  let held ← look (IpcCore.resolveHandle provider listener)
  look fun _ => requireRight held.rights .accept
  let _ ← look (listenerSlot held.object)
  close provider listener

structure CleanupStats where
  handlesClosed : Nat
  servicesRemoved : Nat
  deriving DecidableEq, Repr

/-- One slot's turn in a cleanup of the handles whose owner is selected. -/
def cleanupSlot (select : Identity → Bool) (state : IpcCore H O × Nat) (slot : Nat) : IpcCore H O × Nat :=
  match state.1.handles[slot]? with
  | none => state
  | some handle =>
    if handle.occupied && select handle.owner then
      match close handle.owner ⟨slot, handle.generation⟩ state.1 with
      | (.ok (), core) => (core, state.2 + 1)
      | (.error _, core) => (core, state.2)
    else state

def cleanup (select : Identity → Bool) (core : IpcCore H O) : CleanupStats × IpcCore H O :=
  let state := (List.range H).foldl (cleanupSlot select) (core, 0)
  (⟨state.2, core.serviceCount - state.1.serviceCount⟩, state.1)

def cleanupIdentity (owner : Identity) : IpcCore H O → CleanupStats × IpcCore H O := cleanup (· == owner)

def cleanupPid (pid : UInt32) : IpcCore H O → CleanupStats × IpcCore H O := cleanup (·.pid == pid)

/-! ## Messages -/

def peerOf (object : ObjectRef) (core : IpcCore H O) : Except Error ObjectRef := do
  let slot ← core.resolveObject object
  match slot.kind with
  | .channel channel =>
    match channel.peer with
    | some peer => .ok peer
    | none => .error .peerClosed
  | _ => .error .wrongObjectType

def checkRoom (peer : ObjectRef) (core : IpcCore H O) : Except Error Unit := do
  let slot ← core.resolveObject peer
  match slot.kind with
  | .channel channel => if channel.queue.length = channelQueueCapacity then .error .queueFull else .ok ()
  | _ => .error .peerClosed

/-- The object named by a handle that may be transferred with the requested rights. -/
def checkTransfer (sender : Identity) (request : Transfer) (core : IpcCore H O) : Except Error ObjectRef := do
  if request.rights.isEmpty then .error .invalidRights
  else do
    let source ← core.resolveHandle sender request.handle
    requireRight source.rights .transfer
    if !source.rights.contains request.rights then .error .excessiveRights
    else do
      let slot ← core.resolveObject source.object
      match slot.kind with
      | .channel _ => if !Rights.channelAll.contains request.rights then .error .excessiveRights else .ok source.object
      | _ => .error .wrongObjectType

/-- Take a reference for the queue. -/
def prepareTransfer (sender : Identity) : Option Transfer → Op H O (Option QueuedTransfer)
  | none => pure none
  | some request => do
    let object ← look (checkTransfer sender request)
    retainObject object
    return some ⟨object, request.rights⟩

def pushMessage (peer : ObjectRef) (queued : QueuedMessage) : Op H O Unit := fun core =>
  match core.objects[peer.slot]? with
  | none => (.error .peerClosed, core)
  | some slot =>
    match slot.kind with
    | .channel channel =>
      match channel.queue.push queued with
      | none => (.error .queueFull, core)
      | some queue => (.ok (), core.updateObject peer.slot fun slot => { slot with kind := .channel { channel with queue } })
    | _ => (.error .peerClosed, core)

/-- Add a message to the queue of an endpoint, giving its reference back if there is no room. -/
def enqueue (peer : ObjectRef) (queued : QueuedMessage) : Op H O Unit := fun core =>
  match pushMessage peer queued core with
  | (.ok (), core) => (.ok (), core)
  | (.error error, core) =>
    match queued.transfer with
    | some transferred => (.error error, core.releaseObject transferred.object)
    | none => (.error error, core)

def send (sender : Identity) (endpoint : Handle) (message : WireMessage) (transfer : Option Transfer) : Op H O Unit := do
  guard (fun _ => message.isValid) .malformedMessage
  let held ← look (IpcCore.resolveHandle sender endpoint)
  look fun _ => requireRight held.rights .send
  let peer ← look (peerOf held.object)
  look (checkRoom peer)
  let transfer ← prepareTransfer sender transfer
  enqueue peer ⟨message.stampSender sender, transfer⟩

def frontMessage (object : ObjectRef) (core : IpcCore H O) : Except Error QueuedMessage := do
  let slot ← core.resolveObject object
  match slot.kind with
  | .channel channel =>
    match channel.queue.front with
    | some queued => .ok queued
    | none => .error .queueEmpty
  | _ => .error .wrongObjectType

def popMessage (object : ObjectRef) : Op H O QueuedMessage := fun core =>
  match core.objects[object.slot]? with
  | none => (.error .wrongObjectType, core)
  | some slot =>
    match slot.kind with
    | .channel channel =>
      match channel.queue.pop .empty with
      | none => (.error .queueEmpty, core)
      | some (queued, queue) =>
        (.ok queued, core.updateObject object.slot fun slot => { slot with kind := .channel { channel with queue } })
    | _ => (.error .wrongObjectType, core)

/-- Give the receiver a handle for the object that came with a message. -/
def adopt (receiver : Identity) : Option QueuedTransfer → Op H O (Option Handle)
  | none => pure none
  | some transfer => do
    let handle ← installHandle receiver transfer.object transfer.rights false
    return some handle

def receive (receiver : Identity) (endpoint : Handle) : Op H O ReceivedMessage := do
  let held ← look (IpcCore.resolveHandle receiver endpoint)
  look fun _ => requireRight held.rights .receive
  let front ← look (frontMessage held.object)
  guard (fun core => !(front.transfer.isSome && core.freeHandleCount == 0)) .handleTableFull
  let queued ← popMessage held.object
  let transferred ← adopt receiver queued.transfer
  return ⟨queued.message, transferred⟩

/-! ## Calls -/

inductive Call
  | createChannel (leftOwner : Identity) (leftRights : Rights) (rightOwner : Identity) (rightRights : Rights)
  | publish (provider : Identity) (name : List UInt8)
  | connect (client : Identity) (name : List UInt8)
  | accept (provider : Identity) (listener : Handle)
  | unpublish (provider : Identity) (listener : Handle)
  | send (sender : Identity) (endpoint : Handle) (message : WireMessage) (transfer : Option Transfer)
  | receive (receiver : Identity) (endpoint : Handle)
  | close (owner : Identity) (handle : Handle)
  | cleanupIdentity (owner : Identity)
  | cleanupPid (pid : UInt32)

inductive Reply
  | channel (left right : Handle)
  | handle (handle : Handle)
  | received (message : ReceivedMessage)
  | cleaned (stats : CleanupStats)
  | done

/-- What a call does: its reply or its error, and the state it leaves. -/
def Call.act : Call → Op H O Reply
  | .createChannel leftOwner leftRights rightOwner rightRights => do
    let (left, right) ← Ipc.createChannel leftOwner leftRights rightOwner rightRights
    return .channel left right
  | .publish provider name => do
    let listener ← Ipc.publish provider name
    return .handle listener
  | .connect client name => do
    let handle ← Ipc.connect client name
    return .handle handle
  | .accept provider listener => do
    let handle ← Ipc.accept provider listener
    return .handle handle
  | .unpublish provider listener => do
    Ipc.unpublish provider listener
    return .done
  | .send sender endpoint message transfer => do
    Ipc.send sender endpoint message transfer
    return .done
  | .receive receiver endpoint => do
    let message ← Ipc.receive receiver endpoint
    return .received message
  | .close owner handle => do
    Ipc.close owner handle
    return .done
  | .cleanupIdentity owner => fun core => (.ok (.cleaned (Ipc.cleanupIdentity owner core).1), (Ipc.cleanupIdentity owner core).2)
  | .cleanupPid pid => fun core => (.ok (.cleaned (Ipc.cleanupPid pid core).1), (Ipc.cleanupPid pid core).2)

end MakOS.Ipc
