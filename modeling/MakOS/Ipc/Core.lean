/-
The state of typed IPC (`crates/ipc`): handles that processes hold, the channel endpoints and service
listeners they name, and the registry of services. References carry the generation of the slot they
were made for.
-/
import MakOS.Bytes.Record
import MakOS.Data.Act
import MakOS.Data.Ring

namespace MakOS.Ipc

open Data

def wireVersion : UInt8 := 1
abbrev messagePayloadSize : Nat := 52
abbrev channelQueueCapacity : Nat := 16
abbrev serviceRegistryCapacity : Nat := 8
def serviceNameCapacity : Nat := 31
abbrev servicePendingCapacity : Nat := 8

structure Identity where
  pid : UInt32
  uid : UInt32
  session : UInt64
  deriving DecidableEq, Repr

inductive Error
  | malformedMessage
  | invalidName
  | invalidRights
  | invalidHandle
  | staleHandle
  | accessDenied
  | missingRight
  | excessiveRights
  | wrongObjectType
  | handleTableFull
  | objectTableFull
  | queueFull
  | queueEmpty
  | peerClosed
  | duplicateService
  | serviceTableFull
  | serviceNotFound
  | pendingQueueFull
  | pendingQueueEmpty
  | routingDenied
  | refcountOverflow
  deriving DecidableEq, Repr

/-! ## Messages and rights -/

structure WireMessage where
  version : UInt8
  length : UInt8
  messageType : UInt16
  senderPid : UInt32
  senderUid : UInt32
  payload : Vector UInt8 messagePayloadSize
  deriving DecidableEq, Repr

namespace WireMessage

def empty : WireMessage := ⟨wireVersion, 0, 0, 0, 0, Vector.replicate _ 0⟩

def isValid (message : WireMessage) : Bool :=
  message.version == wireVersion && decide (message.length.toNat ≤ messagePayloadSize)

def stampSender (message : WireMessage) (sender : Identity) : WireMessage :=
  { message with senderPid := sender.pid, senderUid := sender.uid }

end WireMessage

structure Rights where
  bits : UInt8
  deriving DecidableEq, Repr

namespace Rights

def none : Rights := ⟨0⟩
def send : Rights := ⟨1⟩
def receive : Rights := ⟨2⟩
def transfer : Rights := ⟨4⟩
def accept : Rights := ⟨8⟩
def channelAll : Rights := ⟨7⟩

def contains (held required : Rights) : Bool := held.bits &&& required.bits == required.bits

def isEmpty (rights : Rights) : Bool := rights.bits == 0

end Rights

structure Handle where
  slot : Nat
  generation : UInt64
  deriving DecidableEq, Repr

structure Transfer where
  handle : Handle
  rights : Rights
  deriving DecidableEq, Repr

structure ReceivedMessage where
  message : WireMessage
  transferred : Option Handle
  deriving DecidableEq, Repr

/-! ## Objects -/

@[ext] structure ObjectRef where
  slot : Nat
  generation : UInt64
  deriving DecidableEq, Repr

structure QueuedTransfer where
  object : ObjectRef
  rights : Rights
  deriving DecidableEq, Repr

structure QueuedMessage where
  message : WireMessage
  transfer : Option QueuedTransfer
  deriving DecidableEq, Repr

def QueuedMessage.empty : QueuedMessage := ⟨.empty, none⟩

abbrev MessageQueue := Ring QueuedMessage channelQueueCapacity

def MessageQueue.empty : MessageQueue := Ring.empty (by decide) .empty

structure PendingConnection where
  endpoint : ObjectRef
  rights : Rights
  deriving DecidableEq, Repr

def PendingConnection.empty : PendingConnection := ⟨⟨0, 0⟩, .none⟩

abbrev PendingQueue := Ring PendingConnection servicePendingCapacity

def PendingQueue.empty : PendingQueue := Ring.empty (by decide) .empty

structure ChannelObject where
  peer : Option ObjectRef
  queue : MessageQueue

inductive ObjectKind
  | free
  | channel (channel : ChannelObject)
  | service (registrySlot : Nat)

namespace ObjectKind

def isFree : ObjectKind → Bool
  | .free => true
  | _ => false

@[simp] theorem isFree_free : free.isFree = true := rfl
@[simp] theorem isFree_channel (c : ChannelObject) : (channel c).isFree = false := rfl
@[simp] theorem isFree_service (registrySlot : Nat) : (service registrySlot).isFree = false := rfl

end ObjectKind

structure ObjectSlot where
  generation : UInt64
  references : Nat
  kind : ObjectKind

def ObjectSlot.empty : ObjectSlot := ⟨0, 0, .free⟩

structure HandleSlot where
  generation : UInt64
  occupied : Bool
  owner : Identity
  object : ObjectRef
  rights : Rights
  deriving DecidableEq, Repr

def HandleSlot.empty : HandleSlot := ⟨0, false, ⟨0, 0, 0⟩, ⟨0, 0⟩, .none⟩

/-- An entry of the registry; the name is the used part of the name array. -/
structure ServiceEntry where
  occupied : Bool
  name : List UInt8
  provider : Identity
  pending : PendingQueue

def ServiceEntry.empty : ServiceEntry := ⟨false, [], ⟨0, 0, 0⟩, .empty⟩

def ServiceEntry.nameMatches (entry : ServiceEntry) (name : List UInt8) : Bool := entry.occupied && entry.name == name

/-- The whole state, for `H` handles and `O` objects. -/
structure IpcCore (H O : Nat) where
  handles : Vector HandleSlot H
  objects : Vector ObjectSlot O
  services : Vector ServiceEntry serviceRegistryCapacity

variable {H O : Nat}

namespace IpcCore

def new : IpcCore H O := ⟨Vector.replicate _ .empty, Vector.replicate _ .empty, Vector.replicate _ .empty⟩

def updateObject (core : IpcCore H O) (slot : Nat) (f : ObjectSlot → ObjectSlot) : IpcCore H O :=
  match core.objects[slot]? with
  | some object => { core with objects := core.objects.setIfInBounds slot (f object) }
  | none => core

def updateService (core : IpcCore H O) (slot : Nat) (entry : ServiceEntry) : IpcCore H O :=
  { core with services := core.services.setIfInBounds slot entry }

def updateHandle (core : IpcCore H O) (slot : Nat) (handle : HandleSlot) : IpcCore H O :=
  { core with handles := core.handles.setIfInBounds slot handle }

/-! ## Looking things up -/

def resolveObject (core : IpcCore H O) (object : ObjectRef) : Except Error ObjectSlot :=
  match core.objects[object.slot]? with
  | none => .error .staleHandle
  | some slot =>
    if slot.generation != object.generation || slot.kind.isFree then .error .staleHandle else .ok slot

def objectRefIsLive (core : IpcCore H O) (object : ObjectRef) : Bool :=
  match core.objects[object.slot]? with
  | none => false
  | some slot => slot.generation == object.generation && !slot.kind.isFree

def resolveHandle (owner : Identity) (handle : Handle) (core : IpcCore H O) : Except Error HandleSlot :=
  match core.handles[handle.slot]? with
  | none => .error .invalidHandle
  | some slot =>
    if !slot.occupied || slot.generation != handle.generation then .error .staleHandle
    else if slot.owner ≠ owner then .error .accessDenied
    else (core.resolveObject slot.object).map fun _ => slot

def findService (core : IpcCore H O) (name : List UInt8) : Option Nat :=
  core.services.toList.findIdx? fun entry => entry.nameMatches name

def freeHandleCount (core : IpcCore H O) : Nat := core.handles.toList.countP fun slot => !slot.occupied

def freeObjectCount (core : IpcCore H O) : Nat := core.objects.toList.countP fun slot => slot.kind.isFree

def serviceCount (core : IpcCore H O) : Nat := core.services.toList.countP fun entry => entry.occupied

end IpcCore

def validateName (name : List UInt8) : Except Error Unit :=
  if name.isEmpty || decide (name.length > serviceNameCapacity) || name.any (· == 0) then .error .invalidName else .ok ()

def validateChannelRights (rights : Rights) : Except Error Unit :=
  if rights.isEmpty || !Rights.channelAll.contains rights then .error .invalidRights else .ok ()

def requireRight (held required : Rights) : Except Error Unit :=
  if held.contains required then .ok () else .error .missingRight

def nextGeneration (current : UInt64) : UInt64 := if current + 1 = 0 then 1 else current + 1

/-! ## Updates and lookups -/

namespace IpcCore

variable {core : IpcCore H O} {slot i : Nat} {f : ObjectSlot → ObjectSlot}

theorem objects_updateObject : (core.updateObject slot f).objects[i]? =
    if i = slot then (core.objects[i]?).map f else core.objects[i]? := by
  unfold updateObject
  cases h : core.objects[slot]? with
  | none =>
    by_cases hi : i = slot
    · subst hi; simp [h]
    · simp [hi]
  | some object =>
    obtain ⟨hlt, rfl⟩ := Vector.getElem?_eq_some_iff.1 h
    by_cases hi : i = slot
    · subst hi; simp [hlt]
    · simp [hi, Ne.symm hi]

@[simp] theorem handles_updateObject : (core.updateObject slot f).handles = core.handles := by
  unfold updateObject; split <;> rfl

@[simp] theorem services_updateObject : (core.updateObject slot f).services = core.services := by
  unfold updateObject; split <;> rfl

@[simp] theorem handles_updateService {entry : ServiceEntry} : (core.updateService slot entry).handles = core.handles := rfl
@[simp] theorem objects_updateService {entry : ServiceEntry} : (core.updateService slot entry).objects = core.objects := rfl
@[simp] theorem objects_updateHandle {handle : HandleSlot} : (core.updateHandle slot handle).objects = core.objects := rfl
@[simp] theorem services_updateHandle {handle : HandleSlot} : (core.updateHandle slot handle).services = core.services := rfl

/-- The reference names the object in the given slot. -/
structure Names (core : IpcCore H O) (ref : ObjectRef) (object : ObjectSlot) : Prop where
  slot : core.objects[ref.slot]? = some object
  generation : object.generation = ref.generation
  live : object.kind.isFree = false

def Live (core : IpcCore H O) (ref : ObjectRef) : Prop := ∃ object, core.Names ref object

variable {ref ref' : ObjectRef} {object object' : ObjectSlot}

theorem Names.unique (h : core.Names ref object) (h' : core.Names ref object') : object' = object :=
  Option.some.inj (h'.slot.symm.trans h.slot)

/-- Two references that name the object of one slot are the same. -/
theorem Live.eq_of_slot (h : core.Live ref) (h' : core.Live ref') (hs : ref.slot = ref'.slot) : ref = ref' := by
  obtain ⟨object, h⟩ := h
  obtain ⟨object', h'⟩ := h'
  have he : object' = object := Option.some.inj (h'.slot.symm.trans (hs ▸ h.slot))
  exact ObjectRef.ext hs (h.generation.symm.trans (he ▸ h'.generation))

theorem resolveObject_ok : core.resolveObject ref = .ok object ↔ core.Names ref object := by
  unfold resolveObject
  constructor
  · intro h
    split at h
    · cases h
    rename_i slot hslot
    split at h
    · cases h
    rename_i hc
    cases h
    simp only [Bool.or_eq_true, bne_iff_ne, not_or, not_not, Bool.not_eq_true] at hc
    exact ⟨hslot, hc.1, hc.2⟩
  · rintro ⟨hslot, hg, hk⟩
    simp [hslot, hg, hk]

theorem resolveObject_bind {β : Type} {f : ObjectSlot → Except Error β} {b : β}
    (h : (core.resolveObject ref >>= f) = .ok b) : ∃ object, core.Names ref object ∧ f object = .ok b := by
  obtain ⟨object, hobject, h⟩ := Bytes.except_bind_ok h
  exact ⟨object, resolveObject_ok.1 hobject, h⟩

theorem objectRefIsLive_iff : core.objectRefIsLive ref = true ↔ core.Live ref := by
  unfold objectRefIsLive
  constructor
  · intro h
    split at h
    · cases h
    · rename_i slot hslot
      simp only [Bool.and_eq_true, beq_iff_eq, Bool.not_eq_true'] at h
      exact ⟨slot, hslot, h.1, h.2⟩
  · rintro ⟨object, hslot, hg, hk⟩
    simp [hslot, hg, hk]

/-- A handle slot that a process holds under the given handle. -/
structure Holds (core : IpcCore H O) (owner : Identity) (handle : Handle) (held : HandleSlot) : Prop where
  slot : core.handles[handle.slot]? = some held
  occupied : held.occupied = true
  generation : held.generation = handle.generation
  owner : held.owner = owner
  live : core.Live held.object

theorem resolveHandle_ok {owner : Identity} {handle : Handle} {held : HandleSlot} :
    core.resolveHandle owner handle = .ok held ↔ core.Holds owner handle held := by
  unfold resolveHandle
  constructor
  · intro h
    split at h
    · cases h
    rename_i slot hslot
    split at h
    · cases h
    rename_i hc
    split at h
    · cases h
    rename_i ho
    cases hr : core.resolveObject slot.object with
    | error e => rw [hr] at h; cases h
    | ok object =>
      rw [hr] at h
      cases h
      simp only [Bool.or_eq_true, Bool.not_eq_true', bne_iff_ne, not_or, not_not, Bool.not_eq_false] at hc
      exact ⟨hslot, hc.1, hc.2, not_not.1 ho, object, resolveObject_ok.1 hr⟩
  · rintro ⟨hslot, hocc, hg, ho, object, hn⟩
    simp [hslot, hocc, hg, ho, resolveObject_ok.2 hn, Except.map]

end IpcCore

end MakOS.Ipc
