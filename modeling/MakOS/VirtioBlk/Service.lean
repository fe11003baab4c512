/-
`queue_request` on the other CPUs and `service_requests` on the CPU that owns the disks. A slot goes from `FREE` to
`WRITING`, `READY`, `SERVICING`, `DONE` and back; who may touch its request is told by the state alone. Each access to
a slot is a step, so that the calls of any number of CPUs, and of service calls that interrupt each other, may mix.
-/
import Mathlib.Tactic
import MakOS.VirtioBlk.Submit

namespace MakOS.VirtioBlk.HandOff

abbrev maxDevices : Nat := 2

abbrev serviceSlots : Nat := 8

abbrev serviceDataBytes : Nat := 4096

structure ServiceRequest where
  kind : Kind
  device : Nat
  lba : UInt32
  length : Nat
  data : List UInt8
deriving DecidableEq

/-- The check that `queue_request` and `service_requests` both make -/
def ServiceRequest.accepted (request : ServiceRequest) : Bool :=
  decide (request.device < maxDevices) && if request.kind = .flush then request.length == 0
    else request.length == 512 || request.length == serviceDataBytes

/-- A call of `queue_request`, with the bytes of its buffer when it was made -/
structure Call where
  kind : Kind
  device : Nat
  lba : UInt32
  buffer : List UInt8
deriving DecidableEq

/-- The request for a call, with what its buffer now has -/
def Call.requestFrom (call : Call) (buffer : List UInt8) : ServiceRequest where
  kind := call.kind
  device := call.device
  lba := call.lba
  length := call.buffer.length
  data := if call.kind = .write then buffer ++ List.replicate (serviceDataBytes - buffer.length) 0
    else List.replicate serviceDataBytes 0

def Call.request (call : Call) : ServiceRequest := call.requestFrom call.buffer

inductive SlotState
  | free
  | writing
  | ready
  | servicing
  | done
deriving DecidableEq

/-- A request that the owner carried out, and what a read gave -/
structure Execution where
  request : ServiceRequest
  result : Bool
  data : List UInt8

/-- A slot. What was carried out for it since it was claimed is not in the code. -/
structure Slot where
  state : SlotState
  request : ServiceRequest
  result : Bool
  log : List Execution

inductive Caller
  | idle
  /-- In the search for a free slot -/
  | scanning (call : Call) (next : Nat)
  | claimed (call : Call) (k : Fin serviceSlots)
  | filled (call : Call) (k : Fin serviceSlots)
  | waiting (call : Call) (k : Fin serviceSlots)
  /-- Has taken the result, but not yet freed the slot -/
  | collected (call : Call) (k : Fin serviceSlots) (result : Bool)

def Caller.slot : Caller → Option (Fin serviceSlots)
  | .idle | .scanning .. => none
  | .claimed _ k | .filled _ k | .waiting _ k | .collected _ k _ => some k

inductive Servicer
  | idle
  | scanning (next : Nat)
  | claimed (k : Fin serviceSlots)
  | loaded (k : Fin serviceSlots) (request : ServiceRequest)
  | executed (k : Fin serviceSlots) (request : ServiceRequest) (result : Bool)
  | written (k : Fin serviceSlots)

def Servicer.slot : Servicer → Option (Fin serviceSlots)
  | .idle | .scanning _ => none
  | .claimed k | .loaded k _ | .executed k .. | .written k => some k

/-- What a queued call returned, with the buffer as it then was and what was carried out for the call -/
structure Return where
  call : Call
  result : Bool
  buffer : List UInt8
  log : List Execution

structure State where
  slots : Fin serviceSlots → Slot
  callers : Nat → Caller
  buffers : Nat → List UInt8
  servicers : Nat → Servicer
  returns : List Return

def State.initial : State where
  slots _ := ⟨.free, ⟨.read, 0, 0, 0, List.replicate serviceDataBytes 0⟩, false, []⟩
  callers _ := .idle
  buffers _ := []
  servicers _ := .idle
  returns := []

@[simp] def State.setSlot (s : State) (k : Fin serviceSlots) (slot : Slot) : State :=
  { s with slots := Function.update s.slots k slot }

@[simp] def State.setCaller (s : State) (c : Nat) (caller : Caller) : State :=
  { s with callers := Function.update s.callers c caller }

@[simp] def State.setServicer (s : State) (v : Nat) (servicer : Servicer) : State :=
  { s with servicers := Function.update s.servicers v servicer }

/-- The program of a caller changes its buffer between two calls. -/
def State.edit (s : State) (c : Nat) (bytes : List UInt8) : State :=
  match s.callers c with
  | .idle => { s with buffers := Function.update s.buffers c bytes }
  | _ => s

/-- The arguments of a call; a flush has no buffer -/
def State.arguments (s : State) (c : Nat) (kind : Kind) (device : Nat) (lba : UInt32) : Call :=
  ⟨kind, device, lba, if kind = .flush then [] else s.buffers c⟩

/-- The checks of `queue_request` -/
def State.enter (s : State) (c : Nat) (kind : Kind) (device : Nat) (lba : UInt32) : State :=
  match s.callers c with
  | .idle => if (s.arguments c kind device lba).request.accepted
      then s.setCaller c (.scanning (s.arguments c kind device lba) 0) else s
  | _ => s

/-- One `compare_exchange` of the search; without a free slot the call returns false -/
def State.claim (s : State) (c : Nat) : State :=
  match s.callers c with
  | .scanning call next => if h : next < serviceSlots then
      if (s.slots ⟨next, h⟩).state = .free then
        (s.setSlot ⟨next, h⟩ { s.slots ⟨next, h⟩ with state := .writing }).setCaller c (.claimed call ⟨next, h⟩)
      else s.setCaller c (.scanning call (next + 1))
    else s.setCaller c .idle
  | _ => s

/-- The request and the result are written. -/
def State.fill (s : State) (c : Nat) : State :=
  match s.callers c with
  | .claimed call k =>
    (s.setSlot k { s.slots k with request := call.requestFrom (s.buffers c), result := false }).setCaller c
      (.filled call k)
  | _ => s

def State.publish (s : State) (c : Nat) : State :=
  match s.callers c with
  | .filled call k => (s.setSlot k { s.slots k with state := .ready }).setCaller c (.waiting call k)
  | _ => s

/-- One look at the state; when it is `DONE`, the result and the data are read. -/
def State.collect (s : State) (c : Nat) : State :=
  match s.callers c with
  | .waiting call k => if (s.slots k).state = .done then
      { s.setCaller c (.collected call k (s.slots k).result) with
        buffers := if (s.slots k).result = true ∧ call.kind = .read
          then Function.update s.buffers c ((s.slots k).request.data.take call.buffer.length) else s.buffers }
    else s
  | _ => s

/-- The slot is freed, and the call returns. -/
def State.release (s : State) (c : Nat) : State :=
  match s.callers c with
  | .collected call k result =>
    { (s.setSlot k { s.slots k with state := .free, log := [] }).setCaller c .idle with
      returns := s.returns ++ [⟨call, result, s.buffers c, (s.slots k).log⟩] }
  | _ => s

/-- A call of `service_requests` that finds the disks unlocked -/
def State.serve (s : State) (v : Nat) : State :=
  match s.servicers v with
  | .idle => s.setServicer v (.scanning 0)
  | _ => s

/-- One `compare_exchange` of the loop over the slots -/
def State.take (s : State) (v : Nat) : State :=
  match s.servicers v with
  | .scanning next => if h : next < serviceSlots then
      if (s.slots ⟨next, h⟩).state = .ready then
        (s.setSlot ⟨next, h⟩ { s.slots ⟨next, h⟩ with state := .servicing }).setServicer v (.claimed ⟨next, h⟩)
      else s.setServicer v (.scanning (next + 1))
    else s.setServicer v .idle
  | _ => s

def State.load (s : State) (v : Nat) : State :=
  match s.servicers v with
  | .claimed k => s.setServicer v (.loaded k (s.slots k).request)
  | _ => s

/-- The request after a read of the bytes -/
def ServiceRequest.after (request : ServiceRequest) (result : Bool) (bytes : Nat → UInt8) : ServiceRequest :=
  if result = true ∧ request.kind = .read
    then { request with data := (List.range request.length).map bytes ++ request.data.drop request.length } else request

/-- `read_on_owner`, `write_on_owner` or `flush_on_owner`, with any result and any bytes -/
def State.execute (s : State) (v : Nat) (result : Bool) (bytes : Nat → UInt8) : State :=
  match s.servicers v with
  | .loaded k request => if request.accepted then
      (s.setSlot k { s.slots k with log := (s.slots k).log ++
        [⟨request, result, (request.after result bytes).data.take request.length⟩] }).setServicer v
          (.executed k (request.after result bytes) result)
    else s.setServicer v (.executed k request false)
  | _ => s

def State.writeBack (s : State) (v : Nat) : State :=
  match s.servicers v with
  | .executed k request result => (s.setSlot k { s.slots k with request, result }).setServicer v (.written k)
  | _ => s

def State.finish (s : State) (v : Nat) : State :=
  match s.servicers v with
  | .written k => (s.setSlot k { s.slots k with state := .done }).setServicer v (.scanning (k.val + 1))
  | _ => s

inductive Action
  | edit (c : Nat) (bytes : List UInt8)
  | enter (c : Nat) (kind : Kind) (device : Nat) (lba : UInt32)
  | claim (c : Nat)
  | fill (c : Nat)
  | publish (c : Nat)
  | collect (c : Nat)
  | release (c : Nat)
  | serve (v : Nat)
  | take (v : Nat)
  | load (v : Nat)
  | execute (v : Nat) (result : Bool) (bytes : Nat → UInt8)
  | writeBack (v : Nat)
  | finish (v : Nat)

def step (s : State) : Action → State
  | .edit c bytes => s.edit c bytes
  | .enter c kind device lba => s.enter c kind device lba
  | .claim c => s.claim c
  | .fill c => s.fill c
  | .publish c => s.publish c
  | .collect c => s.collect c
  | .release c => s.release c
  | .serve v => s.serve v
  | .take v => s.take v
  | .load v => s.load v
  | .execute v result bytes => s.execute v result bytes
  | .writeBack v => s.writeBack v
  | .finish v => s.finish v

def run (actions : List Action) : State := actions.foldl step .initial

/-- The execution was of this call's request, with this result and, for a read, these bytes. -/
def Execution.Answers (e : Execution) (call : Call) (result : Bool) (bytes : List UInt8) : Prop :=
  e.request = call.request ∧ e.result = result ∧ (call.kind = .read → result = true → bytes = e.data)

/-- The call was carried out once, with this answer. -/
def Answered (log : List Execution) (call : Call) (result : Bool) (bytes : List UInt8) : Prop :=
  ∃ e, log = [e] ∧ e.Answers call result bytes

def Action.caller : Action → Option Nat
  | .edit c _ | .enter c .. | .claim c | .fill c | .publish c | .collect c | .release c => some c
  | .serve _ | .take _ | .load _ | .execute .. | .writeBack _ | .finish _ => none

structure HandedOff (s : State) : Prop where
  /-- Nothing is carried out twice, or for a slot that no call has. -/
  once : ∀ k, (s.slots k).log.length ≤ 1 ∧ ((s.slots k).state = .free → (s.slots k).log = [])
  /-- A queued call returns with the answer to its own request; the data of a write are those at the call. -/
  answered : ∀ r ∈ s.returns, Answered r.log r.call r.result r.buffer
  /-- A slot is its caller's alone until the caller has the result. -/
  owned : ∀ c k, (s.callers c).slot = some k → (s.slots k).state ≠ .free ∧ ∀ i, (s.callers i).slot = some k → i = c
  /-- Before a service call is over, a request that it found ready is taken up. -/
  served : ∀ v k (more : List Action), s.servicers v = .idle → (s.slots k).state = .ready →
    (more.foldl step (s.serve v)).servicers v = .idle →
      ∃ first rest, more = first ++ rest ∧ ((first.foldl step (s.serve v)).slots k).state = .servicing
  /-- The buffer of a caller that has returned is not read: no step of another depends on it. -/
  unread : ∀ c bytes action, s.callers c = .idle → action.caller ≠ some c →
    step (s.edit c bytes) action = (step s action).edit c bytes

end MakOS.VirtioBlk.HandOff
