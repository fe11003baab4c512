/-
The futex wait-queue table (`crates/futex`): a fixed number of slots, the waiting ones threaded into
one FIFO through their `next` fields. A completed slot stays occupied until its outcome is taken.

Links are indices below the capacity. The loops over the queue take fuel, and `none` is a loop that
does not end within it; the refinement shows that this never happens. The callbacks of the source
are returned as the list of their arguments.
-/
import Mathlib.Tactic

namespace MakOS.Futex

structure FutexKey where
  addressSpace : UInt64
  address : UInt64
  deriving DecidableEq, Repr

def FutexKey.isAligned (key : FutexKey) : Bool := key.address &&& 3 == 0

structure TaskId where
  process : UInt64
  thread : UInt64
  deriving DecidableEq, Repr

structure WaitHandle where
  slot : Nat
  generation : UInt64
  deriving DecidableEq, Repr

inductive WaitOutcome
  | woken
  | timedOut
  | cancelled
  deriving DecidableEq, Repr

inductive WaitError
  | unalignedAddress
  | valueMismatch
  | deadlineExpired
  | alreadyWaiting
  | queueFull
  deriving DecidableEq, Repr

inductive WakeError
  | unalignedAddress
  deriving DecidableEq, Repr

inductive RequeueError
  | unalignedAddress
  | sameKey
  deriving DecidableEq, Repr

inductive HandleError
  | invalidOrStale
  deriving DecidableEq, Repr

inductive SlotState
  | free
  | waiting
  | done (outcome : WaitOutcome)
  deriving DecidableEq, Repr

structure Slot (N : Nat) where
  generation : UInt64
  state : SlotState
  key : FutexKey
  task : TaskId
  deadline : Option UInt64
  next : Option (Fin N)
  deriving DecidableEq, Repr

def Slot.empty (N : Nat) : Slot N := ⟨0, .free, ⟨0, 0⟩, ⟨0, 0⟩, none, none⟩

structure FutexTable (N : Nat) where
  slots : Vector (Slot N) N
  head : Option (Fin N)
  tail : Option (Fin N)
  occupied : Nat
  waiting : Nat
  deriving DecidableEq, Repr

abbrev Callback := TaskId × WaitHandle

namespace FutexTable

variable {N : Nat} {σ : Type}

def new (N : Nat) : FutexTable N := ⟨Vector.replicate N (Slot.empty N), none, none, 0, 0⟩

def slot (table : FutexTable N) (index : Fin N) : Slot N := table.slots.get index

def setSlot (table : FutexTable N) (index : Fin N) (slot : Slot N) : FutexTable N :=
  { table with slots := table.slots.set index.val slot }

def handle (table : FutexTable N) (index : Fin N) : WaitHandle := ⟨index.val, (table.slot index).generation⟩

/-! ## Links -/

/-- Make what follows `previous`, or the head when there is none, lead to `next`. -/
def link (table : FutexTable N) (previous next : Option (Fin N)) : FutexTable N :=
  match previous with
  | some previous => table.setSlot previous { table.slot previous with next := next }
  | none => { table with head := next }

def unlink (table : FutexTable N) (previous : Option (Fin N)) (index : Fin N) (next : Option (Fin N)) : FutexTable N :=
  let table := table.link previous next
  if table.tail = some index then { table with tail := previous } else table

/-- The loop of `unlinkIndex`. -/
def unlinkFrom (target : Fin N) : Nat → FutexTable N → (previous current : Option (Fin N)) → Option (FutexTable N)
  | _, table, _, none => some table
  | 0, _, _, some _ => none
  | fuel + 1, table, previous, some index =>
    if index = target then some (table.unlink previous index (table.slot index).next)
    else unlinkFrom target fuel table (some index) (table.slot index).next

def unlinkIndex (table : FutexTable N) (target : Fin N) : Option (FutexTable N) :=
  unlinkFrom target N table none table.head

def release (table : FutexTable N) (index : Fin N) : FutexTable N :=
  let table := table.setSlot index { Slot.empty N with generation := (table.slot index).generation }
  { table with occupied := table.occupied - 1 }

def validate (table : FutexTable N) (handle : WaitHandle) : Except HandleError (Fin N) :=
  if h : handle.slot < N then
    let slot := table.slot ⟨handle.slot, h⟩
    if slot.state = .free ∨ slot.generation ≠ handle.generation then .error .invalidOrStale else .ok ⟨handle.slot, h⟩
  else .error .invalidOrStale

/-! ## Waiting -/

/-- Put a waiter into a free slot and at the end of the queue. -/
def enqueue (table : FutexTable N) (index : Fin N) (key : FutexKey) (task : TaskId) (deadline : Option UInt64) :
    FutexTable N :=
  let generation := (table.slot index).generation + 1
  let table := table.setSlot index ⟨generation, .waiting, key, task, deadline, none⟩
  let table := table.link table.tail (some index)
  { table with tail := some index, occupied := table.occupied + 1, waiting := table.waiting + 1 }

def wait (table : FutexTable N) (key : FutexKey) (task : TaskId) (observed expected : UInt32) (now : UInt64)
    (deadline : Option UInt64) : Except WaitError WaitHandle × FutexTable N :=
  if ¬ key.isAligned then (.error .unalignedAddress, table)
  else if observed ≠ expected then (.error .valueMismatch, table)
  else if deadline.any (· ≤ now) then (.error .deadlineExpired, table)
  else if (List.finRange N).any fun i => (table.slot i).state ≠ .free ∧ (table.slot i).task = task then
    (.error .alreadyWaiting, table)
  else match (List.finRange N).find? fun i => (table.slot i).state = .free with
    | none => (.error .queueFull, table)
    | some index =>
      let table := table.enqueue index key task deadline
      (.ok (table.handle index), table)

/-! ## Sweeps over the queue -/

inductive Verdict
  | keep
  | retag (key : FutexKey)
  | finish (outcome : WaitOutcome)
  deriving DecidableEq, Repr

def settle (table : FutexTable N) (index : Fin N) (outcome : WaitOutcome) : FutexTable N :=
  let table := table.setSlot index { table.slot index with state := .done outcome, deadline := none, next := none }
  { table with waiting := table.waiting - 1 }

def retag (table : FutexTable N) (index : Fin N) (key : FutexKey) : FutexTable N :=
  table.setSlot index { table.slot index with key := key }

/-- The loop of `wake`, `requeue` and `expire`: `judge` looks at the counters of the loop and at the
key and the deadline of a waiter. -/
def sweep (judge : σ → FutexKey → Option UInt64 → σ × Verdict) : Nat → FutexTable N → σ →
    (previous current : Option (Fin N)) → Option (FutexTable N × σ × List Callback)
  | _, table, counters, _, none => some (table, counters, [])
  | 0, _, _, _, some _ => none
  | fuel + 1, table, counters, previous, some index =>
    let slot := table.slot index
    match judge counters slot.key slot.deadline with
    | (counters, .keep) => sweep judge fuel table counters (some index) slot.next
    | (counters, .retag key) => sweep judge fuel (table.retag index key) counters (some index) slot.next
    | (counters, .finish outcome) => do
      let callback := (slot.task, table.handle index)
      let table := (table.unlink previous index slot.next).settle index outcome
      let (table, counters, called) ← sweep judge fuel table counters previous slot.next
      return (table, counters, callback :: called)

def wakeJudge (key : FutexKey) (maximum : Nat) (count : Nat) (key' : FutexKey) (_ : Option UInt64) : Nat × Verdict :=
  if count < maximum ∧ key' = key then (count + 1, .finish .woken) else (count, .keep)

def wake (table : FutexTable N) (key : FutexKey) (maximum : Nat) :
    Option (Except WakeError Nat × FutexTable N × List Callback) :=
  if ¬ key.isAligned then some (.error .unalignedAddress, table, [])
  else do
    let (table, count, called) ← sweep (wakeJudge key maximum) N table 0 none table.head
    return (.ok count, table, called)

def requeueJudge (source target : FutexKey) (wakeLimit requeueLimit : Nat) (counters : Nat × Nat) (key : FutexKey)
    (_ : Option UInt64) : (Nat × Nat) × Verdict :=
  if key = source ∧ counters.1 < wakeLimit then ((counters.1 + 1, counters.2), .finish .woken)
  else if key = source ∧ counters.2 < requeueLimit then ((counters.1, counters.2 + 1), .retag target)
  else (counters, .keep)

def requeue (table : FutexTable N) (source target : FutexKey) (wakeLimit requeueLimit : Nat) :
    Option (Except RequeueError (Nat × Nat) × FutexTable N × List Callback) :=
  if ¬ source.isAligned ∨ ¬ target.isAligned then some (.error .unalignedAddress, table, [])
  else if source = target then some (.error .sameKey, table, [])
  else do
    let (table, counters, called) ← sweep (requeueJudge source target wakeLimit requeueLimit) N table (0, 0) none table.head
    return (.ok counters, table, called)

def expireJudge (now : UInt64) (count : Nat) (_ : FutexKey) (deadline : Option UInt64) : Nat × Verdict :=
  if deadline.any (· ≤ now) then (count + 1, .finish .timedOut) else (count, .keep)

def expire (table : FutexTable N) (now : UInt64) : Option (Nat × FutexTable N × List Callback) := do
  let (table, count, called) ← sweep (expireJudge now) N table 0 none table.head
  return (count, table, called)

/-! ## Cancelling and releasing -/

def cancel (table : FutexTable N) (handle : WaitHandle) : Option (Except HandleError Bool × FutexTable N) :=
  match table.validate handle with
  | .error error => some (.error error, table)
  | .ok index =>
    if (table.slot index).state ≠ .waiting then some (.ok false, table)
    else do
      let table ← table.unlinkIndex index
      -- the slot keeps its stale link: nothing follows it before the slot is used again
      let table := table.setSlot index { table.slot index with state := .done .cancelled, deadline := none }
      return (.ok true, { table with waiting := table.waiting - 1 })

def cancelTask (table : FutexTable N) (task : TaskId) : Option (Option WaitHandle × FutexTable N) :=
  match (List.finRange N).find? fun i => (table.slot i).state = .waiting ∧ (table.slot i).task = task with
  | none => some (none, table)
  | some index => do
    let (result, after) ← table.cancel (table.handle index)
    match result with
    | .ok true => return (some (table.handle index), after)
    | _ => return (none, after)

/-- The body of the loop of `processExit`. -/
def exitSlot (process : UInt64) (table : FutexTable N) (count : Nat) (index : Fin N) : Option (FutexTable N × Nat) :=
  if (table.slot index).state ≠ .free ∧ (table.slot index).task.process = process then
    if (table.slot index).state = .waiting then do
      let table ← table.unlinkIndex index
      return ({ table with waiting := table.waiting - 1 }.release index, count + 1)
    else some (table.release index, count + 1)
  else some (table, count)

def processExit (table : FutexTable N) (process : UInt64) : Option (Nat × FutexTable N) := do
  let (table, count) ← (List.finRange N).foldlM (fun (table, count) index => exitSlot process table count index) (table, 0)
  return (count, table)

def takeOutcome (table : FutexTable N) (handle : WaitHandle) : Except HandleError (Option WaitOutcome) × FutexTable N :=
  match table.validate handle with
  | .error error => (.error error, table)
  | .ok index =>
    match (table.slot index).state with
    | .free => (.error .invalidOrStale, table)
    | .waiting => (.ok none, table)
    | .done outcome => (.ok (some outcome), table.release index)

end FutexTable

/-! ## Calls -/

inductive Call
  | wait (key : FutexKey) (task : TaskId) (observed expected : UInt32) (now : UInt64) (deadline : Option UInt64)
  | wake (key : FutexKey) (maximum : Nat)
  | requeue (source target : FutexKey) (wakeLimit requeueLimit : Nat)
  | expire (now : UInt64)
  | cancel (handle : WaitHandle)
  | cancelTask (task : TaskId)
  | processExit (process : UInt64)
  | takeOutcome (handle : WaitHandle)
  deriving DecidableEq, Repr

inductive Reply
  | waited (result : Except WaitError WaitHandle)
  | woke (result : Except WakeError Nat) (called : List Callback)
  | requeued (result : Except RequeueError (Nat × Nat)) (called : List Callback)
  | expired (count : Nat) (called : List Callback)
  | cancelled (result : Except HandleError Bool)
  | cancelledTask (handle : Option WaitHandle)
  | exited (count : Nat)
  | taken (result : Except HandleError (Option WaitOutcome))

namespace FutexTable

variable {N : Nat}

def step (table : FutexTable N) : Call → Option (Reply × FutexTable N)
  | .wait key task observed expected now deadline =>
    let (result, table) := table.wait key task observed expected now deadline
    some (.waited result, table)
  | .wake key maximum => do
    let (result, table, called) ← table.wake key maximum
    return (.woke result called, table)
  | .requeue source target wakeLimit requeueLimit => do
    let (result, table, called) ← table.requeue source target wakeLimit requeueLimit
    return (.requeued result called, table)
  | .expire now => do
    let (count, table, called) ← table.expire now
    return (.expired count called, table)
  | .cancel handle => do
    let (result, table) ← table.cancel handle
    return (.cancelled result, table)
  | .cancelTask task => do
    let (handle, table) ← table.cancelTask task
    return (.cancelledTask handle, table)
  | .processExit process => do
    let (count, table) ← table.processExit process
    return (.exited count, table)
  | .takeOutcome handle =>
    let (result, table) := table.takeOutcome handle
    some (.taken result, table)

def run (table : FutexTable N) : List Call → Option (List Reply × FutexTable N)
  | [] => some ([], table)
  | call :: calls => do
    let (reply, table) ← table.step call
    let (replies, table) ← table.run calls
    return (reply :: replies, table)

end FutexTable

end MakOS.Futex
