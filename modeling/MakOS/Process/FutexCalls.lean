/-
The futex calls of `kernel/src/aarch64_process.rs`, the timer and the ends of threads and groups. A wait enrols
the task in the futex table, writes the handle in its slot and blocks it; a wake takes it out of all three. The
futex word is an argument of the wait, as the value read under the lock. Calls whose address is not a writable
word return before the lock. Where the kernel ends in `fatal` there is no next state.
-/
import MakOS.Futex.Enrolled
import MakOS.Process.Scheduler

namespace MakOS.Process

open MakOS.Data MakOS.Futex

/-- `TaskId::new(group_pid, tid)` -/
def ContextSlot.taskId (slot : ContextSlot) : TaskId := ⟨slot.groupPid.toUInt64, slot.pid.toUInt64⟩

/-- `FutexKey::new(slot.context.ttbr0, address)` -/
def ContextSlot.key (slot : ContextSlot) (address : UInt64) : FutexKey := ⟨slot.root.toUInt64, address⟩

def ContextSlot.armFutex (handle : WaitHandle) (slot : ContextSlot) : ContextSlot := { slot with futexWait := some handle }

def ContextSlot.clearFutex (slot : ContextSlot) : ContextSlot := { slot with futexWait := none }

def ContextSlot.clearSleep (slot : ContextSlot) : ContextSlot := { slot with sleepDeadline := 0 }

def EAGAIN : Nat := 11

def EINVAL : Nat := 22

def ETIMEDOUT : Nat := 110

/-- The error of a wait that was not enrolled. -/
def errnoOf : WaitError → Nat
  | .valueMismatch => EAGAIN
  | .deadlineExpired => ETIMEDOUT
  | .queueFull => EAGAIN
  | .unalignedAddress => EINVAL
  | .alreadyWaiting => EINVAL

namespace SchedulerState

variable {N C F : Nat}

def currentSlot (s : SchedulerState N C F) (cpu : Fin C) : Option ContextSlot := (s.table.currentPidOn cpu).bind s.slotOf

/-- `cancel`, then `take_outcome`: the wait is as if it had not been. -/
def withdraw (s : SchedulerState N C F) (handle : WaitHandle) : SchedulerState N C F :=
  match s.futex.cancel handle with
  | none => s
  | some (_, futex) => { s with futex := (futex.takeOutcome handle).2 }

/-- FUTEX_WAIT -/
def futexWait (s : SchedulerState N C F) (cpu : Fin C) (address : UInt64) (observed value : UInt32) (now : UInt64)
    (deadline : Option UInt64) (canIdle : Bool) (eligible : Policy) : Except Nat Unit × SchedulerState N C F :=
  match s.currentSlot cpu with
  | none => (.error EINVAL, s)
  | some slot =>
    match s.futex.wait (slot.key address) slot.taskId observed value now deadline with
    | (.error error, _) => (.error (errnoOf error), s)
    | (.ok handle, futex) =>
      let s := SchedulerState.modifySlot { s with futex } slot.pid (.armFutex handle)
      match s.sleepCurrent cpu slot.pid canIdle eligible .clearFutex with
      | (true, s) => (.ok (), s)
      | (false, s') =>
        (.error (if (s.table.blockCurrentOn cpu).1 = some slot.pid then EAGAIN else EINVAL), s'.withdraw handle)

/-- The body of the loops of `activate_futex_wakes` and the timer -/
def activate (s : SchedulerState N C F) (c : Callback) : SchedulerState N C F :=
  let s := (s.modifySlot c.1.thread.toNat .clearFutex).wakeTid c.1.thread.toNat
  { s with futex := (s.futex.takeOutcome c.2).2 }

def activateFutexWakes (s : SchedulerState N C F) (called : List Callback) : SchedulerState N C F := called.foldl activate s

def wakeFutexInState (s : SchedulerState N C F) (key : FutexKey) (maximum : Nat) : Nat × SchedulerState N C F :=
  match s.futex.wake key maximum with
  | some (.ok woken, futex, called) => (woken, activateFutexWakes { s with futex } called)
  | some (.error _, futex, _) => (0, { s with futex })
  | none => (0, s)

/-- FUTEX_WAKE -/
def futexWake (s : SchedulerState N C F) (cpu : Fin C) (address : UInt64) (maximum : Nat) : Nat × SchedulerState N C F :=
  match s.currentSlot cpu with
  | none => (0, s)
  | some slot => s.wakeFutexInState (slot.key address) maximum

def requeueFutexInState (s : SchedulerState N C F) (source target : FutexKey) (wakeLimit requeueLimit : Nat) :
    Option (Nat × Nat) × SchedulerState N C F :=
  match s.futex.requeue source target wakeLimit requeueLimit with
  | some (.ok counts, futex, called) => (some counts, activateFutexWakes { s with futex } called)
  | some (.error _, futex, _) => (none, { s with futex })
  | none => (none, s)

/-- FUTEX_REQUEUE and FUTEX_CMP_REQUEUE; how many tasks were woken and moved -/
def futexRequeue (s : SchedulerState N C F) (cpu : Fin C) (address target : UInt64) (wakeLimit requeueLimit : Nat) :
    Option (Nat × Nat) × SchedulerState N C F :=
  match s.currentSlot cpu with
  | none => (none, s)
  | some slot => s.requeueFutexInState (slot.key address) (slot.key target) wakeLimit requeueLimit

/-! ## Time -/

def sleepUntil (s : SchedulerState N C F) (cpu : Fin C) (deadline : Nat) (canIdle : Bool) (eligible : Policy) :
    SchedulerState N C F :=
  match s.currentSlot cpu with
  | none => s
  | some slot =>
    ((s.modifySlot slot.pid fun slot => { slot with sleepDeadline := deadline }).sleepCurrent cpu slot.pid canIdle eligible
      .clearSleep).2

def Expired (now : UInt64) (slot : ContextSlot) : Prop := slot.sleepDeadline ≠ 0 ∧ slot.sleepDeadline ≤ now.toNat

instance decidableExpired (now : UInt64) (slot : ContextSlot) : Decidable (Expired now slot) :=
  inferInstanceAs (Decidable (_ ∧ _))

/-- The body of the second loop of the timer -/
def wakeSleeper (now : UInt64) (s : SchedulerState N C F) (i : Fin N) : SchedulerState N C F :=
  if Expired now s.contexts[i] then (s.setSlot i s.contexts[i].clearSleep).wakeTid s.contexts[i].pid else s

def serviceTimerWaiters (s : SchedulerState N C F) (now : UInt64) : SchedulerState N C F :=
  match s.futex.expire now with
  | none => s
  | some (_, futex, called) => (List.finRange N).foldl (wakeSleeper now) (activateFutexWakes { s with futex } called)

/-! ## The ends of tasks -/

/-- The zombie of a thread is reaped by its group; the roots of the two are the same. -/
def reapThread (s : SchedulerState N C F) (groupPid : Nat) (root : Option Nat) (tid : Nat) : Option (SchedulerState N C F) :=
  match s.table.wait groupPid tid with
  | (.reaped _ resource _, table) => if root.all (· = resource) then some (clearContext { s with table } tid) else none
  | _ => none

/-- `cancel_task`, and `take_outcome` if there was a wait -/
def cancelTask (s : SchedulerState N C F) (task : TaskId) : Option (SchedulerState N C F) :=
  match s.futex.cancelTask task with
  | none => none
  | some (none, futex) => some { s with futex }
  | some (some handle, futex) => some { s with futex := (futex.takeOutcome handle).2 }

/-- The current task of a CPU becomes a zombie, and no task runs there. -/
def endCurrent (s : SchedulerState N C F) (cpu : Fin C) (status : Nat) : Option (SchedulerState N C F) :=
  match s.table.exitCurrentOn cpu status with
  | (none, _) => none
  | (some _, table) => some { s with table }

/-- `exit_thread_from_exception` -/
def exitThread (s : SchedulerState N C F) (cpu : Fin C) (status : Nat) (eligible : Policy) : Option (SchedulerState N C F) := do
  let slot ← s.currentSlot cpu
  let s ← s.endCurrent cpu status
  let s ← s.reapThread slot.groupPid ((s.slotOf slot.groupPid).map ContextSlot.root) slot.pid
  let s ← s.cancelTask slot.taskId
  return (s.scheduleNextForCpu cpu eligible).2

/-- `exit_from_exception` -/
def exitTask (s : SchedulerState N C F) (cpu : Fin C) (status : Nat) (eligible : Policy) : Option (SchedulerState N C F) := do
  let slot ← s.currentSlot cpu
  if slot.pid ≠ slot.groupPid then s.exitThread cpu status eligible
  else do
    let s ← s.endCurrent cpu status
    return (s.scheduleNextForCpu cpu eligible).2

/-- A task of a group that ends is made a zombie, unless it is one. -/
def endTask (s : SchedulerState N C F) (tid status : Nat) : Option (SchedulerState N C F) :=
  match s.table.get tid with
  | none => none
  | some info =>
    if info.state = .zombie then some s
    else match s.table.terminate tid status with
      | (none, _) => none
      | (some _, table) => some { s with table }

/-- The caller has ended already. -/
def endOther (s : SchedulerState N C F) (caller tid status : Nat) : Option (SchedulerState N C F) :=
  if tid ≠ caller then s.endTask tid status else some s

def workers (s : SchedulerState N C F) (groupPid : Nat) : List Nat :=
  (s.contexts.toList.filter fun slot => slot.pid ≠ 0 ∧ slot.pid ≠ groupPid ∧ slot.groupPid = groupPid).map ContextSlot.pid

def endWorker (groupPid caller root status : Nat) (s : SchedulerState N C F) (tid : Nat) : Option (SchedulerState N C F) := do
  let s ← s.endOther caller tid status
  s.reapThread groupPid (some root) tid

def processExit (s : SchedulerState N C F) (pid : Nat) : SchedulerState N C F :=
  match s.futex.processExit pid.toUInt64 with
  | none => s
  | some (_, futex) => { s with futex }

/-- `exit_group_from_exception`, after the other CPUs have stopped -/
def exitGroup (s : SchedulerState N C F) (cpu : Fin C) (status : Nat) (eligible : Policy) : Option (SchedulerState N C F) := do
  let slot ← s.currentSlot cpu
  let leader ← s.table.get slot.groupPid
  let ended ← s.endCurrent cpu status
  let reaped ← (s.workers slot.groupPid).foldlM (endWorker slot.groupPid slot.pid leader.resource status) ended
  let last ← reaped.endOther slot.pid slot.groupPid status
  return ((last.processExit slot.groupPid).scheduleNextForCpu cpu eligible).2

/-- The part of another CPU in the end of a group: its task ends if it is of the group. -/
def stopMember (s : SchedulerState N C F) (cpu : Fin C) (groupPid status : Nat) : Option (SchedulerState N C F) := do
  let slot ← s.currentSlot cpu
  if slot.groupPid = groupPid then s.endCurrent cpu status else some s

def cloneThread (s : SchedulerState N C F) (cpu : Fin C) : SchedulerState N C F :=
  match s.currentSlot cpu with
  | none => s
  | some slot => s.startTask slot.groupPid slot.root (some slot.groupPid)

/-- A CPU that idled in the call of a task goes on with it when it is ready. -/
def resumeTask (s : SchedulerState N C F) (cpu : Fin C) (tid : Nat) : SchedulerState N C F :=
  match s.table.activateOn cpu tid with
  | .error _ => s
  | .ok table => { s with table }

end SchedulerState

end MakOS.Process
