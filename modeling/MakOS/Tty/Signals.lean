/-
The signal state of the terminal driver: a table of processes with their pending signals and actions, a table of
tasks with their masks, and the calls on them. Each function here is what one holder of the lock does; `kill` and
`kill_task` take the lock twice and are split where they let it go. The line discipline, the window size and the
descriptors of the terminal are left out, as are the wakes in the scheduler.
-/
import MakOS.Data.Act
import MakOS.Data.Bits
import MakOS.Data.Slots

namespace MakOS.Tty

open Data Data.Act

def maxProcesses : Nat := 32

def maxTasks : Nat := 128

def signalCount : Nat := 64

abbrev Word := BitVec 64

def sigkill : Nat := 9

def sigcont : Nat := 18

def sigstop : Nat := 19

def sigtstp : Nat := 20

def sigwinch : Nat := 28

def sigDfl : Word := 0

def sigIgn : Word := 1

def saNodefer : Word := 0x40000000

def saResethand : Word := 0x80000000

/-- `SA_NOCLDSTOP | SA_NOCLDWAIT | SA_SIGINFO | SA_RESTORER | SA_ONSTACK | SA_RESTART | SA_NODEFER | SA_RESETHAND` -/
def supportedActionFlags : Word := 0xdc000007

inductive Errno
  | permission
  | noSuchProcess
  | tryAgain
  | invalid
  deriving DecidableEq, Repr

/-- A call ends with an error, or an `expect` fails and the kernel ends. -/
inductive Stop
  | fatal
  | refused (error : Errno)
  deriving DecidableEq, Repr

/-! ## Signals and masks -/

theorem signalIndex_lt {signal : Nat} (h : 1 ≤ signal ∧ signal ≤ signalCount) : signal - 1 < signalCount := by omega

def signalIndex (signal : Nat) : Option (Fin signalCount) :=
  if h : 1 ≤ signal ∧ signal ≤ signalCount then some ⟨signal - 1, signalIndex_lt h⟩ else none

def signalBit (signal : Nat) : Option Word := (signalIndex signal).map fun _ => BitVec.twoPow 64 (signal - 1)

def sanitizeSignalMask (mask : Word) : Word :=
  mask &&& ~~~BitVec.twoPow 64 (sigkill - 1) &&& ~~~BitVec.twoPow 64 (sigstop - 1)

def firstSignal (mask : Word) : Option Nat :=
  (List.range' 1 signalCount).find? fun signal => mask &&& (signalBit signal).getD 0 != 0

def has (mask : Word) (signal : Nat) : Bool := mask.getLsbD (signal - 1)

/-! ## Frames -/

def addressMask : Word := 0x0000fffffffff000

/-- What an exception saves of the task it interrupts: `ExceptionFrame`, and `UserContext` with the same fields -/
@[ext] structure Frame where
  registers : Fin 31 → Word
  elr : Word
  spsr : Word
  esr : Word
  far : Word
  spEl0 : Word
  ttbr0 : Word
  tpidrEl0 : Word
  vectorRegisters : Fin 32 → BitVec 128
  fpcr : Word
  fpsr : Word

/-- `UserContext::initial(0, 0, 0, 0)` -/
def Frame.initial : Frame where
  registers := fun _ => 0
  elr := 0
  spsr := 0
  esr := 0
  far := 0
  spEl0 := 0
  ttbr0 := 0
  tpidrEl0 := 0
  vectorRegisters := fun _ => 0
  fpcr := 0
  fpsr := 0

/-- `UserContext::capture`; `restore` writes each field back. -/
def Frame.capture (frame : Frame) : Frame := { frame with ttbr0 := frame.ttbr0 &&& addressMask }

/-! ## The tables -/

structure SignalAction where
  handler : Word
  flags : Word
  restorer : Word
  mask : Word
  deriving DecidableEq, Repr

def SignalAction.default : SignalAction := ⟨sigDfl, 0, 0, 0⟩

/-- An entry with `pid` 0 is free. -/
structure ProcessState where
  pid : Nat
  sessionId : Nat
  processGroup : Nat
  openFds : BitVec 8
  pending : Word
  actions : Slots SignalAction signalCount

def ProcessState.empty : ProcessState := ⟨0, 0, 0, 0, 0, .replicate _ .default⟩

/-- An entry with `tid` 0 is free. -/
structure TaskSignalState where
  tid : Nat
  groupPid : Nat
  pending : Word
  blocked : Word
  savedMask : Word
  inHandler : Bool
  savedContext : Frame
  waitMaskActive : Bool
  waitSavedMask : Word

def TaskSignalState.empty : TaskSignalState := ⟨0, 0, 0, 0, 0, false, .initial, false, 0⟩

structure State where
  controllingSession : Nat
  foregroundProcessGroup : Nat
  processes : Slots ProcessState maxProcesses
  tasks : Slots TaskSignalState maxTasks

def State.new : State := ⟨0, 0, .replicate _ .empty, .replicate _ .empty⟩

abbrev M := Act State Stop

namespace State

def processIndex (s : State) (pid : Nat) : Option (Fin maxProcesses) := position (fun entry => entry.pid == pid) s.processes

def taskIndex (s : State) (tid : Nat) : Option (Fin maxTasks) := position (fun entry => entry.tid == tid) s.tasks

def memberIndex (s : State) (tid groupPid : Nat) : Option (Fin maxTasks) :=
  position (fun entry => entry.tid == tid && entry.groupPid == groupPid) s.tasks

def setProcess (s : State) (i : Fin maxProcesses) (entry : ProcessState) : State :=
  { s with processes := s.processes.set i entry }

def setTask (s : State) (i : Fin maxTasks) (entry : TaskSignalState) : State := { s with tasks := s.tasks.set i entry }

end State

/-- The entry that is looked up, or the error -/
def need {α : Type} (f : State → Option α) (error : Errno) : M α :=
  look fun s => (f s).elim (.error (.refused error)) .ok

/-! ## Processes and tasks come and go -/

def ensureMainTask (pid : Nat) : M Bool := fun s =>
  if s.tasks.toList.any (fun task => task.tid == pid) then (.ok true, s)
  else match s.taskIndex 0 with
    | none => (.ok false, s)
    | some i => (.ok true, s.setTask i { TaskSignalState.empty with tid := pid, groupPid := pid })

/-- The session and the group of a process that has a registered parent -/
def State.inherited (s : State) (parentPid : Nat) : Option (Nat × Nat) :=
  if parentPid ≠ 0 then (s.processIndex parentPid).map fun i => (s.processes[i].sessionId, s.processes[i].processGroup)
  else none

/-- The entry of a new process; the first session gets the terminal. -/
def State.addProcess (s : State) (i : Fin maxProcesses) (pid : Nat) (identity : Nat × Nat) : State :=
  let s := s.setProcess i
    { ProcessState.empty with pid, sessionId := identity.1, processGroup := identity.2, openFds := 0b111 }
  if s.controllingSession = 0 then { s with controllingSession := identity.1, foregroundProcessGroup := identity.2 }
  else s

/-- The end of `register`: without a main task the new entry is given up. -/
def keepIfStarted (pid : Nat) (started : Bool) : M Bool := fun s =>
  if started then (.ok true, s)
  else match s.processIndex pid with
    | none => (.error .fatal, s)
    | some i => (.ok false, s.setProcess i .empty)

def register (pid parentPid : Nat) : M Bool := fun s =>
  if pid = 0 then (.ok false, s)
  else match s.processIndex pid with
    | some i =>
      ensureMainTask pid (s.setProcess i { s.processes[i] with openFds := s.processes[i].openFds ||| 0b111 })
    | none => match s.processIndex 0 with
      | none => (.ok false, s)
      | some i => (do keepIfStarted pid (← ensureMainTask pid))
          (s.addProcess i pid ((s.inherited parentPid).getD (pid, pid)))

def ensureProcess (pid : Nat) : M (Option (Fin maxProcesses)) := fun s =>
  match s.processIndex pid with
  | some i => (.ok (some i), s)
  | none => (do
      let registered ← register pid 0
      look fun s => .ok (if registered then s.processIndex pid else none)) s

def forkProcess (parentPid childPid parentTid : Nat) : M Bool := fun s =>
  if parentPid = 0 ∨ childPid = 0 ∨ parentTid = 0 then (.ok false, s)
  else match s.processIndex parentPid, s.memberIndex parentTid parentPid, s.processIndex 0, s.taskIndex 0 with
    | some parent, some task, some processSlot, some taskSlot =>
      (.ok true, (s.setProcess processSlot { s.processes[parent] with pid := childPid, pending := 0 }).setTask taskSlot
        { TaskSignalState.empty with tid := childPid, groupPid := childPid, blocked := s.tasks[task].blocked })
    | some _, some _, some processSlot, none =>
      -- the entry of the child is taken back
      (.ok false, s.setProcess processSlot .empty)
    | _, _, _, _ => (.ok false, s)

def registerThread (tid groupPid parentTid : Nat) : M Bool := fun s =>
  if tid = 0 ∨ groupPid = 0 ∨ parentTid = 0 then (.ok false, s)
  else if (s.processIndex groupPid).isNone || (s.taskIndex tid).isSome then (.ok false, s)
  else match s.memberIndex parentTid groupPid, s.taskIndex 0 with
    | some parent, some slot =>
      (.ok true, s.setTask slot { TaskSignalState.empty with tid, groupPid, blocked := s.tasks[parent].blocked })
    | _, _ => (.ok false, s)

def closeThread (tid : Nat) : M Bool := fun s =>
  match s.taskIndex tid with
  | none => (.ok false, s)
  | some i => (.ok true, s.setTask i .empty)

/-- `close_process` returns how many descriptors of the terminal were open. -/
def closeProcess (pid : Nat) : M Nat := fun s =>
  match s.processIndex pid with
  | none => (.ok 0, s)
  | some i => (.ok (bitCount s.processes[i].openFds), { s.setProcess i .empty with
      tasks := s.tasks.map fun task => if task.groupPid = pid then .empty else task })

/-- The task of `exec_process`: the mask stays, the frames of handlers and waits do not. -/
def TaskSignalState.forgetFrames (task : TaskSignalState) : TaskSignalState :=
  { task with
    inHandler := false, savedMask := 0, savedContext := .initial, waitMaskActive := false, waitSavedMask := 0 }

/-- The process of `exec_process` -/
def ProcessState.resetCaught (process : ProcessState) : ProcessState :=
  { process with actions := process.actions.map fun action => if action.handler ≠ sigIgn then .default else action }

/-- `exec_process`: caught signals get their default action again, ignored ones stay ignored. -/
def execProcess (pid : Nat) : M Bool := fun s =>
  match s.processIndex pid with
  | none => (.ok false, s)
  | some i =>
    let s := s.setProcess i s.processes[i].resetCaught
    match s.taskIndex pid with
    | none => (.ok false, s)
    | some j => (.ok true, s.setTask j s.tasks[j].forgetFrames)

def makeForegroundChild (pid parentPid : Nat) : M Bool := fun s =>
  match s.processIndex pid, s.processIndex parentPid with
  | some child, some parent =>
    if s.processes[child].sessionId ≠ s.processes[parent].sessionId then (.ok false, s)
    else (.ok true, { s.setProcess child { s.processes[child] with processGroup := pid } with
      foregroundProcessGroup := pid })
  | _, _ => (.ok false, s)

def setProcessGroup (caller targetPid processGroup : Nat) : M Unit := do
  let target := if targetPid = 0 then caller else targetPid
  let group := if processGroup = 0 then target else processGroup
  guard (fun _ => target == caller && group != 0) (.refused .invalid)
  let process ← ensureProcess caller
  let i ← need (fun _ => process) .invalid
  guard (fun s => (s.processes.toList.find? fun entry => entry.pid != 0 && entry.processGroup == group).all
    fun member => member.sessionId == s.processes[i].sessionId) (.refused .invalid)
  modify fun s => s.setProcess i { s.processes[i] with processGroup := group }

/-! ## Actions and masks -/

def ProcessState.setAction (process : ProcessState) (index : Fin signalCount) (action : SignalAction) : ProcessState :=
  { process with actions := process.actions.set index action }

/-- `signal_action`; `executable` says of the handler and of the restorer whether they are executable addresses. -/
def signalAction (pid signal : Nat) (replacement : Option SignalAction) (executable : Bool × Bool) :
    M SignalAction := do
  let index ← need (fun _ => signalIndex signal) .invalid
  guard (fun _ => signal != sigkill && signal != sigstop) (.refused .invalid)
  let process ← ensureProcess pid
  let i ← need (fun _ => process) .invalid
  let previous ← look fun s => .ok s.processes[i].actions[index]
  match replacement with
  | none => return previous
  | some replacement =>
    guard (fun _ => replacement.flags &&& ~~~supportedActionFlags == 0 &&
      (replacement.handler.toNat ≤ sigIgn.toNat || (executable.1 && executable.2))) (.refused .invalid)
    modify fun s => s.setProcess i (s.processes[i].setAction index
      { replacement with mask := sanitizeSignalMask replacement.mask })
    return previous

/-- The mask after `SIG_BLOCK`, `SIG_UNBLOCK` or `SIG_SETMASK` -/
def changedMask (how : Nat) (previous replacement : Word) : Option Word :=
  match how with
  | 0 => some (previous ||| replacement)
  | 1 => some (previous &&& ~~~replacement)
  | 2 => some replacement
  | _ => none

/-- A call that looks up the calling task, and works on its entry -/
def withTask {α : Type} (tid : Nat) (f : TaskSignalState → Except Errno (α × TaskSignalState)) : M α := fun s =>
  match s.taskIndex tid with
  | none => (.error (.refused .invalid), s)
  | some j => match f s.tasks[j] with
    | .error error => (.error (.refused error), s)
    | .ok (value, task) => (.ok value, s.setTask j task)

/-- The task of `signal_mask` -/
def TaskSignalState.changeMask (how : Nat) (replacement : Option Word) (task : TaskSignalState) :
    Except Errno (Word × TaskSignalState) :=
  match replacement with
  | none => if how ≤ 2 then .ok (task.blocked, task) else .error .invalid
  | some replacement =>
    if task.waitMaskActive then .error .tryAgain
    else match changedMask how task.blocked (sanitizeSignalMask replacement) with
      | none => .error .invalid
      | some blocked => .ok (task.blocked, { task with blocked })

def signalMask (tid how : Nat) (replacement : Option Word) : M Word :=
  withTask tid (TaskSignalState.changeMask how replacement)

/-- The task of `begin_wait_mask`: a call that is tried again finds its own mask. -/
def TaskSignalState.beginWait (replacement : Word) (task : TaskSignalState) : Except Errno (Unit × TaskSignalState) :=
  if task.waitMaskActive then
    if task.blocked = sanitizeSignalMask replacement then .ok ((), task) else .error .invalid
  else .ok ((), { task with
    waitSavedMask := task.blocked, blocked := sanitizeSignalMask replacement, waitMaskActive := true })

def beginWaitMask (tid : Nat) (replacement : Option Word) : M Unit :=
  match replacement with
  | none => pure ()
  | some replacement => withTask tid (TaskSignalState.beginWait replacement)

/-- The task of `finish_wait_mask` -/
def TaskSignalState.finishWait (task : TaskSignalState) : TaskSignalState :=
  if task.waitMaskActive then
    { task with blocked := task.waitSavedMask, waitSavedMask := 0, waitMaskActive := false }
  else task

def finishWaitMask (tid : Nat) : M Unit := fun s =>
  match s.taskIndex tid with
  | none => (.ok (), s)
  | some j => (.ok (), s.setTask j s.tasks[j].finishWait)

/-! ## The next signal of a task -/

/-- What the process does with a signal -/
def ProcessState.action (process : ProcessState) (signal : Nat) : SignalAction :=
  (signalIndex signal).elim .default fun index => process.actions[index]

/-- A signal that is taken and has no effect -/
def ProcessState.ignores (process : ProcessState) (signal : Nat) : Bool :=
  (process.action signal).handler == sigIgn ||
    ((process.action signal).handler == sigDfl && (signal == sigwinch || signal == sigcont))

/-- What the loops of `wait_interrupted` and `deliver_pending` work on -/
abbrev Pair := ProcessState × TaskSignalState

namespace Pair

/-- The first signal that is not blocked, and whether it was sent to the task; those sent to the process come after
all those sent to the task. -/
def nextSignal (pair : Pair) : Option (Nat × Bool) :=
  if pair.2.pending &&& ~~~pair.2.blocked != 0 then
    (firstSignal (pair.2.pending &&& ~~~pair.2.blocked)).map fun signal => (signal, true)
  else (firstSignal (pair.1.pending &&& ~~~pair.2.blocked)).map fun signal => (signal, false)

/-- The signal is not pending any more where it was found. -/
def take (pair : Pair) (signal : Nat) (taskDirected : Bool) : Pair :=
  let bit := (signalBit signal).getD 0
  if taskDirected then (pair.1, { pair.2 with pending := pair.2.pending &&& ~~~bit })
  else ({ pair.1 with pending := pair.1.pending &&& ~~~bit }, pair.2)

/-- The turns of the loop that take an ignored signal and go on. Each turn clears a bit, so there are at most as
many as bits. -/
def skipIgnored : Nat → Pair → Pair
  | 0, pair => pair
  | turns + 1, pair => match pair.nextSignal with
    | some (signal, taskDirected) =>
      if pair.1.ignores signal then skipIgnored turns (pair.take signal taskDirected) else pair
    | none => pair

/-- The pair at the turn that leaves the loop -/
def settled (pair : Pair) : Pair := pair.skipIgnored (2 * signalCount)

end Pair

/-- The process and the task that call -/
def State.caller (s : State) (pid tid : Nat) : Option (Fin maxProcesses × Fin maxTasks) :=
  match s.processIndex pid, s.taskIndex tid with
  | some i, some j => some (i, j)
  | _, _ => none

def State.pair (s : State) (i : Fin maxProcesses) (j : Fin maxTasks) : Pair := (s.processes[i], s.tasks[j])

def State.setPair (s : State) (i : Fin maxProcesses) (j : Fin maxTasks) (pair : Pair) : State :=
  (s.setProcess i pair.1).setTask j pair.2

def waitInterrupted (pid tid : Nat) : M Bool := fun s =>
  match s.caller pid tid with
  | none => (.ok false, s)
  | some (i, j) => (.ok (s.pair i j).settled.nextSignal.isSome, s.setPair i j (s.pair i j).settled)

/-! ## Delivery -/

inductive Delivery
  | none
  | handler
  | terminate (signal : Nat)
  | stop (signal : Nat)
  deriving DecidableEq, Repr

/-- The mask that is in force again after the signal: with a temporary one, the one before it -/
def TaskSignalState.restoredMask (task : TaskSignalState) : Word :=
  if task.waitMaskActive then task.waitSavedMask else task.blocked

/-- A temporary mask is not in force any more. -/
def TaskSignalState.leaveWait (task : TaskSignalState) : TaskSignalState :=
  if task.waitMaskActive then { task with waitMaskActive := false, waitSavedMask := 0 } else task

/-- The task as its handler starts -/
def TaskSignalState.enterHandler (task : TaskSignalState) (action : SignalAction) (signal : Nat) (frame : Frame) :
    TaskSignalState :=
  { task.leaveWait with
    savedContext := frame.capture
    savedMask := task.restoredMask
    blocked := task.restoredMask ||| action.mask |||
      if action.flags &&& saNodefer == 0 then (signalBit signal).getD 0 else 0
    inHandler := true }

/-- The action is used once. -/
def ProcessState.resetHandler (process : ProcessState) (signal : Nat) : ProcessState :=
  if (process.action signal).flags &&& saResethand != 0 then
    (signalIndex signal).elim process fun index => process.setAction index .default
  else process

/-- The frame with which the handler starts -/
def Frame.forHandler (frame : Frame) (action : SignalAction) (signal : Nat) : Frame :=
  { frame with
    registers := fun i =>
      if i.val = 0 then BitVec.ofNat 64 signal
      else if i.val = 1 ∨ i.val = 2 then 0
      else if i.val = 30 then action.restorer
      else frame.registers i
    elr := action.handler
    spsr := 0 }

/-- What `deliver_pending` does with the signal it took -/
def Pair.act (pair : Pair) (signal : Nat) (frame : Frame) : Pair × Delivery × Frame :=
  let action := pair.1.action signal
  if action.handler == sigDfl then
    ((pair.1, { pair.2.leaveWait with blocked := pair.2.restoredMask }),
      if signal = sigtstp then .stop signal else .terminate signal, frame)
  else ((pair.1.resetHandler signal, pair.2.enterHandler action signal frame), .handler, frame.forHandler action signal)

/-- The loop of `deliver_pending` -/
def Pair.deliver (pair : Pair) (frame : Frame) : Pair × Delivery × Frame :=
  match pair.settled.nextSignal with
  | none => (pair.settled, .none, frame)
  | some (signal, taskDirected) => (pair.settled.take signal taskDirected).act signal frame

def deliverPending (pid tid : Nat) (frame : Frame) : M (Delivery × Frame) := fun s =>
  match s.caller pid tid with
  | none => (.ok (.none, frame), s)
  | some (i, j) =>
    if s.tasks[j].inHandler then (.ok (.none, frame), s)
    else (.ok ((s.pair i j).deliver frame).2, s.setPair i j ((s.pair i j).deliver frame).1)

/-- The task of `signal_return` -/
def TaskSignalState.leaveHandler (task : TaskSignalState) : Except Errno (Frame × TaskSignalState) :=
  if task.inHandler then .ok (task.savedContext, { task with inHandler := false, blocked := task.savedMask })
  else .error .invalid

def signalReturn (tid : Nat) : M Frame := withTask tid TaskSignalState.leaveHandler

/-! ## Sending -/

def ProcessState.post (process : ProcessState) (signal : Nat) : ProcessState :=
  { process with pending := process.pending ||| (signalBit signal).getD 0 }

def raise (pid signal : Nat) : M Unit := do
  let _ ← need (fun _ => signalBit signal) .invalid
  let process ← ensureProcess pid
  let i ← need (fun _ => process) .invalid
  modify fun s => s.setProcess i (s.processes[i].post signal)

/-- The first part of `kill`: the processes that `target` selects -/
def State.killTargets (s : State) (callerPid : Nat) (target : Int) : List Nat :=
  let callerGroup := (s.processIndex callerPid).elim 0 fun i => s.processes[i].processGroup
  let requestedGroup := if target = 0 then some callerGroup
    -- `checked_neg` has no result for the least number
    else if target < -1 ∧ target ≠ -2 ^ 63 then some (-target).toNat
    else none
  (s.processes.toList.filter fun process => process.pid != 0 &&
    (if 0 < target then process.pid == target.toNat
    else if target = -1 then process.pid != 1 || callerPid == 1
    else requestedGroup == some process.processGroup)).map ProcessState.pid

/-- One process of the second part of `kill` -/
def State.postTo (s : State) (signal pid : Nat) : State :=
  match s.processIndex pid with
  | none => s
  | some i => s.setProcess i (s.processes[i].post signal)

/-- The second part of `kill`, with the processes it may signal -/
def State.postAll (s : State) (signal : Nat) (pids : List Nat) : State := pids.foldl (fun s pid => s.postTo signal pid) s

/-- The first part of `kill_task` -/
def State.taskExists (s : State) (tid groupPid : Nat) : Bool :=
  s.tasks.toList.any fun task => task.tid == tid && task.groupPid == groupPid

/-- The second part of `kill_task`: `expect("validated signal task absent")` -/
def postTask (tid signal : Nat) : M Unit := fun s =>
  match s.taskIndex tid with
  | none => (.error .fatal, s)
  | some i => (.ok (), s.setTask i
      { s.tasks[i] with pending := s.tasks[i].pending ||| (signalBit signal).getD 0 })

def ProcessState.inGroup (process : ProcessState) (processGroup : Nat) : Bool :=
  process.pid != 0 && process.processGroup == processGroup

def queueProcessGroup (processGroup signal : Nat) : M Nat := fun s =>
  if (signalBit signal).isNone then (.ok 0, s)
  else (.ok (s.processes.toList.countP fun process => process.inGroup processGroup),
    { s with processes := s.processes.map fun process =>
        if process.inGroup processGroup then process.post signal else process })

def sendProcessGroup (processGroup signal : Nat) : M Nat := do
  guard (fun _ => processGroup != 0 && (signalBit signal).isSome) (.refused .invalid)
  let count ← queueProcessGroup processGroup signal
  guard (fun _ => count != 0) (.refused .invalid)
  return count

end MakOS.Tty
