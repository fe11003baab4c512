/-
Signalling on several processors. `kill` and `kill_task` look their targets up, let the lock go to ask whether they
may signal them, and look them up again. Between the two a target may be gone: `kill` then passes over it and still
reports it as signalled, and `kill_task` ends the kernel. Every other call takes the lock once and cannot fail so.
-/
import MakOS.Tty.Kill

namespace MakOS.Tty

open Data Data.Act

/-- A call, with the process that makes it where that matters -/
inductive Call
  | kill (callerPid : Nat) (target : Int) (signal : Nat)
  | killTask (callerPid groupPid tid signal : Nat)
  | sendProcessGroup (processGroup signal : Nat)
  | register (pid parentPid : Nat)
  | forkProcess (parentPid childPid parentTid : Nat)
  | registerThread (tid groupPid parentTid : Nat)
  | closeThread (tid : Nat)
  | closeProcess (pid : Nat)
  | execProcess (pid : Nat)
  | raise (pid signal : Nat)
  | signalAction (pid signal : Nat) (replacement : Option SignalAction) (executable : Bool × Bool)

/-- What a processor is at, without the lock -/
inductive Phase
  | idle
  | killing (signal : Nat) (targets : List Nat)
  | signallingTask (groupPid tid signal : Nat)

inductive Outcome
  | running
  | returned (result : Except Errno Nat)
  | fatal
  deriving DecidableEq

def outcome {α : Type} (value : α → Nat) : Except Stop α → Outcome
  | .ok a => .returned (.ok (value a))
  | .error (.refused error) => .returned (.error error)
  | .error .fatal => .fatal

structure Machine where
  state : State
  phases : Nat → Phase

namespace Machine

def start : Machine := ⟨.new, fun _ => .idle⟩

def setPhase (m : Machine) (cpu : Nat) (phase : Phase) : Machine :=
  { m with phases := fun other => if other = cpu then phase else m.phases other }

def once {α : Type} (m : Machine) (value : α → Nat) (call : M α) : Outcome × Machine :=
  (outcome value (call m.state).1, { m with state := (call m.state).2 })

/-- A signal that `kill` and `kill_task` take: 0 only asks. -/
def signalValid (signal : Nat) : Bool := signal == 0 || (signalBit signal).isSome

/-- A processor starts a call, and holds the lock for its first part. -/
def begin (m : Machine) (cpu : Nat) : Call → Outcome × Machine
  | .kill callerPid target signal =>
    if !signalValid signal then (.returned (.error .invalid), m)
    else if maxProcesses < (m.state.killTargets callerPid target).length then (.fatal, m)
    else if m.state.killTargets callerPid target = [] then (.returned (.error .noSuchProcess), m)
    else (.running, m.setPhase cpu (.killing signal (m.state.killTargets callerPid target)))
  | .killTask callerPid groupPid tid signal =>
    if !signalValid signal then (.returned (.error .invalid), m)
    else if !m.state.taskExists tid (if groupPid = 0 then callerPid else groupPid) then
      (.returned (.error .noSuchProcess), m)
    else (.running, m.setPhase cpu (.signallingTask (if groupPid = 0 then callerPid else groupPid) tid signal))
  | .sendProcessGroup processGroup signal => m.once id (sendProcessGroup processGroup signal)
  | .register pid parentPid => m.once Bool.toNat (register pid parentPid)
  | .forkProcess parentPid childPid parentTid => m.once Bool.toNat (forkProcess parentPid childPid parentTid)
  | .registerThread tid groupPid parentTid => m.once Bool.toNat (registerThread tid groupPid parentTid)
  | .closeThread tid => m.once Bool.toNat (closeThread tid)
  | .closeProcess pid => m.once id (closeProcess pid)
  | .execProcess pid => m.once Bool.toNat (execProcess pid)
  | .raise pid signal => m.once (fun _ => 0) (raise pid signal)
  | .signalAction pid signal replacement executable =>
    m.once (fun _ => 0) (signalAction pid signal replacement executable)

/-- A processor goes on with the second part of its call; `may` is what `may_signal_process` answers. -/
def proceed (m : Machine) (cpu : Nat) (may : Nat → Bool) : Outcome × Machine :=
  match m.phases cpu with
  | .idle => (.running, m)
  | .killing signal targets =>
    let m := m.setPhase cpu .idle
    if targets.filter may = [] then (.returned (.error .permission), m)
    else if signal = 0 then (.returned (.ok (targets.filter may).length), m)
    else (.returned (.ok (targets.filter may).length),
      { m with state := m.state.postAll signal (targets.filter may) })
  | .signallingTask groupPid tid signal =>
    let m := m.setPhase cpu .idle
    if !may groupPid then (.returned (.error .permission), m)
    else if signal = 0 then (.returned (.ok 0), m)
    else m.once (fun _ => 0) (postTask tid signal)

end Machine

/-- What a processor does next -/
inductive Action
  | begin (cpu : Nat) (call : Call)
  | proceed (cpu : Nat) (may : Nat → Bool)

namespace Machine

/-- A processor starts a call only when it has none. -/
def act (m : Machine) : Action → Outcome × Machine
  | .begin cpu call => match m.phases cpu with
    | .idle => m.begin cpu call
    | _ => (.running, m)
  | .proceed cpu may => m.proceed cpu may

def run (actions : List Action) : Machine := actions.foldl (fun m action => (m.act action).2) start

/-- None of the targets that may be signalled is there any more. -/
def Gone (m : Machine) : Action → Prop
  | .begin _ _ => False
  | .proceed cpu may => match m.phases cpu with
    | .idle => False
    | .killing signal targets => signal ≠ 0 ∧ targets.filter may ≠ [] ∧
        ∀ pid ∈ targets.filter may, m.state.processIndex pid = none
    | .signallingTask groupPid tid signal => signal ≠ 0 ∧ may groupPid = true ∧ m.state.taskIndex tid = none

/-- The kernel goes on, and a call whose targets are all gone reports an error. -/
def Safe (m : Machine) (action : Action) : Prop :=
  (m.act action).1 ≠ .fatal ∧ (m.Gone action → ∃ error, (m.act action).1 = .returned (.error error))

end Machine

variable {s : State} {m : Machine}

/-! ## The calls that take the lock once -/

def Survives {α : Type} (x : M α) (s : State) : Prop := (x s).1 ≠ .error .fatal

variable {α β : Type}

theorem survives_bind {x : M α} {f : α → M β} (hx : Survives x s)
    (hf : ∀ a s', x s = (.ok a, s') → Survives (f a) s') : Survives (x >>= f) s := by
  unfold Survives at hx ⊢
  rcases h : x s with ⟨e | a, s'⟩
  · rw [bind_of_error h]
    rw [h] at hx
    exact fun heq => hx (congrArg Except.error (Except.error.inj heq))
  · rw [bind_of_ok h]
    exact hf a s' h

theorem survives_pure (a : α) : Survives (pure a) s := by
  unfold Survives
  simp

theorem survives_modify (f : State → State) : Survives (modify f) s := by
  unfold Survives
  simp

theorem survives_look {f : State → Except Stop α} (h : f s ≠ .error .fatal) : Survives (look f) s := h

variable {error : Errno}

theorem survives_need {f : State → Option α} {g : α → M β}
    (hg : ∀ a, Survives (g a) s) : Survives (need f error >>= g) s := by
  refine survives_bind ?_ fun a s' h => ?_
  · unfold Survives need
    rw [look_apply]
    cases f s with
    | none => simp
    | some a => simp
  · obtain ⟨-, rfl⟩ := look_ok h
    exact hg a

theorem survives_guard {test : State → Bool} {g : Unit → M β} (hg : Survives (g ()) s) :
    Survives (guard test (.refused error) >>= g) s := by
  refine survives_bind ?_ fun a s' h => ?_
  · unfold Survives
    rw [guard_apply]
    split
    · simp
    · simp
  · obtain ⟨-, rfl⟩ := guard_ok h
    exact hg

theorem ensureMainTask_survives (pid : Nat) : Survives (ensureMainTask pid) s := by
  unfold Survives ensureMainTask
  split
  · simp
  split
  · simp
  · simp

/-- The entry that `register` gives up is there: it has just been made. -/
theorem register_survives (pid parentPid : Nat) : Survives (register pid parentPid) s := by
  unfold Survives register
  split
  · simp
  split
  · exact ensureMainTask_survives pid
  split
  · simp
  rename_i i hfree
  generalize (s.inherited parentPid).getD (pid, pid) = identity
  refine survives_bind (ensureMainTask_survives pid) fun started t ht => ?_
  have hprocesses : t.processes = (s.addProcess i pid identity).processes := by
    have h := @ensureMainTask_processes (s.addProcess i pid identity) pid
    rwa [Leaves, ht] at h
  unfold Survives keepIfStarted
  split
  · simp
  split
  · rename_i hnone
    have hpid := position_eq_none.1 hnone i
    rw [hprocesses, addProcess_process] at hpid
    simp at hpid
  · simp

theorem ensureProcess_survives (pid : Nat) : Survives (ensureProcess pid) s := by
  unfold Survives ensureProcess
  split
  · simp
  · exact survives_bind (register_survives pid 0) fun registered t _ => survives_look (by simp)

theorem raise_survives (pid signal : Nat) : Survives (raise pid signal) s := by
  refine survives_need fun _ => survives_bind (ensureProcess_survives pid) fun _ t _ => survives_need fun i => ?_
  exact survives_modify _

theorem signalAction_survives (pid signal : Nat) (replacement : Option SignalAction) (executable : Bool × Bool) :
    Survives (signalAction pid signal replacement executable) s := by
  refine survives_need fun index => survives_guard (survives_bind (ensureProcess_survives pid) fun _ t _ => ?_)
  refine survives_need fun i => survives_bind (survives_look (by simp)) fun previous t' _ => ?_
  cases replacement with
  | none => exact survives_pure _
  | some replacement => exact survives_guard (survives_bind (survives_modify _) fun _ _ _ => survives_pure _)

theorem sendProcessGroup_survives (processGroup signal : Nat) : Survives (sendProcessGroup processGroup signal) s := by
  refine survives_guard (survives_bind ?_ fun count t _ => survives_guard (survives_pure _))
  unfold Survives queueProcessGroup
  split
  · simp
  · simp

/-! ## Steps -/

open Machine

theorem once_ne_fatal {value : α → Nat} {call : M α} (h : Survives call m.state) : (m.once value call).1 ≠ .fatal := by
  unfold once
  rcases hcall : (call m.state).1 with (_ | error) | a
  · exact absurd hcall h
  · exact fun heq => by cases heq
  · exact fun heq => by cases heq

theorem begin_ne_fatal (m : Machine) (cpu : Nat) (call : Call) : (m.begin cpu call).1 ≠ .fatal := by
  cases call with
  | kill callerPid target signal =>
    -- there are not more targets than processes
    have hlength : (m.state.killTargets callerPid target).length ≤ maxProcesses := by
      unfold State.killTargets
      rw [List.length_map]
      exact (List.length_filter_le _ _).trans_eq Slots.length_toList
    rw [begin, if_neg (Nat.not_lt.2 hlength)]
    split
    · simp
    split
    · simp
    · simp
  | killTask callerPid groupPid tid signal =>
    rw [begin]
    generalize (if groupPid = 0 then callerPid else groupPid) = group
    split
    · simp
    split
    · simp
    · simp
  | sendProcessGroup processGroup signal => exact once_ne_fatal (sendProcessGroup_survives processGroup signal)
  | register pid parentPid => exact once_ne_fatal (register_survives pid parentPid)
  | forkProcess parentPid childPid parentTid =>
    refine once_ne_fatal ?_
    unfold Survives forkProcess
    split
    · simp
    split <;> simp
  | registerThread tid groupPid parentTid =>
    refine once_ne_fatal ?_
    unfold Survives registerThread
    split
    · simp
    split
    · simp
    split <;> simp
  | closeThread tid => exact once_ne_fatal (by unfold Survives closeThread; split <;> simp)
  | closeProcess pid => exact once_ne_fatal (by unfold Survives closeProcess; split <;> simp)
  | execProcess pid =>
    refine once_ne_fatal ?_
    unfold Survives execProcess
    split
    · simp
    · dsimp only
      split <;> simp
  | raise pid signal => exact once_ne_fatal (raise_survives pid signal)
  | signalAction pid signal replacement executable =>
    exact once_ne_fatal (signalAction_survives pid signal replacement executable)

theorem postTask_fatal (tid signal : Nat) : (m.once (fun _ => 0) (postTask tid signal)).1 =
    if m.state.taskIndex tid = none then .fatal else .returned (.ok 0) := by
  unfold once postTask
  cases m.state.taskIndex tid with
  | none => rfl
  | some j => rfl

/-- A step that leaves the kernel running and reports what it has to is one that finds a target. -/
theorem safe_iff (m : Machine) (action : Action) : m.Safe action ↔ ¬ m.Gone action := by
  cases action with
  | begin cpu call =>
    refine ⟨fun _ => id, fun _ => ⟨?_, fun hgone => absurd hgone id⟩⟩
    rw [act]
    split
    · exact begin_ne_fatal m cpu call
    · simp
  | proceed cpu may =>
    rw [Machine.Safe, act, proceed, Machine.Gone]
    cases hphase : m.phases cpu with
    | idle => simp
    | killing signal targets =>
      dsimp only
      by_cases hpermitted : targets.filter may = []
      · simp [hpermitted]
      rw [if_neg hpermitted]
      by_cases hzero : signal = 0
      · simp [hzero]
      rw [if_neg hzero]
      simp
    | signallingTask groupPid tid signal =>
      dsimp only
      by_cases hmay : may groupPid = true
      · rw [hmay, if_neg (by simp)]
        by_cases hzero : signal = 0
        · simp [hzero]
        rw [if_neg hzero, postTask_fatal]
        by_cases hnone : m.state.taskIndex tid = none
        · simp [setPhase, hnone, hzero]
        · simp [setPhase, hnone, hzero]
      · simp [hmay]

/-- In every interleaving, a step ends the kernel or hides that its targets are gone exactly if it is the second part
of a call all of whose targets are gone. -/
theorem signalling_safe_iff (actions : List Action) (action : Action) :
    (Machine.run actions).Safe action ↔ ¬ (Machine.run actions).Gone action :=
  safe_iff (Machine.run actions) action

/-- A processor signals a task that another one closes. -/
def closedBetween : List Action :=
  [.begin 0 (.register 1 0), .begin 1 (.register 2 1), .begin 1 (.killTask 2 1 1 2), .begin 0 (.closeThread 1)]

/-- A processor signals a process that another one closes. -/
def exitedBetween : List Action :=
  [.begin 0 (.register 1 0), .begin 1 (.register 2 1), .begin 1 (.kill 2 1 2), .begin 0 (.closeProcess 1)]

/-- The first ends the kernel, the second reports one signalled process. -/
theorem target_gone :
    ((Machine.run closedBetween).act (.proceed 1 fun _ => true)).1 = .fatal ∧
      ((Machine.run exitedBetween).act (.proceed 1 fun _ => true)).1 = .returned (.ok 1) ∧
      (Machine.run exitedBetween).state.processIndex 1 = none := by
  refine ⟨?_, ?_, ?_⟩
  · decide +kernel
  · decide +kernel
  · decide +kernel

end MakOS.Tty
