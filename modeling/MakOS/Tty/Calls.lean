/-
The calls as one type of events, and what an event does to the entries that are not the caller's: their masks and
frames stay, signals may become pending, and a free entry may get a new task.
-/
import MakOS.Tty.Delivery

namespace MakOS.Tty

open Data Data.Act

/-- What one holder of the lock does. The second parts of `kill` and `kill_task` are `postAll` and `postTask`; keys
of the terminal and changes of its size are `queueProcessGroup`. -/
inductive Event
  | register (pid parentPid : Nat)
  | forkProcess (parentPid childPid parentTid : Nat)
  | registerThread (tid groupPid parentTid : Nat)
  | closeThread (tid : Nat)
  | closeProcess (pid : Nat)
  | execProcess (pid : Nat)
  | makeForegroundChild (pid parentPid : Nat)
  | setProcessGroup (caller targetPid processGroup : Nat)
  | signalAction (pid signal : Nat) (replacement : Option SignalAction) (executable : Bool × Bool)
  | signalMask (tid how : Nat) (replacement : Option Word)
  | beginWaitMask (tid : Nat) (replacement : Option Word)
  | finishWaitMask (tid : Nat)
  | waitInterrupted (pid tid : Nat)
  | raise (pid signal : Nat)
  | postAll (signal : Nat) (pids : List Nat)
  | postTask (tid signal : Nat)
  | queueProcessGroup (processGroup signal : Nat)
  | deliverPending (pid tid : Nat) (frame : Frame)
  | signalReturn (tid : Nat)

def step (s : State) : Event → State
  | .register pid parentPid => (register pid parentPid s).2
  | .forkProcess parentPid childPid parentTid => (forkProcess parentPid childPid parentTid s).2
  | .registerThread tid groupPid parentTid => (registerThread tid groupPid parentTid s).2
  | .closeThread tid => (closeThread tid s).2
  | .closeProcess pid => (closeProcess pid s).2
  | .execProcess pid => (execProcess pid s).2
  | .makeForegroundChild pid parentPid => (makeForegroundChild pid parentPid s).2
  | .setProcessGroup caller targetPid processGroup => (setProcessGroup caller targetPid processGroup s).2
  | .signalAction pid signal replacement executable => (signalAction pid signal replacement executable s).2
  | .signalMask tid how replacement => (signalMask tid how replacement s).2
  | .beginWaitMask tid replacement => (beginWaitMask tid replacement s).2
  | .finishWaitMask tid => (finishWaitMask tid s).2
  | .waitInterrupted pid tid => (waitInterrupted pid tid s).2
  | .raise pid signal => (raise pid signal s).2
  | .postAll signal pids => s.postAll signal pids
  | .postTask tid signal => (postTask tid signal s).2
  | .queueProcessGroup processGroup signal => (queueProcessGroup processGroup signal s).2
  | .deliverPending pid tid frame => (deliverPending pid tid frame s).2
  | .signalReturn tid => (signalReturn tid s).2

def run (s : State) (events : List Event) : State := events.foldl step s

variable {s s' t : State} {i k : Fin maxProcesses} {j : Fin maxTasks}

/-! ## Entries and their numbers -/

theorem setProcess_getElem (s : State) (i k : Fin maxProcesses) (entry : ProcessState) :
    (s.setProcess i entry).processes[k] = if k = i then entry else s.processes[k] := by
  split
  · rename_i h
    subst h
    exact getElem_set_self
  · rename_i h
    exact getElem_set_of_ne h

theorem setTask_getElem (s : State) (i j : Fin maxTasks) (entry : TaskSignalState) :
    (s.setTask i entry).tasks[j] = if j = i then entry else s.tasks[j] := by
  split
  · rename_i h
    subst h
    exact getElem_set_self
  · rename_i h
    exact getElem_set_of_ne h

variable {pid : Nat}

theorem processIndex_some (h : s.processIndex pid = some i) : s.processes[i].pid = pid :=
  beq_iff_eq.1 (position_some h)

variable {tid : Nat}

theorem taskIndex_some (h : s.taskIndex tid = some j) : s.tasks[j].tid = tid :=
  beq_iff_eq.1 (position_some h)

theorem caller_some (h : s.caller pid tid = some (i, j)) : s.processIndex pid = some i ∧ s.taskIndex tid = some j := by
  unfold State.caller at h
  split at h
  · cases h
    exact ⟨‹_›, ‹_›⟩
  · cases h

/-- A process keeps its place while no entry gets or loses its number. -/
theorem processIndex_congr (h : ∀ k : Fin maxProcesses, s'.processes[k].pid = pid ↔ s.processes[k].pid = pid) :
    s'.processIndex pid = s.processIndex pid := by
  refine position_congr fun k => ?_
  rw [Bool.eq_iff_iff, beq_iff_eq, beq_iff_eq]
  exact h k

theorem taskIndex_congr (h : ∀ k : Fin maxTasks, s'.tasks[k].tid = tid ↔ s.tasks[k].tid = tid) :
    s'.taskIndex tid = s.taskIndex tid := by
  refine position_congr fun k => ?_
  rw [Bool.eq_iff_iff, beq_iff_eq, beq_iff_eq]
  exact h k

/-- A task keeps its place while it has its number and no other entry gets it. -/
theorem taskIndex_stable (h : s.taskIndex tid = some j) (hj : s'.tasks[j].tid = tid)
    (hothers : ∀ k : Fin maxTasks, s'.tasks[k].tid = tid → s.tasks[k].tid = tid) : s'.taskIndex tid = some j := by
  obtain ⟨-, hbefore⟩ := position_eq_some.1 h
  refine position_eq_some.2 ⟨beq_iff_eq.2 hj, fun k hk => ?_⟩
  have hne := hbefore k hk
  rw [beq_eq_false_iff_ne] at hne ⊢
  exact fun heq => hne (hothers k heq)

theorem setProcess_taskIndex (s : State) (i : Fin maxProcesses) (entry : ProcessState) (tid : Nat) :
    (s.setProcess i entry).taskIndex tid = s.taskIndex tid := rfl

/-! ## What others do to the entry of a task -/

/-- Signals may become pending; the rest is as it was. -/
def TaskSignalState.Posted (task task' : TaskSignalState) : Prop :=
  ∃ bits, task' = { task with pending := task.pending ||| bits }

theorem TaskSignalState.Posted.refl (task : TaskSignalState) : task.Posted task :=
  ⟨0, by rw [show task.pending ||| 0 = task.pending from BitVec.or_zero]⟩

/-- A free entry gets a new task, with no mask or with the mask of another task. Only a fork does not look whether
its number is in use. -/
structure Started (s : State) (event : Event) (j : Fin maxTasks) (task' : TaskSignalState) : Prop where
  free : s.tasks[j].tid = 0
  used : task'.tid ≠ 0
  entry : task' = { TaskSignalState.empty with tid := task'.tid, groupPid := task'.groupPid, blocked := task'.blocked }
  blocked : task'.blocked = 0 ∨ ∃ k : Fin maxTasks, task'.blocked = s.tasks[k].blocked
  number : (∀ k : Fin maxTasks, s.tasks[k].tid ≠ task'.tid) ∨
    ∃ parentPid parentTid, event = .forkProcess parentPid task'.tid parentTid

variable {event : Event}

/-- What an event of another task can do to an entry -/
def TaskStep (event : Event) (s s' : State) : Prop :=
  ∀ j : Fin maxTasks, s.tasks[j].Posted s'.tasks[j] ∨ Started s event j s'.tasks[j]

theorem TaskStep.of_eq (h : s'.tasks = s.tasks) : TaskStep event s s' := by
  intro j
  rw [h]
  exact .inl (.refl _)

theorem TaskStep.setTask {entry : TaskSignalState} (h : s.tasks[j].Posted entry ∨ Started s event j entry) :
    TaskStep event s (s.setTask j entry) := by
  intro k
  rw [setTask_getElem]
  split
  · rename_i heq
    subst heq
    exact h
  · exact .inl (.refl _)

theorem Started.main (h : s.taskIndex 0 = some j) (hpid : pid ≠ 0)
    (hnew : ¬ s.tasks.toList.any (fun task => task.tid == pid) = true) :
    Started s event j { TaskSignalState.empty with tid := pid, groupPid := pid } := by
  refine ⟨taskIndex_some h, hpid, rfl, .inl rfl, .inl fun k hk => hnew (List.any_eq_true.2 ?_)⟩
  exact ⟨s.tasks[k], Slots.mem_toList.2 ⟨k, rfl⟩, beq_iff_eq.2 hk⟩

theorem ensureMainTask_taskStep (hpid : pid ≠ 0) : Leaves (TaskStep event s) (ensureMainTask pid) s := by
  unfold Leaves ensureMainTask
  split
  · exact .of_eq rfl
  rename_i hnew
  split
  · exact .of_eq rfl
  · exact .setTask (.inr (.main ‹_› hpid hnew))

theorem TaskStep.congr (h : TaskStep event s t) (hs : s.tasks = s'.tasks) : TaskStep event s' t := by
  intro j
  rcases h j with ⟨bits, hbits⟩ | hstarted
  · rw [hs] at hbits
    exact .inl ⟨bits, hbits⟩
  refine .inr ⟨hs ▸ hstarted.free, hstarted.used, hstarted.entry, ?_, ?_⟩
  · rw [← hs]
    exact hstarted.blocked
  · rw [← hs]
    exact hstarted.number

theorem TaskStep.congr_right (h : TaskStep event s t) (ht : s'.tasks = t.tasks) : TaskStep event s s' := by
  intro j
  rw [ht]
  exact h j

theorem register_taskStep (pid parentPid : Nat) : Leaves (TaskStep event s) (register pid parentPid) s := by
  unfold Leaves register
  split
  · exact .of_eq rfl
  rename_i hpid
  split
  · exact (ensureMainTask_taskStep hpid).congr rfl
  split
  · exact .of_eq rfl
  rename_i i hfree
  have hmain : Leaves (TaskStep event s) (ensureMainTask pid)
      (s.addProcess i pid ((s.inherited parentPid).getD (pid, pid))) :=
    (ensureMainTask_taskStep hpid).congr (by unfold State.addProcess; dsimp only; split <;> rfl)
  exact leaves_bind_keep hmain fun started t _ ht => ht.congr_right (by
    unfold keepIfStarted
    split
    · rfl
    split <;> rfl)

theorem ensureProcess_taskStep (pid : Nat) : Leaves (TaskStep event s) (ensureProcess pid) s := by
  unfold Leaves ensureProcess
  split
  · exact .of_eq rfl
  · exact leaves_bind_keep (register_taskStep pid 0) fun registered t _ ht => leaves_look ht

theorem forkProcess_taskStep (parentPid childPid parentTid : Nat) :
    Leaves (TaskStep (.forkProcess parentPid childPid parentTid) s) (forkProcess parentPid childPid parentTid) s := by
  unfold Leaves forkProcess
  split
  · exact .of_eq rfl
  rename_i hpids
  split
  · rename_i hslot
    have hchild : childPid ≠ 0 := fun h => hpids (.inr (.inl h))
    exact TaskStep.congr (.setTask (.inr ⟨taskIndex_some hslot, hchild, rfl, .inr ⟨_, rfl⟩,
      .inr ⟨parentPid, parentTid, rfl⟩⟩)) rfl
  · exact .of_eq rfl
  · exact .of_eq rfl

theorem registerThread_taskStep (tid groupPid parentTid : Nat) :
    Leaves (TaskStep event s) (registerThread tid groupPid parentTid) s := by
  unfold Leaves registerThread
  split
  · exact .of_eq rfl
  rename_i hids
  split
  · exact .of_eq rfl
  rename_i hnew
  have hfresh : s.taskIndex tid = none := by
    rw [Bool.or_eq_true, not_or, Option.isSome_iff_ne_none, not_not] at hnew
    exact hnew.2
  split
  · rename_i hslot
    refine .setTask (.inr ⟨taskIndex_some hslot, fun h => hids (.inl h), rfl, .inr ⟨_, rfl⟩, .inl fun k hk => ?_⟩)
    have hnone := position_eq_none.1 hfresh k
    rw [beq_eq_false_iff_ne] at hnone
    exact hnone hk
  · exact .of_eq rfl

variable {α : Type}

theorem leaves_need {β : Type} {Q : State → Prop} {f : State → Option α} {error : Errno} {g : α → M β} (h : Q s)
    (hok : ∀ a, f s = some a → Leaves Q (g a) s) : Leaves Q (need f error >>= g) s := by
  refine leaves_bind_look h fun a ha => hok a ?_
  cases hf : f s with
  | none => rw [hf] at ha; cases ha
  | some b => rw [hf] at ha; cases ha; rfl

theorem setProcessGroup_taskStep (caller targetPid processGroup : Nat) :
    Leaves (TaskStep event s) (setProcessGroup caller targetPid processGroup) s := by
  refine leaves_bind_guard (.of_eq rfl) fun _ => leaves_bind_keep (ensureProcess_taskStep caller) fun _ t _ ht => ?_
  refine leaves_need ht fun i _ => leaves_bind_guard ht fun _ => leaves_modify ?_
  exact ht.congr_right rfl

theorem signalAction_taskStep (pid signal : Nat) (replacement : Option SignalAction) (executable : Bool × Bool) :
    Leaves (TaskStep event s) (signalAction pid signal replacement executable) s := by
  refine leaves_need (.of_eq rfl) fun index _ => leaves_bind_guard (.of_eq rfl) fun _ => ?_
  refine leaves_bind_keep (ensureProcess_taskStep pid) fun _ t _ ht => leaves_need ht fun i _ => ?_
  cases replacement with
  | none => exact leaves_pure ht
  | some replacement => exact leaves_bind_guard ht fun _ => leaves_bind_modify (leaves_pure (ht.congr_right rfl))

theorem raise_taskStep (pid signal : Nat) : Leaves (TaskStep event s) (raise pid signal) s := by
  refine leaves_need (.of_eq rfl) fun _ _ => leaves_bind_keep (ensureProcess_taskStep pid) fun _ t _ ht => ?_
  exact leaves_need ht fun i _ => leaves_modify (ht.congr_right rfl)

theorem postAll_tasks (s : State) (signal : Nat) (pids : List Nat) : (s.postAll signal pids).tasks = s.tasks := by
  induction pids generalizing s with
  | nil => rfl
  | cons pid rest ih => exact (ih (s.postTo signal pid)).trans (by unfold State.postTo; split <;> rfl)

theorem postTask_taskStep (tid signal : Nat) : Leaves (TaskStep event s) (postTask tid signal) s := by
  unfold Leaves postTask
  split
  · exact .of_eq rfl
  · exact .setTask (.inl ⟨_, rfl⟩)

/-! ## The calls of a task -/

def Event.actor : Event → Option Nat
  | .execProcess pid => some pid
  | .signalMask tid _ _ => some tid
  | .beginWaitMask tid _ => some tid
  | .finishWaitMask tid => some tid
  | .waitInterrupted _ tid => some tid
  | .deliverPending _ tid _ => some tid
  | .signalReturn tid => some tid
  | _ => none

def Event.Closes (s : State) (j : Fin maxTasks) : Event → Prop
  | .closeThread tid => s.taskIndex tid = some j
  | .closeProcess pid => s.processIndex pid ≠ none ∧ s.tasks[j].groupPid = pid
  | _ => False

variable {k : Fin maxTasks}

theorem ne_of_index (h : s.taskIndex tid ≠ some j) (hk : s.taskIndex tid = some k) : j ≠ k := by
  rintro rfl
  exact h hk

variable {f : TaskSignalState → Except Errno (α × TaskSignalState)}

theorem withTask_tasks (h : s.taskIndex tid ≠ some j) : (withTask tid f s).2.tasks[j] = s.tasks[j] := by
  unfold withTask
  split
  · rfl
  rename_i k hk
  split
  · rfl
  · rw [setTask_getElem, if_neg (ne_of_index h hk)]

/-- What a call on the task leaves, whether it fails or not -/
def left {α : Type} (task : TaskSignalState) (result : Except Errno (α × TaskSignalState)) : TaskSignalState :=
  result.toOption.elim task Prod.snd

theorem withTask_at (h : s.taskIndex tid = some j) : (withTask tid f s).2.tasks[j] = left s.tasks[j] (f s.tasks[j]) := by
  unfold withTask
  rw [h]
  dsimp only
  split
  · rename_i hf
    rw [hf]
    rfl
  · rename_i hf
    rw [setTask_getElem, if_pos rfl, hf]
    rfl

theorem withTask_processes : (withTask tid f s).2.processes = s.processes := by
  unfold withTask
  split
  · rfl
  · split <;> rfl

theorem finishWaitMask_at (h : s.taskIndex tid = some j) : (finishWaitMask tid s).2.tasks[j] = s.tasks[j].finishWait := by
  unfold finishWaitMask
  rw [h]
  exact (setTask_getElem ..).trans (if_pos rfl)

theorem finishWaitMask_tasks (h : s.taskIndex tid ≠ some j) : (finishWaitMask tid s).2.tasks[j] = s.tasks[j] := by
  unfold finishWaitMask
  split
  · rfl
  · rename_i k hk
    exact (setTask_getElem ..).trans (if_neg (ne_of_index h hk))

theorem setPair_getElem (s : State) (i : Fin maxProcesses) (j k : Fin maxTasks) (pair : Pair) :
    (s.setPair i j pair).tasks[k] = if k = j then pair.2 else s.tasks[k] := setTask_getElem ..

theorem caller_ne (h : s.taskIndex tid ≠ some j) (hcaller : s.caller pid tid = some (i, k)) : j ≠ k :=
  ne_of_index h (caller_some hcaller).2

theorem waitInterrupted_tasks (h : s.taskIndex tid ≠ some j) : (waitInterrupted pid tid s).2.tasks[j] = s.tasks[j] := by
  unfold waitInterrupted
  split
  · rfl
  · exact (setPair_getElem ..).trans (if_neg (caller_ne h ‹_›))

theorem deliverPending_tasks {frame : Frame} (h : s.taskIndex tid ≠ some j) :
    (deliverPending pid tid frame s).2.tasks[j] = s.tasks[j] := by
  unfold deliverPending
  split
  · rfl
  · split
    · rfl
    · exact (setPair_getElem ..).trans (if_neg (caller_ne h ‹_›))

theorem execProcess_tasks (h : s.taskIndex pid ≠ some j) : (execProcess pid s).2.tasks[j] = s.tasks[j] := by
  unfold execProcess
  split
  · rfl
  dsimp only
  split
  · rfl
  · rename_i k hk
    exact (setTask_getElem ..).trans (if_neg (ne_of_index h hk))

variable (h : s.taskIndex tid = some j)
include h

theorem caller_of_task (pid : Nat) : s.caller pid tid = (s.processIndex pid).map fun i => (i, j) := by
  unfold State.caller
  rw [h]
  cases s.processIndex pid <;> rfl

theorem waitInterrupted_at (pid : Nat) :
    (waitInterrupted pid tid s).2.tasks[j] = (s.processIndex pid).elim s.tasks[j] fun i => (s.pair i j).settled.2 := by
  unfold waitInterrupted
  rw [caller_of_task h]
  cases s.processIndex pid with
  | none => rfl
  | some i => exact (setPair_getElem ..).trans (if_pos rfl)

theorem deliverPending_at (pid : Nat) (frame : Frame) :
    (deliverPending pid tid frame s).2.tasks[j] = (s.processIndex pid).elim s.tasks[j] fun i =>
      if s.tasks[j].inHandler then s.tasks[j] else ((s.pair i j).deliver frame).1.2 := by
  unfold deliverPending
  rw [caller_of_task h]
  cases s.processIndex pid with
  | none => rfl
  | some i =>
    simp only [Option.map_some]
    split
    · rfl
    · exact (setPair_getElem ..).trans (if_pos rfl)

omit h

theorem execProcess_at (h : s.taskIndex pid = some j) :
    (execProcess pid s).2.tasks[j] = if (s.processIndex pid).isSome then s.tasks[j].forgetFrames else s.tasks[j] := by
  unfold execProcess
  cases s.processIndex pid with
  | none => rfl
  | some i =>
    dsimp only
    rw [setProcess_taskIndex, h]
    exact (setTask_getElem ..).trans (if_pos rfl)

theorem closeThread_at (h : s.taskIndex tid = some j) : (closeThread tid s).2.tasks[j] = .empty := by
  unfold closeThread
  rw [h]
  exact (setTask_getElem ..).trans (if_pos rfl)

theorem closeProcess_at (h : s.processIndex pid ≠ none) (hgroup : s.tasks[j].groupPid = pid) :
    (closeProcess pid s).2.tasks[j] = .empty := by
  unfold closeProcess
  split
  · exact absurd ‹_› h
  · exact (getElem_map _).trans (if_pos hgroup)

theorem closeThread_tasks (h : s.taskIndex tid ≠ some j) : (closeThread tid s).2.tasks[j] = s.tasks[j] := by
  unfold closeThread
  split
  · rfl
  · rename_i k hk
    exact (setTask_getElem ..).trans (if_neg (ne_of_index h hk))

theorem closeProcess_tasks (h : ¬ (s.processIndex pid ≠ none ∧ s.tasks[j].groupPid = pid)) :
    (closeProcess pid s).2.tasks[j] = s.tasks[j] := by
  unfold closeProcess
  split
  · rfl
  · rename_i i hi
    have hgroup : s.tasks[j].groupPid ≠ pid := fun hg => h ⟨by rw [hi]; simp, hg⟩
    exact (getElem_map _).trans (if_neg hgroup)

theorem step_closed (h : event.Closes s j) : (step s event).tasks[j] = .empty := by
  cases event with
  | closeThread tid => exact closeThread_at h
  | closeProcess pid => exact closeProcess_at h.1 h.2
  | _ => cases h

/-- What an event does to an entry that is neither its caller's nor given up -/
theorem step_other (hactor : ∀ tid, event.actor = some tid → s.taskIndex tid ≠ some j)
    (hopen : ¬ event.Closes s j) : s.tasks[j].Posted (step s event).tasks[j] ∨ Started s event j (step s event).tasks[j] := by
  have hsame : (step s event).tasks[j] = s.tasks[j] →
      s.tasks[j].Posted (step s event).tasks[j] ∨ Started s event j (step s event).tasks[j] := by
    intro heq
    rw [heq]
    exact .inl (.refl _)
  cases event with
  | register pid parentPid => exact register_taskStep pid parentPid j
  | forkProcess parentPid childPid parentTid => exact forkProcess_taskStep parentPid childPid parentTid j
  | registerThread tid groupPid parentTid => exact registerThread_taskStep tid groupPid parentTid j
  | closeThread tid => exact hsame (closeThread_tasks hopen)
  | closeProcess pid => exact hsame (closeProcess_tasks hopen)
  | execProcess pid => exact hsame (execProcess_tasks (hactor pid rfl))
  | makeForegroundChild pid parentPid =>
    refine TaskStep.of_eq ?_ j
    simp only [step, makeForegroundChild]
    split
    · split <;> rfl
    · rfl
  | setProcessGroup caller targetPid processGroup => exact setProcessGroup_taskStep caller targetPid processGroup j
  | signalAction pid signal replacement executable => exact signalAction_taskStep pid signal replacement executable j
  | signalMask tid how replacement | signalReturn tid => exact hsame (withTask_tasks (hactor tid rfl))
  | beginWaitMask tid replacement =>
    cases replacement with
    | none => exact hsame rfl
    | some mask => exact hsame (withTask_tasks (hactor tid rfl))
  | finishWaitMask tid => exact hsame (finishWaitMask_tasks (hactor tid rfl))
  | waitInterrupted pid tid => exact hsame (waitInterrupted_tasks (hactor tid rfl))
  | raise pid signal => exact raise_taskStep pid signal j
  | postAll => exact TaskStep.of_eq (postAll_tasks s ..) j
  | postTask tid signal => exact postTask_taskStep tid signal j
  | queueProcessGroup processGroup signal => exact TaskStep.of_eq (by simp only [step, queueProcessGroup]; split <;> rfl) j
  | deliverPending pid tid frame => exact hsame (deliverPending_tasks (hactor tid rfl))

end MakOS.Tty
