/-
The temporary masks of `ppoll`, `pselect` and `epoll_pwait`. A call that is interrupted leaves its mask to the
delivery at its end: whoever takes a signal there restores the mask before the call. If by then the signal is gone,
because another task of the process took it or it is ignored now, or if the task is in a handler, the delivery does
nothing and the temporary mask stays. In the runs where this does not happen every mask is restored.
-/
import MakOS.Data.Guarded
import MakOS.Tty.Kill

namespace MakOS.Tty

open Data Data.Act TaskSignalState

inductive WaitKind
  | poll
  | pselect
  | epoll
  deriving DecidableEq, Repr

/-- What a task is at, with the mask it had before its call -/
inductive WaitPhase
  /-- In user mode, or in a call without a mask of its own -/
  | user
  /-- After `begin_wait_mask` -/
  | begun (kind : WaitKind) (mask : Option Word) (before : Word)
  /-- After the first `wait_interrupted` and the look at the descriptors -/
  | polled (kind : WaitKind) (mask : Option Word) (before : Word)
  /-- After the second `wait_interrupted`, which `epoll_pwait` does not have -/
  | decided (kind : WaitKind) (mask : Option Word) (before : Word)
  /-- Blocked, or about to make the call again -/
  | parked (kind : WaitKind) (mask : Option Word) (before : Word)
  /-- The result is known, and signals are delivered before the task is in user mode again. -/
  | leaving (before : Word)

def WaitPhase.before : WaitPhase → Option Word
  | .user => none
  | .begun _ _ before => some before
  | .polled _ _ before => some before
  | .decided _ _ before => some before
  | .parked _ _ before => some before
  | .leaving before => some before

/-- The task is in its kernel part, where it takes no signals. -/
def WaitPhase.inCall : WaitPhase → Bool
  | .begun _ _ _ => true
  | .polled _ _ _ => true
  | .decided _ _ _ => true
  | _ => false

/-- A call that has returned, with its handler: the task, the mask before the call and the mask after it -/
structure Return where
  tid : Nat
  before : Word
  after : Word
  deriving DecidableEq, Repr

structure Waits where
  state : State
  phases : Fin maxTasks → WaitPhase
  /-- The mask before a call whose handler has not returned -/
  owed : Fin maxTasks → Option Word
  log : List Return

namespace Waits

def start : Waits := ⟨.new, fun _ => .user, fun _ => none, []⟩

/-- The task at entry `j` goes on; the others stay where they are. -/
def advance (w : Waits) (j : Fin maxTasks) (state : State) (phase : WaitPhase) : Waits :=
  { w with state, phases := fun k => if k = j then phase else w.phases k }

/-- The call of `begin_wait_mask`, at the start of a call and when it is made again -/
def begin (w : Waits) (tid : Nat) (j : Fin maxTasks) (kind : WaitKind) (mask : Option Word) (before : Word) : Waits :=
  match beginWaitMask tid mask w.state with
  | (.ok _, s) => w.advance j s (.begun kind mask before)
  | (.error _, s) => w.advance j s (.leaving before)

/-- `wait_interrupted` for the task at entry `j` -/
def check (w : Waits) (tid : Nat) (j : Fin maxTasks) (before : Word) (next : WaitPhase) : Waits :=
  match waitInterrupted w.state.tasks[j].groupPid tid w.state with
  | (.ok false, s) => w.advance j s next
  | (_, s) => w.advance j s (.leaving before)

def finish (w : Waits) (tid : Nat) (j : Fin maxTasks) (before : Word) : Waits :=
  w.advance j (finishWaitMask tid w.state).2 (.leaving before)

/-- The handler was not caused by a call, or it was and the mask before the call is owed. -/
def enter (w : Waits) (j : Fin maxTasks) (state : State) (owed : Option Word) : Waits :=
  { w.advance j state .user with owed := fun k => if k = j then owed else w.owed k }

def record (w : Waits) (tid : Nat) (j : Fin maxTasks) (before : Option Word) : Waits :=
  match before with
  | none => w
  | some before => { w with log := ⟨tid, before, w.state.tasks[j].blocked⟩ :: w.log }

/-- `deliver_pending` for the task at entry `j`: at the end of its call, while it is about to make a call again, or
in user mode. -/
def deliver (w : Waits) (tid : Nat) (j : Fin maxTasks) (frame : Frame) : Waits :=
  match deliverPending w.state.tasks[j].groupPid tid frame w.state with
  | (.ok (.handler, _), s) => w.enter j s (w.phases j).before
  | (_, s) => match w.phases j with
    | .leaving before => (w.advance j s .user).record tid j (some before)
    | phase => w.advance j s phase

end Waits

inductive WaitStep
  | call (tid : Nat) (kind : WaitKind) (mask : Option Word)
  | check (tid : Nat)
  | finish (tid : Nat)
  | park (tid : Nat)
  /-- The call is made again; `pselect` reads its mask again. -/
  | retry (tid : Nat) (mask : Option Word)
  /-- The call is made again, and its arguments are refused. -/
  | refuse (tid : Nat)
  | deliver (tid : Nat) (frame : Frame)
  | signalMask (tid how : Nat) (replacement : Option Word)
  | signalReturn (tid : Nat)
  | execProcess (pid : Nat)
  /-- An event that is no call of a task on its own entry -/
  | other (event : Event)

def WaitStep.task : WaitStep → Option Nat
  | .call tid _ _ => some tid
  | .check tid => some tid
  | .finish tid => some tid
  | .park tid => some tid
  | .retry tid _ => some tid
  | .refuse tid => some tid
  | .deliver tid _ => some tid
  | .signalMask tid _ _ => some tid
  | .signalReturn tid => some tid
  | .execProcess pid => some pid
  | .other _ => none

namespace Waits

/-- A step of the task at entry `j`; a step that the phase does not allow does nothing. -/
def own (w : Waits) (tid : Nat) (j : Fin maxTasks) : WaitStep → Waits
  | .call _ kind mask => match w.phases j with
    | .user => w.begin tid j kind mask w.state.tasks[j].blocked
    | _ => w
  | .check _ => match w.phases j with
    | .begun kind mask before => w.check tid j before (.polled kind mask before)
    | .polled kind mask before =>
      if kind = .epoll then w else w.check tid j before (.decided kind mask before)
    | _ => w
  | .finish _ => match w.phases j with
    -- `epoll_pwait` has its result, or `pselect` could not look at a descriptor
    | .polled kind _ before => if kind = .poll then w else w.finish tid j before
    | .decided _ _ before => w.finish tid j before
    | _ => w
  | .park _ => match w.phases j with
    | .polled kind mask before => if kind = .epoll then w.advance j w.state (.parked kind mask before) else w
    | .decided kind mask before => w.advance j w.state (.parked kind mask before)
    | _ => w
  | .retry _ mask' => match w.phases j with
    | .parked kind mask before => w.begin tid j kind (if kind = .pselect then mask' else mask) before
    | _ => w
  | .refuse _ => match w.phases j with
    | .parked _ _ before => w.advance j w.state (.leaving before)
    | _ => w
  | .deliver _ frame => if (w.phases j).inCall then w else w.deliver tid j frame
  | .signalMask _ how replacement => match w.phases j with
    | .user => w.advance j (signalMask tid how replacement w.state).2 .user
    | _ => w
  | .signalReturn _ => match w.phases j with
    | .user => match signalReturn tid w.state with
      | (.ok _, s) => (w.enter j s none).record tid j (w.owed j)
      | (.error _, _) => w
    | _ => w
  | .execProcess _ => match w.phases j with
    | .user => w.enter j (execProcess tid w.state).2 none
    | _ => w
  | .other _ => w

/-- An event of others: an entry that is given up or gets a new task starts again. -/
def foreign (w : Waits) (event : Event) : Waits :=
  { w with
    state := Tty.step w.state event
    phases := fun j => if (Tty.step w.state event).tasks[j].tid = w.state.tasks[j].tid then w.phases j else .user
    owed := fun j => if (Tty.step w.state event).tasks[j].tid = w.state.tasks[j].tid then w.owed j else none }

def step (w : Waits) (action : WaitStep) : Waits :=
  match action with
  | .other event => if event.actor = none then w.foreign event else w
  | action => match action.task with
    | none => w
    | some tid => if tid = 0 then w else match w.state.taskIndex tid with
      | none => w
      | some j => w.own tid j action

def run (actions : List WaitStep) : Waits := actions.foldl step start

end Waits

/-- The task takes a signal at a delivery: it is in no handler, and a signal that is not ignored is pending and not
blocked. -/
def Takes (s : State) (j : Fin maxTasks) (pid : Nat) : Prop :=
  s.tasks[j].inHandler = false ∧
    ∃ i signal directed, s.processIndex pid = some i ∧ (s.pair i j).First signal directed

/-- The delivery at the end of a call takes a signal if the temporary mask is still in force. -/
def WaitStep.Admits (w : Waits) : WaitStep → Prop
  | .deliver tid _ => ∀ j before, w.state.taskIndex tid = some j → w.phases j = .leaving before →
      w.state.tasks[j].waitMaskActive = true → Takes w.state j w.state.tasks[j].groupPid
  | _ => True

/-! ## What the calls do to the masks of a task -/

namespace TaskSignalState

/-- The mask to be restored, the handler and what its return owes are as they were. -/
structure Stays (task task' : TaskSignalState) : Prop where
  tid : task'.tid = task.tid
  restored : task'.restoredMask = task.restoredMask
  inHandler : task'.inHandler = task.inHandler
  savedMask : task'.savedMask = task.savedMask

variable {task : TaskSignalState}

theorem Stays.of_eq {task' : TaskSignalState} (h : task' = task) : task.Stays task' := by
  subst h
  exact ⟨rfl, rfl, rfl, rfl⟩

theorem stays_pending (task : TaskSignalState) (pending : Word) : task.Stays { task with pending } :=
  ⟨rfl, rfl, rfl, rfl⟩

theorem beginWait_stays (task : TaskSignalState) (mask : Word) : task.Stays (left task (task.beginWait mask)) := by
  rw [beginWait_left]
  split
  · exact .of_eq rfl
  rename_i hactive
  refine ⟨rfl, ?_, rfl, rfl⟩
  change task.blocked = task.restoredMask
  rw [restoredMask, if_neg hactive]

theorem finishWait_stays (task : TaskSignalState) : task.Stays task.finishWait := by
  unfold finishWait
  split
  · rename_i hactive
    refine ⟨rfl, ?_, rfl, rfl⟩
    change task.waitSavedMask = task.restoredMask
    rw [restoredMask, if_pos hactive]
  · exact .of_eq rfl

/-- Leaving the wait with the mask before it -/
theorem leaveWait_stays (task : TaskSignalState) :
    task.Stays { task.leaveWait with blocked := task.restoredMask } ∧ task.leaveWait.waitMaskActive = false := by
  unfold leaveWait
  split
  · exact ⟨⟨rfl, rfl, rfl, rfl⟩, rfl⟩
  rename_i hactive
  refine ⟨⟨rfl, ?_, rfl, rfl⟩, by simpa using hactive⟩
  change (if task.waitMaskActive = true then _ else task.restoredMask) = task.restoredMask
  rw [if_neg hactive]

theorem restoredMask_of_inactive (h : task.waitMaskActive = false) : task.restoredMask = task.blocked := by
  rw [restoredMask, h]
  rfl

end TaskSignalState

/-! ## The invariant -/

/-- A task in a call has the mask before it to restore, or in force. -/
def WaitPhase.Agrees (phase : WaitPhase) (task : TaskSignalState) : Prop :=
  match phase.before with
  | none => task.waitMaskActive = false
  | some before => task.restoredMask = before

/-- A handler that a call caused owes the mask before the call. -/
def Owes (owed : Option Word) (task : TaskSignalState) : Prop :=
  ∀ before, owed = some before → task.inHandler = true ∧ task.savedMask = before

structure WaitEntry (phase : WaitPhase) (owed : Option Word) (task : TaskSignalState) : Prop where
  free : task.tid = 0 → phase = .user ∧ owed = none
  agrees : phase.Agrees task
  owes : Owes owed task

structure Waits.Inv (w : Waits) : Prop where
  entries : ∀ j, WaitEntry (w.phases j) (w.owed j) w.state.tasks[j]
  log : ∀ r ∈ w.log, r.after = r.before

variable {w : Waits} {s : State} {j : Fin maxTasks}

theorem owes_none (task : TaskSignalState) : Owes none task := by
  intro before h
  cases h

theorem Owes.stays {owed : Option Word} {task task' : TaskSignalState} (h : Owes owed task) (hstays : task.Stays task') :
    Owes owed task' := by
  intro before hbefore
  rw [hstays.inHandler, hstays.savedMask]
  exact h before hbefore

namespace Waits

variable (h : w.Inv)
include h

theorem Inv.put {phase : WaitPhase} {owed : Option Word}
    (hothers : ∀ k, k ≠ j → s.tasks[k] = w.state.tasks[k]) (htid : s.tasks[j].tid ≠ 0)
    (hagrees : phase.Agrees s.tasks[j]) (howes : Owes owed s.tasks[j]) :
    Inv { w.advance j s phase with owed := fun k => if k = j then owed else w.owed k } := by
  refine ⟨fun k => ?_, h.log⟩
  by_cases hk : k = j
  · subst hk
    have hentry : WaitEntry phase owed s.tasks[k] := ⟨fun hfree => absurd hfree htid, hagrees, howes⟩
    simpa [Waits.advance] using hentry
  · simpa [Waits.advance, hk, hothers k hk] using h.entries k

theorem Inv.agrees_at {phase : WaitPhase} (hphase : w.phases j = phase) : phase.Agrees w.state.tasks[j] :=
  hphase ▸ (h.entries j).agrees

theorem Inv.advance {phase : WaitPhase} (hothers : ∀ k, k ≠ j → s.tasks[k] = w.state.tasks[k])
    (htid : s.tasks[j].tid ≠ 0) (hagrees : phase.Agrees s.tasks[j]) (howes : Owes (w.owed j) s.tasks[j]) :
    (w.advance j s phase).Inv := by
  have hput := h.put hothers htid hagrees howes
  rwa [show (fun k => if k = j then w.owed j else w.owed k) = w.owed by funext k; split <;> simp_all] at hput

theorem Inv.enter {owed : Option Word} (hothers : ∀ k, k ≠ j → s.tasks[k] = w.state.tasks[k])
    (htid : s.tasks[j].tid ≠ 0) (hactive : s.tasks[j].waitMaskActive = false) (howes : Owes owed s.tasks[j]) :
    (w.enter j s owed).Inv :=
  h.put hothers htid hactive howes

theorem Inv.record {tid : Nat} {before : Option Word}
    (hbefore : ∀ mask, before = some mask → w.state.tasks[j].blocked = mask) : (w.record tid j before).Inv := by
  cases before with
  | none => exact h
  | some mask =>
    refine ⟨h.entries, fun r hr => ?_⟩
    rcases List.mem_cons.1 hr with rfl | hold
    · exact hbefore mask rfl
    · exact h.log r hold

theorem Inv.stay {phase : WaitPhase} (htid : w.state.tasks[j].tid ≠ 0)
    (hothers : ∀ k, k ≠ j → s.tasks[k] = w.state.tasks[k]) (hstays : w.state.tasks[j].Stays s.tasks[j])
    (hagrees : phase.Agrees s.tasks[j]) : (w.advance j s phase).Inv :=
  h.advance hothers (hstays.tid ▸ htid) hagrees ((h.entries j).owes.stays hstays)

theorem Inv.leave {tid : Nat} {before : Word} (htid : w.state.tasks[j].tid ≠ 0)
    (hothers : ∀ k, k ≠ j → s.tasks[k] = w.state.tasks[k]) (hstays : w.state.tasks[j].Stays s.tasks[j])
    (hbefore : w.state.tasks[j].restoredMask = before) (hactive : s.tasks[j].waitMaskActive = false) :
    ((w.advance j s .user).record tid j (some before)).Inv := by
  have hinv : (w.advance j s .user).Inv := h.stay htid hothers hstays hactive
  refine hinv.record fun mask hmask => ?_
  obtain rfl := Option.some.inj hmask
  exact (restoredMask_of_inactive hactive).symm.trans (hstays.restored.trans hbefore)

omit h

theorem taskIndex_ne {tid : Nat} {k : Fin maxTasks} (hj : s.taskIndex tid = some j) (hk : k ≠ j) : s.taskIndex tid ≠ some k :=
  fun hk' => hk (Option.some.inj (hk'.symm.trans hj))

section Caller

variable {tid : Nat} (hj : w.state.taskIndex tid = some j) (htid : w.state.tasks[j].tid ≠ 0)
include hj htid

include h

theorem Inv.begin (kind : WaitKind) (mask : Option Word) {before : Word}
    (hbefore : w.state.tasks[j].restoredMask = before) : (w.begin tid j kind mask before).Inv := by
  have hstays : w.state.tasks[j].Stays (beginWaitMask tid mask w.state).2.tasks[j] := by
    cases mask with
    | none => exact .of_eq rfl
    | some mask =>
      rw [beginWaitMask, withTask_at hj]
      exact w.state.tasks[j].beginWait_stays mask
  have hothers : ∀ k, k ≠ j → (beginWaitMask tid mask w.state).2.tasks[k] = w.state.tasks[k] := by
    intro k hk
    cases mask with
    | none => rfl
    | some mask => exact withTask_tasks (taskIndex_ne hj hk)
  unfold Waits.begin
  generalize beginWaitMask tid mask w.state = result at hstays hothers
  have hrestored := hstays.restored.trans hbefore
  split
  · exact h.stay htid hothers hstays hrestored
  · exact h.stay htid hothers hstays hrestored

theorem Inv.check {before : Word} {next : WaitPhase} (hnext : next.before = some before)
    (hbefore : w.state.tasks[j].restoredMask = before) : (w.check tid j before next).Inv := by
  have hstays : ∀ pid, w.state.tasks[j].Stays (waitInterrupted pid tid w.state).2.tasks[j] := by
    intro pid
    rw [waitInterrupted_at hj]
    cases w.state.processIndex pid with
    | none => exact .of_eq rfl
    | some i =>
      rw [Option.elim, (w.state.pair i j).settled_narrowed.task]
      exact stays_pending _ _
  have hothers : ∀ pid k, k ≠ j → (waitInterrupted pid tid w.state).2.tasks[k] = w.state.tasks[k] :=
    fun pid k hk => waitInterrupted_tasks (taskIndex_ne hj hk)
  unfold Waits.check
  have hstays := hstays w.state.tasks[j].groupPid
  have hothers := hothers w.state.tasks[j].groupPid
  generalize waitInterrupted w.state.tasks[j].groupPid tid w.state = result at hstays hothers
  have hrestored := hstays.restored.trans hbefore
  split
  · refine h.stay htid hothers hstays ?_
    rw [WaitPhase.Agrees, hnext]
    exact hrestored
  · exact h.stay htid hothers hstays hrestored

theorem Inv.finish {before : Word} (hbefore : w.state.tasks[j].restoredMask = before) :
    (w.finish tid j before).Inv := by
  have hstays := w.state.tasks[j].finishWait_stays
  rw [← finishWaitMask_at hj] at hstays
  refine h.stay htid (fun k hk => ?_) hstays (hstays.restored.trans hbefore)
  exact finishWaitMask_tasks (taskIndex_ne hj hk)

end Caller

end Waits

/-! ## Delivery -/

/-- What a delivery does to the masks of the task -/
inductive DeliverTask (s : State) (j : Fin maxTasks) (pid : Nat) : Delivery → TaskSignalState → Prop
  | idle {task' : TaskSignalState} : ¬ Takes s j pid → s.tasks[j].Stays task' →
      task'.waitMaskActive = s.tasks[j].waitMaskActive → DeliverTask s j pid .none task'
  | acted {delivery : Delivery} {task' : TaskSignalState} : delivery ≠ .handler → s.tasks[j].Stays task' →
      task'.waitMaskActive = false → DeliverTask s j pid delivery task'
  | entered {task' : TaskSignalState} : task'.tid = s.tasks[j].tid → task'.waitMaskActive = false →
      task'.inHandler = true → task'.savedMask = s.tasks[j].restoredMask → DeliverTask s j pid .handler task'

theorem deliver_task {pid tid : Nat} (hj : s.taskIndex tid = some j) (frame : Frame) :
    ∃ delivery frame', (deliverPending pid tid frame s).1 = .ok (delivery, frame') ∧
      DeliverTask s j pid delivery (deliverPending pid tid frame s).2.tasks[j] := by
  rw [deliverPending_result hj, deliverPending_at hj]
  cases hi : s.processIndex pid with
  | none =>
    refine ⟨.none, frame, rfl, .idle ?_ (.of_eq rfl) rfl⟩
    rintro ⟨-, i, signal, directed, hi', -⟩
    rw [hi] at hi'
    cases hi'
  | some i =>
    simp only [Option.elim]
    by_cases hhandler : s.tasks[j].inHandler = true
    · rw [if_pos hhandler, if_pos hhandler]
      refine ⟨.none, frame, rfl, .idle ?_ (.of_eq rfl) rfl⟩
      rintro ⟨hout, -⟩
      rw [hhandler] at hout
      cases hout
    rw [if_neg hhandler, if_neg hhandler]
    have hcases := (s.pair i j).deliver_cases frame
    generalize (s.pair i j).deliver frame = result at hcases
    cases hcases with
    | nothing hnone =>
      refine ⟨.none, frame, rfl, .idle ?_ (stays_pending _ _) rfl⟩
      rintro ⟨-, i', signal, directed, hi', hfirst⟩
      obtain rfl : i = i' := Option.some.inj (hi.symm.trans hi')
      exact hnone signal directed hfirst
    | @acted signal directed pending process hfirst hdefault =>
      obtain ⟨hstays, hactive⟩ := { s.tasks[j] with pending }.leaveWait_stays
      refine ⟨if signal = sigtstp then .stop signal else .terminate signal, frame, rfl, .acted ?_ ?_ hactive⟩
      · split <;> simp
      · exact ⟨hstays.tid, hstays.restored, hstays.inHandler, hstays.savedMask⟩
    | @caught signal directed pending process hfirst hcaught =>
      obtain ⟨hstays, hactive⟩ := { s.tasks[j] with pending }.leaveWait_stays
      exact ⟨.handler, _, rfl, .entered hstays.tid hactive rfl rfl⟩

theorem signalReturn_ok {tid : Nat} {frame : Frame} {s' : State} (hj : s.taskIndex tid = some j)
    (h : signalReturn tid s = (.ok frame, s')) :
    s' = s.setTask j { s.tasks[j] with inHandler := false, blocked := s.tasks[j].savedMask } := by
  unfold signalReturn withTask at h
  rw [hj] at h
  unfold leaveHandler at h
  dsimp only at h
  by_cases hhandler : s.tasks[j].inHandler = true
  · rw [if_pos hhandler] at h
    exact (Prod.mk.inj h).2.symm
  · rw [if_neg hhandler] at h
    cases h

namespace Waits

section Caller

variable {tid : Nat} (hj : w.state.taskIndex tid = some j) (htid : w.state.tasks[j].tid ≠ 0)
include hj htid

variable (h : w.Inv)
include h

theorem Inv.deliver (frame : Frame) (hadmits : (WaitStep.deliver tid frame).Admits w) :
    (w.deliver tid j frame).Inv := by
  have hothers : ∀ pid k, k ≠ j → (deliverPending pid tid frame w.state).2.tasks[k] = w.state.tasks[k] :=
    fun pid k hk => deliverPending_tasks (taskIndex_ne hj hk)
  obtain ⟨delivery, frame', hresult, htask⟩ := @deliver_task w.state j w.state.tasks[j].groupPid tid hj frame
  have hothers := hothers w.state.tasks[j].groupPid
  unfold Waits.deliver
  generalize deliverPending w.state.tasks[j].groupPid tid frame w.state = result at hresult htask hothers
  obtain ⟨outcome, s⟩ := result
  obtain rfl : outcome = .ok (delivery, frame') := hresult
  cases htask with
  | entered hkept hactive hhandler hsaved =>
    refine h.enter hothers (hkept ▸ htid) hactive fun before hbefore => ⟨hhandler, hsaved.trans ?_⟩
    have hagrees := (h.entries j).agrees
    rw [WaitPhase.Agrees, hbefore] at hagrees
    exact hagrees
  | idle hidle hstays hactive =>
    cases hphase : w.phases j with
    | leaving before =>
      -- the mask is in force only if the delivery takes a signal
      have hinactive : s.tasks[j].waitMaskActive = false := by
        rw [hactive, ← Bool.not_eq_true]
        exact fun hforce => hidle (hadmits j before hj hphase hforce)
      exact h.leave htid hothers hstays (h.agrees_at hphase) hinactive
    | user =>
      exact h.stay htid hothers hstays (hactive.trans (h.agrees_at hphase))
    | _ =>
      exact h.stay htid hothers hstays (hstays.restored.trans (h.agrees_at hphase))
  | acted hne hstays hactive =>
    cases delivery with
    | handler => exact absurd rfl hne
    | _ =>
      cases hphase : w.phases j with
      | leaving before =>
        exact h.leave htid hothers hstays (h.agrees_at hphase) hactive
      | user => exact h.stay htid hothers hstays hactive
      | _ =>
        exact h.stay htid hothers hstays (hstays.restored.trans (h.agrees_at hphase))

theorem Inv.signalMask (how : Nat) (replacement : Option Word) (hphase : w.phases j = .user) :
    (w.advance j (signalMask tid how replacement w.state).2 .user).Inv := by
  have hactive := h.agrees_at hphase
  have hat : (Tty.signalMask tid how replacement w.state).2.tasks[j] =
      left w.state.tasks[j] (w.state.tasks[j].changeMask how replacement) := withTask_at hj
  have hothers : ∀ k, k ≠ j → (Tty.signalMask tid how replacement w.state).2.tasks[k] = w.state.tasks[k] :=
    fun k hk => withTask_tasks (taskIndex_ne hj hk)
  obtain ⟨blocked, hmask, -⟩ := w.state.tasks[j].changeMask_left how replacement
  refine h.advance hothers ?_ ?_ ?_
  · rw [hat, hmask]
    exact htid
  · rw [hat, hmask]
    exact hactive
  · rw [hat, hmask]
    exact (h.entries j).owes

theorem Inv.signalReturn (hphase : w.phases j = .user) {frame : Frame}
    (hok : signalReturn tid w.state = (.ok frame, s)) : ((w.enter j s none).record tid j (w.owed j)).Inv := by
  have hactive := h.agrees_at hphase
  have hs := signalReturn_ok hj hok
  have hothers : ∀ k, k ≠ j → s.tasks[k] = w.state.tasks[k] := by
    intro k hk
    rw [hs, setTask_getElem, if_neg hk]
  have hat : s.tasks[j] = { w.state.tasks[j] with inHandler := false, blocked := w.state.tasks[j].savedMask } := by
    rw [hs, setTask_getElem, if_pos rfl]
  have hinv : (w.enter j s none).Inv := by
    refine h.enter hothers ?_ ?_ (owes_none _)
    · rw [hat]
      exact htid
    · rw [hat]
      exact hactive
  refine hinv.record fun before hbefore => ?_
  change s.tasks[j].blocked = before
  rw [hat]
  exact ((h.entries j).owes before hbefore).2

theorem Inv.execProcess (hphase : w.phases j = .user) : (w.enter j (execProcess tid w.state).2 none).Inv := by
  have hactive := h.agrees_at hphase
  have hothers : ∀ k, k ≠ j → (Tty.execProcess tid w.state).2.tasks[k] = w.state.tasks[k] :=
    fun k hk => execProcess_tasks (taskIndex_ne hj hk)
  refine h.enter hothers ?_ ?_ (owes_none _)
  · rw [execProcess_at hj]
    split
    · exact htid
    · exact htid
  rw [execProcess_at hj]
  split
  · rfl
  · exact hactive

theorem Inv.own (action : WaitStep) (hadmits : action.Admits w) (htask : action.task = some tid) :
    (w.own tid j action).Inv := by
  -- one case for each step, and in it one for each phase that allows it
  cases action with
  | call _ kind mask =>
    rw [Waits.own]
    split
    · rename_i hphase
      exact h.begin hj htid kind mask (restoredMask_of_inactive (h.agrees_at hphase))
    · exact h
  | check _ =>
    rw [Waits.own]
    split
    · rename_i hphase
      exact h.check hj htid rfl (h.agrees_at hphase)
    · rename_i hphase
      split
      · exact h
      · exact h.check hj htid rfl (h.agrees_at hphase)
    · exact h
  | finish _ =>
    rw [Waits.own]
    split
    · rename_i hphase
      split
      · exact h
      · exact h.finish hj htid (h.agrees_at hphase)
    · rename_i hphase
      exact h.finish hj htid (h.agrees_at hphase)
    · exact h
  | park _ =>
    rw [Waits.own]
    split
    · rename_i hphase
      split
      · exact h.stay htid (fun _ _ => rfl) (.of_eq rfl) (h.agrees_at hphase :)
      · exact h
    · rename_i hphase
      exact h.stay htid (fun _ _ => rfl) (.of_eq rfl) (h.agrees_at hphase :)
    · exact h
  | retry _ mask' =>
    rw [Waits.own]
    split
    · rename_i hphase
      exact h.begin hj htid _ _ (h.agrees_at hphase)
    · exact h
  | refuse _ =>
    rw [Waits.own]
    split
    · rename_i hphase
      exact h.stay htid (fun _ _ => rfl) (.of_eq rfl) (h.agrees_at hphase :)
    · exact h
  | deliver tid' frame =>
    obtain rfl := Option.some.inj htask
    rw [Waits.own]
    split
    · exact h
    · exact h.deliver hj htid frame hadmits
  | signalMask _ how replacement =>
    rw [Waits.own]
    split
    · rename_i hphase
      exact h.signalMask hj htid how replacement hphase
    · exact h
  | signalReturn _ =>
    rw [Waits.own]
    split
    · rename_i hphase
      split
      · rename_i hok
        exact h.signalReturn hj htid hphase hok
      · exact h
    · exact h
  | execProcess _ =>
    rw [Waits.own]
    split
    · rename_i hphase
      exact h.execProcess hj htid hphase
    · exact h
  | other event => exact h

end Caller

variable (h : w.Inv)
include h

/-- An event of others changes what is pending for the task at an entry, or the entry is given up or gets a new
task. -/
theorem Inv.foreign {event : Event} (hactor : event.actor = none) : (w.foreign event).Inv := by
  refine ⟨fun j => ?_, h.log⟩
  have hentry := h.entries j
  -- a free entry has nothing to forget, whether its number changes or not
  have hreset : (Tty.step w.state event).tasks[j].tid ≠ w.state.tasks[j].tid ∨ w.state.tasks[j].tid = 0 →
      (Tty.step w.state event).tasks[j].waitMaskActive = false →
      WaitEntry ((w.foreign event).phases j) ((w.foreign event).owed j) (Tty.step w.state event).tasks[j] := by
    intro hnew hactive
    have hforgot : (w.foreign event).phases j = .user ∧ (w.foreign event).owed j = none := by
      rcases hnew with hne | hfree
      · exact ⟨if_neg hne, if_neg hne⟩
      · obtain ⟨hphase, howed⟩ := hentry.free hfree
        exact ⟨ite_eq_right_iff.2 fun _ => hphase, ite_eq_right_iff.2 fun _ => howed⟩
    rw [hforgot.1, hforgot.2]
    exact ⟨fun _ => ⟨rfl, rfl⟩, hactive, owes_none _⟩
  by_cases hcloses : event.Closes w.state j
  · have hempty := step_closed hcloses
    refine hreset ?_ (by rw [hempty]; rfl)
    rw [hempty]
    exact (Decidable.em _).symm.imp Ne.symm id
  rcases step_other (by simp [hactor]) hcloses with ⟨bits, hposted⟩ | hstarted
  · have hkept : (Tty.step w.state event).tasks[j].tid = w.state.tasks[j].tid := by rw [hposted]
    simp only [Waits.foreign, if_pos hkept]
    rw [hposted]
    exact ⟨hentry.free, hentry.agrees, hentry.owes⟩
  · exact hreset (.inr hstarted.free) (by rw [hstarted.entry]; rfl)

theorem Inv.step (action : WaitStep) (hadmits : action.Admits w) : (w.step action).Inv := by
  -- a task's own step finds the entry of the task
  have hown : ∀ tid, action.task = some tid →
      (if tid = 0 then w else match w.state.taskIndex tid with
        | none => w
        | some j => w.own tid j action).Inv := by
    intro tid htask
    split
    · exact h
    rename_i hne
    split
    · exact h
    · rename_i j hj
      exact h.own hj (taskIndex_some hj ▸ hne) action hadmits htask
  cases action with
  | other event =>
    rw [Waits.step]
    split
    · rename_i hactor
      exact h.foreign hactor
    · exact h
  | _ => exact hown _ rfl

omit h

theorem inv_start : start.Inv := by
  refine ⟨fun j => ⟨fun _ => ⟨rfl, rfl⟩, ?_, owes_none _⟩, by simp [start]⟩
  rw [start, State.new, getElem_replicate]
  rfl

end Waits

/-- In a run in which the delivery at the end of a call takes a signal whenever the temporary mask is still in force,
every call returns with the mask it found. -/
theorem wait_masks_restored {actions : List WaitStep}
    (h : Guarded Waits.step (fun w action => action.Admits w) Waits.start actions) :
    ∀ r ∈ (Waits.run actions).log, r.after = r.before := by
  have hinv : (Waits.run actions).Inv :=
    @Guarded.foldl _ _ _ _ Waits.Inv _ (fun _ action hinv hadmits => hinv.step action hadmits) _ Waits.inv_start h
  exact hinv.log

/-- Two threads of a process that catches the signal 10. The second one blocks it outside its call and not during it,
and the signal interrupts the call. -/
def interrupted : List WaitStep :=
  [.other (.register 1 0), .other (.registerThread 2 1 1),
    .other (.signalAction 1 10 (some ⟨4096, 0, 4096, 0⟩) (true, true)), .signalMask 2 2 (some 512),
    .call 2 .pselect (some 0), .other (.postAll 10 [1]), .check 2]

theorem secondTask_lt : 1 < maxTasks := by decide

/-- The thread takes the signal itself, and has its mask again after the handler. -/
theorem wait_masks_restored_handler :
    (Waits.run (interrupted ++ [.deliver 2 .initial, .signalReturn 2])).log = [⟨2, 512, 512⟩] ∧
      ∀ r ∈ (Waits.run (interrupted ++ [.deliver 2 .initial, .signalReturn 2])).log, r.after = r.before := by
  refine ⟨by decide +kernel, wait_masks_restored (guarded_append.2 ⟨guarded_of_forall ?_ _, ?_, trivial, trivial⟩)⟩
  · intro action haction w
    simp only [interrupted, List.mem_cons, List.not_mem_nil, or_false] at haction
    rcases haction with rfl | rfl | rfl | rfl | rfl | rfl | rfl <;> trivial
  intro j before hj _ _
  have hat : (Waits.run interrupted).state.taskIndex 2 = some ⟨1, secondTask_lt⟩ := by decide +kernel
  obtain rfl := Option.some.inj (hat.symm.trans hj)
  have hstate : (Waits.run interrupted).state.tasks[(⟨1, secondTask_lt⟩ : Fin maxTasks)].inHandler = false ∧
      (Waits.run interrupted).state.processIndex
        (Waits.run interrupted).state.tasks[(⟨1, secondTask_lt⟩ : Fin maxTasks)].groupPid =
          some ⟨0, firstProcess_lt⟩ ∧
      ((Waits.run interrupted).state.pair ⟨0, firstProcess_lt⟩ ⟨1, secondTask_lt⟩).settled.nextSignal =
        some (10, false) := by decide +kernel
  exact ⟨hstate.1, ⟨0, firstProcess_lt⟩, 10, false, hstate.2.1, Pair.settled_next.1 hstate.2.2⟩

/-- The other thread takes the signal: the call returns, and its temporary mask stays. -/
theorem wait_mask_stays :
    (Waits.run (interrupted ++ [.deliver 1 .initial, .deliver 2 .initial])).log = [⟨2, 512, 0⟩] ∧
      ∃ r ∈ (Waits.run (interrupted ++ [.deliver 1 .initial, .deliver 2 .initial])).log, r.after ≠ r.before := by
  have hlog : (Waits.run (interrupted ++ [.deliver 1 .initial, .deliver 2 .initial])).log = [⟨2, 512, 0⟩] := by
    decide +kernel
  refine ⟨hlog, ⟨2, 512, 0⟩, ?_, by decide⟩
  rw [hlog]
  exact List.mem_singleton_self _

end MakOS.Tty
