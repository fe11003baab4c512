/-
What the return from a handler brings back. Notes beside the tables record, for each task, the frame at the entry of
the handler it runs and the mask that its return owes: the mask in force at the entry or, if a mask of a waiting
call was in force, the mask before that call. The tables agree with the notes in every run.
-/
import MakOS.Tty.Masks

namespace MakOS.Tty

open Data Data.Act

/-- What is to be remembered of a task -/
structure Note where
  /-- The frame at the entry of the handler that has not returned, and the mask owed at its return -/
  entered : Option (Frame × Word)
  /-- The mask before the temporary one, from the call that sets that until it is finished or a signal is taken -/
  before : Option Word

def Note.blank : Note := ⟨none, none⟩

/-- The note after a delivery with the given result -/
def Note.delivered (note : Note) (frame : Frame) (blocked : Word) : Delivery → Note
  | .handler => ⟨some (frame, note.before.getD blocked), none⟩
  | .none => note
  | _ => { note with before := none }

def Note.after (s : State) (j : Fin maxTasks) (note : Note) : Event → Note
  | .beginWaitMask tid (some _) =>
    if s.taskIndex tid = some j ∧ note.before = none then { note with before := some s.tasks[j].blocked } else note
  | .finishWaitMask tid => if s.taskIndex tid = some j then { note with before := none } else note
  | .deliverPending pid tid frame =>
    if s.taskIndex tid = some j then
      note.delivered frame s.tasks[j].blocked ((deliverPending pid tid frame s).1.toOption.elim .none Prod.fst)
    else note
  | .signalReturn tid => if s.taskIndex tid = some j then { note with entered := none } else note
  | .signalMask _ _ _ => note
  | .waitInterrupted _ _ => note
  -- a new program has no frames of the old one
  | .execProcess pid => if s.taskIndex pid = some j ∧ s.processIndex pid ≠ none then .blank else note
  | .closeThread tid => if s.taskIndex tid = some j then .blank else note
  | .closeProcess pid => if s.processIndex pid ≠ none ∧ s.tasks[j].groupPid = pid then .blank else note
  -- an entry that gets a new task
  | event => if (step s event).tasks[j].tid = s.tasks[j].tid then note else .blank

structure History where
  state : State
  notes : Fin maxTasks → Note

namespace History

def start : History := ⟨.new, fun _ => .blank⟩

def step (history : History) (event : Event) : History :=
  ⟨Tty.step history.state event, fun j => (history.notes j).after history.state j event⟩

def run (events : List Event) : History := events.foldl step start

end History

/-- The entry of a task says what its note says. -/
structure Linked (note : Note) (task : TaskSignalState) : Prop where
  before : note.before = if task.waitMaskActive then some task.waitSavedMask else none
  entered : note.entered.map (fun entry => (entry.1.capture, entry.2)) =
    if task.inHandler then some (task.savedContext, task.savedMask) else none

variable {s : State} {j : Fin maxTasks} {note : Note} {task : TaskSignalState}

variable (h : Linked note task)
include h

theorem Linked.pending (pending : Word) : Linked note { task with pending } := ⟨h.before, h.entered⟩

theorem Linked.restoredMask : note.before.getD task.blocked = task.restoredMask := by
  rw [h.before, TaskSignalState.restoredMask]
  split <;> rfl

theorem Linked.changeMask (how : Nat) (replacement : Option Word) :
    Linked note (left task (task.changeMask how replacement)) := by
  obtain ⟨blocked, heq, -⟩ := task.changeMask_left how replacement
  rw [heq]
  exact ⟨h.before, h.entered⟩

theorem Linked.beginWait (mask : Word) :
    Linked (if note.before = none then { note with before := some task.blocked } else note)
      (left task (task.beginWait mask)) := by
  have hbefore := h.before
  rw [task.beginWait_left]
  by_cases hactive : task.waitMaskActive = true
  · rw [if_pos hactive] at hbefore ⊢
    rw [if_neg (by rw [hbefore]; simp)]
    exact h
  · rw [if_neg hactive] at hbefore ⊢
    rw [if_pos hbefore]
    exact ⟨rfl, h.entered⟩

theorem Linked.leaveHandler : Linked { note with entered := none } (left task task.leaveHandler) := by
  rw [task.leaveHandler_left]
  split
  · exact ⟨h.before, rfl⟩
  · rename_i hhandler
    exact ⟨h.before, (if_neg hhandler).symm⟩

theorem Linked.finishWait : Linked { note with before := none } task.finishWait := by
  unfold TaskSignalState.finishWait
  split
  · exact ⟨rfl, h.entered⟩
  · rename_i hactive
    exact ⟨(if_neg hactive).symm, h.entered⟩

theorem Linked.leaveWait (blocked : Word) : Linked { note with before := none } { task.leaveWait with blocked } := by
  unfold TaskSignalState.leaveWait
  split
  · exact ⟨rfl, h.entered⟩
  · rename_i hactive
    exact ⟨(if_neg hactive).symm, h.entered⟩

theorem Linked.enterHandler (action : SignalAction) (signal : Nat) (frame : Frame) :
    Linked ⟨some (frame, note.before.getD task.blocked), none⟩ (task.enterHandler action signal frame) := by
  constructor
  · exact (h.leaveWait task.blocked).before
  · rw [h.restoredMask]
    rfl

omit h

/-! ## Delivery -/

theorem Pair.Delivered.linked {pair : Pair} {frame : Frame} {result : Pair × Delivery × Frame} (h : Linked note pair.2)
    (hresult : pair.Delivered frame result) : Linked (note.delivered frame pair.2.blocked result.2.1) result.1.2 := by
  cases hresult with
  | nothing hnone => exact h.pending _
  | @acted signal directed pending process hfirst hdefault =>
    have hleft := (h.pending pending).leaveWait pair.2.restoredMask
    split
    · exact hleft
    · exact hleft
  | @caught signal directed pending process hfirst hcaught =>
    exact (h.pending pending).enterHandler (pair.1.action signal) signal frame

theorem deliverPending_result {tid : Nat} (h : s.taskIndex tid = some j) (pid : Nat) (frame : Frame) :
    (deliverPending pid tid frame s).1 = .ok ((s.processIndex pid).elim (.none, frame) fun i =>
      if s.tasks[j].inHandler then (.none, frame) else ((s.pair i j).deliver frame).2) := by
  unfold deliverPending
  rw [caller_of_task h]
  cases s.processIndex pid with
  | none => rfl
  | some i =>
    simp only [Option.map_some]
    split <;> rfl

/-! ## Runs -/

theorem Linked.of_eq {task' : TaskSignalState} (h : Linked note task) (heq : task' = task) : Linked note task' := heq ▸ h

end MakOS.Tty
