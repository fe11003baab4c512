/-
The scheduler and the futex table agree: a task is enrolled in the futex table when it is blocked and its slot has
the handle, over any run of futex calls, signals, sleeps, timer ticks and ends of threads and groups.

The wakes for other reasons do not look at the futex table. SIGCONT makes a task that waits on a futex ready, and
leaves it enrolled; so does the end of a sleep that a signal had cut short. Reaping a process drops the waits of
threads that outlive their leader. In the runs without these steps the two agree.
-/
import MakOS.Data.Guarded
import MakOS.Process.Waits

namespace MakOS.Process

open MakOS.Data MakOS.Futex ProcessTable SchedulerState FutexTable

inductive FutexEvent (C : Nat)
  | spawn (parentPid root : Nat)
  | clone (cpu : Fin C)
  | dispatch (cpu : Fin C) (eligible : Policy)
  | resume (cpu : Fin C) (tid : Nat)
  /-- SIGSTOP, and waits for other reasons -/
  | block (cpu : Fin C) (canIdle : Bool) (eligible : Policy)
  | sleep (cpu : Fin C) (deadline : Nat) (canIdle : Bool) (eligible : Policy)
  /-- SIGCONT to a thread -/
  | sigcont (groupPid tid : Nat)
  /-- `continue_process`, and wakes from other waits -/
  | wake (tid : Nat)
  | futexWait (cpu : Fin C) (address : UInt64) (observed value : UInt32) (now : UInt64) (deadline : Option UInt64)
      (canIdle : Bool) (eligible : Policy)
  | futexWake (cpu : Fin C) (address : UInt64) (maximum : Nat)
  | futexRequeue (cpu : Fin C) (address target : UInt64) (wakeLimit requeueLimit : Nat)
  | timer (now : UInt64)
  | exit (cpu : Fin C) (status : Nat) (eligible : Policy)
  | stopMember (cpu : Fin C) (groupPid status : Nat)
  | exitGroup (cpu : Fin C) (status : Nat) (eligible : Policy)
  | reap (parentPid pid : Nat)
  /-- The part of `cleanup_reaped` that drops waits -/
  | cleanup (pid : Nat)

namespace SchedulerState

variable {N C F : Nat}

/-- A kernel that ended in `fatal` has no next state; the last one stays. -/
def futexStep (s : SchedulerState N C F) : FutexEvent C → SchedulerState N C F
  | .spawn parentPid root => s.startTask parentPid root none
  | .clone cpu => s.cloneThread cpu
  | .dispatch cpu eligible => (s.scheduleNextForCpu cpu eligible).2
  | .resume cpu tid => s.resumeTask cpu tid
  | .block cpu canIdle eligible => s.blockCurrent cpu canIdle eligible
  | .sleep cpu deadline canIdle eligible => s.sleepUntil cpu deadline canIdle eligible
  | .sigcont groupPid tid => (s.wakeTask groupPid tid).2
  | .wake tid => s.wakeTid tid
  | .futexWait cpu address observed value now deadline canIdle eligible =>
    (s.futexWait cpu address observed value now deadline canIdle eligible).2
  | .futexWake cpu address maximum => (s.futexWake cpu address maximum).2
  | .futexRequeue cpu address target wakeLimit requeueLimit => (s.futexRequeue cpu address target wakeLimit requeueLimit).2
  | .timer now => s.serviceTimerWaiters now
  | .exit cpu status eligible => (s.exitTask cpu status eligible).getD s
  | .stopMember cpu groupPid status => (s.stopMember cpu groupPid status).getD s
  | .exitGroup cpu status eligible => (s.exitGroup cpu status eligible).getD s
  | .reap parentPid pid => s.reapTask parentPid pid
  | .cleanup pid => s.processExit pid

def futexRun (s : SchedulerState N C F) (events : List (FutexEvent C)) : SchedulerState N C F := events.foldl futexStep s

def Registered (s : SchedulerState N C F) (tid : Nat) (handle : WaitHandle) : Prop :=
  ∃ task : TaskId, s.futex.Enrolled (task, handle) ∧ task.thread.toNat = tid

/-- The process table has the task blocked and its slot has this handle. -/
def Waiting (s : SchedulerState N C F) (tid : Nat) (handle : WaitHandle) : Prop :=
  s.table.stateOf tid = .blocked ∧ ∃ slot, s.slotOf tid = some slot ∧ slot.futexWait = some handle

/-- Between two states, `n` tasks that waited became ready, and no other blocked task did. -/
def Released (s : SchedulerState N C F) (n : Nat) (s' : SchedulerState N C F) : Prop :=
  ∃ tids : List Nat, tids.Nodup ∧ tids.length = n ∧
    (∀ tid, tid ∈ tids ↔ s.table.stateOf tid = .blocked ∧ s'.table.stateOf tid = .ready) ∧
    ∀ tid ∈ tids, ∃ handle, s.Waiting tid handle

/-- The condition of the theorem: tasks are woken for other reasons, and the waits of a process dropped, only where
no task waits on a futex. -/
def FutexAdmits (s : SchedulerState N C F) : FutexEvent C → Prop
  | .sigcont _ tid => s.waitOf tid = none
  | .wake tid => s.waitOf tid = none
  | .timer now => ∀ i : Fin N, Expired now s.contexts[i] → s.waitOf s.contexts[i].pid = none
  | .cleanup pid => ∀ i : Fin N, s.contexts[i].taskId.process = pid.toUInt64 → s.waitOf s.contexts[i].pid = none
  | _ => True

instance decidableFutexAdmits (s : SchedulerState N C F) (event : FutexEvent C) : Decidable (s.FutexAdmits event) := by
  unfold FutexAdmits
  split <;> infer_instance

/-! ## Agreement -/

/-- The futex table has the waits of the tasks, and no others. -/
structure Agreed (s : SchedulerState N C F) : Prop extends Tasks s where
  sound : s.futex.Sound
  agree : ∀ c, s.futex.Enrolled c ↔ s.waitOf c.1.thread.toNat = some c

variable {s s' : SchedulerState N C F} {tid q : Nat} {cpu : Fin C} {slot : ContextSlot} {c : Callback}
  {gone : Nat → Prop} {futex : FutexTable F} {called : List Callback}

theorem toNat_toUInt64 {n : Nat} (h : n ≤ wordMax) : n.toUInt64.toNat = n :=
  Nat.mod_eq_of_lt (by unfold wordMax at h; omega)

theorem Tasks.le_wordMax (h : Tasks s) (hs : s.table.stateOf tid ≠ .empty) : tid ≤ wordMax :=
  le_trans (Nat.le_of_lt (h.consistent.lt_nextPid hs)) h.bounded

/-- The wait of a task names it. -/
theorem Tasks.thread (h : Tasks s) (hc : s.waitOf tid = some c) : c.1.thread.toNat = tid := by
  obtain ⟨hb, slot, hslot, -, htask⟩ := waitOf_eq_some.1 hc
  rw [← htask, ← slotOf_some hslot]
  refine toNat_toUInt64 (h.le_wordMax ?_)
  rw [slotOf_some hslot, hb]
  decide

variable (h : Agreed s)
include h

theorem Agreed.eq_of_thread {c' : Callback} (hc : s.futex.Enrolled c) (hc' : s.futex.Enrolled c')
    (heq : c.1.thread.toNat = c'.1.thread.toNat) : c = c' := by
  have h₁ := (h.agree c).1 hc
  rw [heq, (h.agree c').1 hc'] at h₁
  exact (Option.some.inj h₁).symm

theorem Agreed.registered_iff (tid : Nat) (handle : WaitHandle) : s.Registered tid handle ↔ s.Waiting tid handle := by
  constructor
  · rintro ⟨task, henrolled, rfl⟩
    obtain ⟨hb, slot, hslot, hwait, -⟩ := waitOf_eq_some.1 ((h.agree _).1 henrolled)
    exact ⟨hb, slot, hslot, hwait⟩
  · rintro ⟨hb, slot, hslot, hwait⟩
    have hc : s.waitOf tid = some (slot.taskId, handle) := waitOf_eq_some.2 ⟨hb, slot, hslot, hwait, rfl⟩
    exact ⟨slot.taskId, (h.agree _).2 (by rw [h.thread hc, hc]), h.thread hc⟩

omit h

theorem agreed_new (N C F : Nat) : Agreed (new N C F) := by
  have hstate : ∀ q, (new N C F).table.stateOf q = .empty := fun q => by
    by_contra hne
    obtain ⟨i, hi, -⟩ := exists_of_stateOf hne
    simpa [new, ProcessTable.new, ProcessInfo.used, ProcessInfo.empty] using (index_some hi).1
  have hpid : ∀ i : Fin N, (new N C F).contexts[i] = .empty := fun i => getElem_replicate
  have hempty : ContextSlot.empty.pid = 0 := rfl
  have hslot : ∀ tid, tid ≠ 0 → (new N C F).slotOf tid = none := fun tid h0 => by
    cases hi : (new N C F).contextIndex tid <;> grind [slotOf]
  refine ⟨⟨consistent_new N C, (by decide : 1 ≤ wordMax), fun i j _ h0 => ?_, fun tid htid => hslot tid (Nat.ne_of_gt htid),
    fun tid slot h0 hs => ?_, fun tid slot leader h0 hs => ?_, fun tid slot hrun => ?_⟩, sound_new F, fun c => ?_⟩
  · exact absurd (by rw [hpid]; rfl) h0
  · grind
  · grind
  · grind [Runnable]
  · rw [waitOf_of_not_blocked (by rw [hstate]; decide)]
    simp only [reduceCtorEq, iff_false]
    exact not_enrolled_new

include h

/-- The waits that end are taken out of the futex table. -/
theorem Agreed.moved (hm : Moved s gone s') (hsound : futex.Sound)
    (henrolled : ∀ c, futex.Enrolled c ↔ s.futex.Enrolled c ∧ ¬ gone c.1.thread.toNat) : Agreed { s' with futex } := by
  refine ⟨hm.tasks.withFutex futex, hsound, fun c => ?_⟩
  show futex.Enrolled c ↔ s'.waitOf c.1.thread.toNat = some c
  have := hm.ended c.1.thread.toNat
  have := hm.kept c.1.thread.toNat
  have := h.agree c
  grind

/-- No wait ends. -/
theorem Agreed.calm (hm : Moved s (fun _ => False) s') : Agreed s' :=
  h.moved hm (hm.futex ▸ h.sound) fun c => by simp [hm.futex]

omit h

/-! ## Wakes -/

theorem activateFutexWakes_enrolled (called : List Callback) : ∀ {s : SchedulerState N C F}, s.futex.Sound →
    (s.activateFutexWakes called).futex.Sound ∧
      ∀ c, (s.activateFutexWakes called).futex.Enrolled c ↔ s.futex.Enrolled c := by
  induction called with
  | nil => exact fun h => ⟨h, fun _ => Iff.rfl⟩
  | cons c rest ih =>
    intro s h
    have hfutex : (s.activate c).futex = (s.futex.takeOutcome c.2).2 := by
      show ((s.modifySlot c.1.thread.toNat .clearFutex).futex.takeOutcome c.2).2 = _
      rw [futex_modifySlot]
    obtain ⟨hs, he⟩ := takeOutcome_enrolled h c.2
    obtain ⟨hs', he'⟩ := ih (s := s.activate c) (by rw [hfutex]; exact hs)
    exact ⟨hs', fun c' => (he' c').trans (by rw [hfutex]; exact he c')⟩

/-- The tasks that the futex table calls are woken. -/
theorem Agreed.ended (h : Agreed s) (he : FutexTable.Ended s.futex called futex) :
    Agreed (activateFutexWakes { s with futex } called) ∧
      Released s called.length (activateFutexWakes { s with futex } called) := by
  have hm := (activateFutexWakes_moved called (h.toTasks.withFutex futex)).withFutex s.futex
  obtain ⟨hs, hsame⟩ := activateFutexWakes_enrolled called (s := { s with futex }) he.sound
  have hwaits : ∀ c ∈ called, s.waitOf c.1.thread.toNat = some c := fun c hc => (h.agree c).1 (he.mem c hc)
  refine ⟨(h.moved hm hs fun c => ?_ :), called.map fun c => c.1.thread.toNat, ?_, List.length_map _, fun tid => ?_,
    fun tid htid => ?_⟩
  · rw [hsame, he.enrolled]
    refine and_congr_right fun hc => not_congr ⟨fun hmem => ⟨c, hmem, rfl⟩, fun ⟨c', hc', heq⟩ => ?_⟩
    exact h.eq_of_thread (he.mem c' hc') hc heq ▸ hc'
  · exact he.nodup.map_on fun c hc c' hc' heq => h.eq_of_thread (he.mem c hc) (he.mem c' hc') heq
  · have hstate := stateOf_activateFutexWakes called (s := { s with futex }) h.consistent tid
    have hblocked : tid ∈ called.map (fun c => c.1.thread.toNat) → s.table.stateOf tid = .blocked := fun htid => by
      obtain ⟨c, hc, rfl⟩ := List.mem_map.1 htid
      exact (waitOf_eq_some.1 (hwaits c hc)).1
    grind
  · obtain ⟨c, hc, rfl⟩ := List.mem_map.1 htid
    obtain ⟨hb, slot, hslot, hwait, -⟩ := waitOf_eq_some.1 (hwaits c hc)
    exact ⟨c.2, hb, slot, hslot, hwait⟩

theorem released_zero (hf : s'.table = s.table) : Released s 0 s' :=
  ⟨[], List.nodup_nil, rfl, fun tid => by grind, fun _ htid => by cases htid⟩

include h

theorem Agreed.wake (cpu : Fin C) (address : UInt64) (maximum : Nat) : Agreed (s.futexWake cpu address maximum).2 ∧
      Released s (s.futexWake cpu address maximum).1 (s.futexWake cpu address maximum).2 := by
  unfold futexWake wakeFutexInState
  cases s.currentSlot cpu with
  | none => exact ⟨h, released_zero rfl⟩
  | some slot =>
    obtain ⟨result, futex, called, hwake, hended, hcount⟩ := wake_ended h.sound (slot.key address) maximum
    dsimp only
    rw [hwake]
    cases result with
    | ok n =>
      rw [hcount n rfl]
      exact h.ended hended
    | error error =>
      -- the address is not that of a word
      obtain rfl : futex = s.futex := by grind [FutexTable.wake, Option.bind_eq_some_iff]
      exact ⟨h, released_zero rfl⟩

theorem Agreed.requeue (cpu : Fin C) (address target : UInt64) (wakeLimit requeueLimit : Nat) :
    let result := s.futexRequeue cpu address target wakeLimit requeueLimit
    Agreed result.2 ∧
      ∀ n m, result.1 = some (n, m) →
        Released s n result.2 := by
  dsimp only
  unfold futexRequeue requeueFutexInState
  cases s.currentSlot cpu with
  | none => exact ⟨h, fun n m hn => by cases hn⟩
  | some slot =>
    obtain ⟨result, futex, called, hrequeue, hended, hcount⟩ :=
      requeue_ended h.sound (slot.key address) (slot.key target) wakeLimit requeueLimit
    dsimp only
    rw [hrequeue]
    cases result with
    | ok counts =>
      refine ⟨(h.ended hended).1, fun n m hn => ?_⟩
      rw [hcount n m (congrArg Except.ok (Option.some.inj hn))]
      exact (h.ended hended).2
    | error error =>
      obtain rfl : futex = s.futex := by grind [requeue, Option.bind_eq_some_iff]
      exact ⟨h, fun n m hn => by cases hn⟩

/-! ## Waits -/

theorem Agreed.wait (cpu : Fin C) (address : UInt64) (observed value : UInt32) (now : UInt64)
    (deadline : Option UInt64) (canIdle : Bool) (eligible : Policy) :
    Agreed (s.futexWait cpu address observed value now deadline canIdle eligible).2 := by
  unfold futexWait
  cases hc : s.currentSlot cpu with
  | none => exact h
  | some slot =>
    obtain ⟨hcur, hslot, hrun, hnone, h0⟩ := h.toTasks.current hc
    dsimp only
    rcases wait_enrolled h.sound (slot.key address) slot.taskId observed value now deadline with
      ⟨error, hwait⟩ | ⟨handle, futex, hwait, hsound, hnew, henrolled⟩
    · rw [hwait]
      exact h
    rw [hwait]
    dsimp only
    -- the handle is written, and the task sleeps
    obtain ⟨sleeps, s₂, hsleep, hslept⟩ := written_slept (s := { s with futex }) h.consistent hcur
      (fun _ => rfl : ∀ slot, (ContextSlot.armFutex handle slot).pid = slot.pid)
      (fun _ => rfl : ∀ slot : ContextSlot, slot.clearFutex.pid = slot.pid) canIdle eligible
    have htasks := h.toTasks.withFutex futex
    have hapart := hslept.alone.apart htasks.distinct
    have hslot₂ := hslept.slot.trans (congrArg _ hslot)
    have hidle : s.waitOf slot.pid = none := waitOf_of_not_blocked (by rw [hrun]; decide)
    have hfutex : s₂.futex = futex := hslept.alone.futex
    rw [hsleep]
    cases sleeps with
    | true =>
      have hblocked : s₂.table.stateOf slot.pid = .blocked := hslept.state
      obtain ⟨htasks, hothers⟩ := htasks.alone hapart fun slot' _ hslot' => by
        rw [hslot₂] at hslot'
        cases hslot'
        exact ⟨⟨slot, hslot, rfl⟩, fun hr => absurd (hblocked ▸ hr) not_runnable_blocked⟩
      have hwaits : s₂.waitOf slot.pid = some (slot.taskId, handle) := waitOf_eq_some.2 ⟨hblocked, _, hslot₂, rfl, rfl⟩
      refine ⟨htasks, hfutex ▸ hsound, fun c => ?_⟩
      rw [hfutex, henrolled, h.agree]
      by_cases hq : c.1.thread.toNat = slot.pid
      · rw [hq, hwaits, hidle]
        simp [eq_comm]
      rw [show s₂.waitOf _ = s.waitOf _ from hothers _ hq]
      refine or_iff_left ?_
      rintro rfl
      exact hq (htasks.thread hwaits)
    | false =>
      -- the task runs on, and its wait is withdrawn
      have hmoved := htasks.moved hapart fun slot' _ hslot' => by
        rw [hslot₂] at hslot'
        cases hslot'
        exact ⟨⟨slot, hslot, rfl⟩, .inr (.inr rfl)⟩
      have hcalm := (hmoved.calm (by rintro _ rfl; exact hidle)).withFutex s.futex
      obtain ⟨result, after, hcancel, hended⟩ :=
        cancel_ended hsound ((henrolled (slot.taskId, handle)).2 (.inr rfl))
      obtain ⟨hsound', htaken⟩ := takeOutcome_enrolled hended.sound handle
      have hwithdraw : s₂.withdraw handle = { s₂ with futex := (after.takeOutcome handle).2 } := by
        unfold withdraw
        rw [hfutex, hcancel]
      dsimp only
      rw [hwithdraw]
      refine (h.moved hcalm hsound' fun c => ?_ :)
      rw [htaken, hended.enrolled, henrolled, List.mem_singleton]
      constructor
      · rintro ⟨hold | hnew', hne⟩
        · exact ⟨hold, id⟩
        · exact absurd hnew' hne
      rintro ⟨hold, -⟩
      refine ⟨.inl hold, ?_⟩
      rintro rfl
      exact hnew slot.taskId hold

omit h

/-! ## Time -/

theorem Agreed.timer {now : UInt64} (h : Agreed s)
    (hno : ∀ i : Fin N, Expired now s.contexts[i] → s.waitOf s.contexts[i].pid = none) : Agreed (s.serviceTimerWaiters now) := by
  obtain ⟨n, futex, called, hexpire, hended⟩ := expire_ended h.sound now
  unfold serviceTimerWaiters
  rw [hexpire]
  have hfirst := (h.ended hended).1
  refine hfirst.calm (wakeSleepers_moved now _ hfirst.toTasks fun i hi => ?_)
  -- the futex wakes leave the deadlines, and end waits only
  obtain ⟨hpid, hdeadline⟩ := activateFutexWakes_deadline called { s with futex } i
  have hdue : Expired now s.contexts[i] := by
    unfold Expired at hi ⊢
    rwa [hdeadline] at hi
  have hm := activateFutexWakes_moved called (h.toTasks.withFutex futex)
  rw [hpid]
  by_cases hg : ∃ c ∈ called, c.1.thread.toNat = s.contexts[i].pid
  · exact hm.ended _ hg
  · exact (hm.kept _ hg).trans (hno i hdue)

/-! ## The ends of tasks -/

variable {groupPid status : Nat}

include h

theorem Agreed.endCurrent (he : s.endCurrent cpu status = some s') : Agreed s' :=
  h.calm (endCurrent_moved h.toTasks he)

theorem Agreed.schedule (cpu : Fin C) (eligible : Policy) : Agreed (s.scheduleNextForCpu cpu eligible).2 :=
  h.calm (shuffled_moved h.toTasks (shuffled_schedule h.consistent cpu _))

variable {eligible : Policy}

/-- A thread that ends is not enrolled, so that `cancel_task` finds nothing. -/
theorem Agreed.exitThread (he : s.exitThread cpu status eligible = some s') : Agreed s' := by
  obtain ⟨slot, hc, he⟩ := Option.bind_eq_some_iff.1 he
  obtain ⟨s₁, hend, he⟩ := Option.bind_eq_some_iff.1 he
  obtain ⟨s₂, hreap, he⟩ := Option.bind_eq_some_iff.1 he
  obtain ⟨s₃, hcancel, he⟩ := Option.bind_eq_some_iff.1 he
  cases he
  obtain ⟨-, -, hrun, -, -⟩ := h.toTasks.current hc
  have hidle : s.waitOf slot.pid = none := waitOf_of_not_blocked (by rw [hrun]; decide)
  have hmoved := (endCurrent_moved h.toTasks hend).trans (reapThread_moved (endCurrent_moved h.toTasks hend).tasks hreap)
  have hcalm : Moved s (fun _ => False) s₂ := hmoved.calm fun q hq => by
    obtain rfl := hq.resolve_left id
    exact hidle
  have h₂ := h.calm hcalm
  have hthread : slot.taskId.thread.toNat = slot.pid := toNat_toUInt64 (h.le_wordMax (by rw [hrun]; decide))
  have hnone : s₂.futex.cancelTask slot.taskId = some (none, s₂.futex) := by
    refine cancelTask_none fun handle henrolled => ?_
    have hwaits := (h₂.agree _).1 henrolled
    rw [hthread, hcalm.kept _ id, hidle] at hwaits
    cases hwaits
  unfold cancelTask at hcancel
  rw [hnone] at hcancel
  cases hcancel
  exact h₂.schedule cpu eligible

theorem Agreed.exit (he : s.exitTask cpu status eligible = some s') : Agreed s' := by
  obtain ⟨slot, -, he⟩ := Option.bind_eq_some_iff.1 he
  split at he
  · exact h.exitThread he
  · obtain ⟨s₁, hend, he⟩ := Option.bind_eq_some_iff.1 he
    cases he
    exact (h.endCurrent hend).schedule cpu eligible

theorem Agreed.stopMember (he : s.stopMember cpu groupPid status = some s') : Agreed s' := by
  obtain ⟨slot, -, he⟩ := Option.bind_eq_some_iff.1 he
  split at he
  · exact h.endCurrent he
  · cases he
    exact h

omit h

theorem processExit_spec (h : s.futex.Sound) (pid : Nat) : ∃ futex, s.processExit pid = { s with futex } ∧ futex.Sound ∧
    ∀ c, futex.Enrolled c ↔ s.futex.Enrolled c ∧ c.1.process ≠ pid.toUInt64 := by
  obtain ⟨n, futex, hexit, hsound, henrolled⟩ := processExit_ended h pid.toUInt64
  refine ⟨futex, ?_, hsound, henrolled⟩
  unfold processExit
  rw [hexit]

include h

/-- The waits that end are those of the threads of the group, which the futex table drops. -/
theorem Agreed.exitGroup (he : s.exitGroup cpu status eligible = some s') : Agreed s' := by
  obtain ⟨slot, hc, he⟩ := Option.bind_eq_some_iff.1 he
  obtain ⟨leader, -, he⟩ := Option.bind_eq_some_iff.1 he
  obtain ⟨ended, hended, he⟩ := Option.bind_eq_some_iff.1 he
  obtain ⟨reaped, hreaped, he⟩ := Option.bind_eq_some_iff.1 he
  obtain ⟨last, hlast, he⟩ := Option.bind_eq_some_iff.1 he
  cases he
  obtain ⟨-, hslot, hrun, -, h0⟩ := h.toTasks.current hc
  have hgroup := h.groups slot.pid slot h0 hslot
  have hmoved := exitGroup_moved h.toTasks hended hrun hreaped hlast
    (fun leader hleader => h.leaders slot.pid slot leader h0 hslot hleader) (by omega)
  obtain ⟨futex, hexit, hsound, henrolled⟩ := processExit_spec (s := last) (hmoved.futex ▸ h.sound) slot.groupPid
  rw [hexit]
  refine Agreed.schedule (h.moved hmoved hsound fun c => ?_) cpu eligible
  rw [henrolled, hmoved.futex]
  refine and_congr_right fun hc => not_congr ?_
  -- an enrolled task is of the process of its group
  obtain ⟨hb, slot', hslot', -, htask⟩ := waitOf_eq_some.1 ((h.agree c).1 hc)
  have hne : c.1.thread.toNat ≠ 0 := by
    intro hzero
    rw [hzero] at hb
    cases hb
  have hgroup' := h.groups _ slot' hne hslot'
  constructor
  · intro hprocess
    refine ⟨slot', hslot', ?_, hne⟩
    have heq : slot'.groupPid.toUInt64 = slot.groupPid.toUInt64 := (congrArg TaskId.process htask).trans hprocess
    rw [← toNat_toUInt64 (le_trans (Nat.le_of_lt hgroup'.2) h.bounded), heq]
    exact toNat_toUInt64 (le_trans (Nat.le_of_lt hgroup.2) h.bounded)
  rintro ⟨slot'', hslot'', hsame, -⟩
  rw [hslot'] at hslot''
  cases hslot''
  rw [← htask, ← hsame]
  rfl

theorem Agreed.cleanup {pid : Nat}
    (hno : ∀ i : Fin N, s.contexts[i].taskId.process = pid.toUInt64 → s.waitOf s.contexts[i].pid = none) :
    Agreed (s.processExit pid) := by
  obtain ⟨futex, hexit, hsound, henrolled⟩ := processExit_spec h.sound pid
  rw [hexit]
  refine h.moved (.refl h.toTasks) hsound fun c => ?_
  rw [henrolled]
  refine and_congr_right fun hc => ⟨fun _ => id, fun _ hprocess => ?_⟩
  have hwaits := (h.agree c).1 hc
  obtain ⟨-, slot, hslot, -, htask⟩ := waitOf_eq_some.1 hwaits
  obtain ⟨i, -, rfl⟩ := Option.map_eq_some_iff.1 hslot
  have hnone := hno i (by rw [htask]; exact hprocess)
  rw [slotOf_some hslot, hwaits] at hnone
  cases hnone

/-! ## Runs -/

theorem Agreed.getD {o : Option (SchedulerState N C F)} (ho : ∀ s', o = some s' → Agreed s') : Agreed (o.getD s) := by
  cases o with
  | none => exact h
  | some s' => exact ho s' rfl

theorem Agreed.step {event : FutexEvent C} (ha : s.FutexAdmits event) : Agreed (s.futexStep event) := by
  cases event with
  | spawn parentPid root => exact h.calm (startTask_moved h.toTasks parentPid root fun g hg => by cases hg)
  | clone cpu =>
    show Agreed (s.cloneThread cpu)
    unfold cloneThread
    cases hc : s.currentSlot cpu with
    | none => exact h
    | some slot =>
      obtain ⟨-, hslot, -, -, h0⟩ := h.toTasks.current hc
      refine h.calm (startTask_moved h.toTasks _ _ ?_)
      rintro g ⟨⟩
      exact ⟨slot.pid, slot, h0, hslot, rfl⟩
  | dispatch => exact h.schedule ..
  | resume => exact h.calm (resumeTask_moved h.toTasks ..)
  | block => exact h.calm (blockCurrent_moved h.toTasks ..)
  | sleep => exact h.calm (sleepUntil_moved h.toTasks ..)
  | sigcont groupPid tid =>
    show Agreed (s.wakeTask groupPid tid).2
    unfold wakeTask
    split
    · exact h.calm (wakeTid_moved h.toTasks ha)
    · exact h
  | wake tid => exact h.calm (wakeTid_moved h.toTasks ha)
  | futexWait cpu address observed value now deadline canIdle eligible =>
    exact h.wait cpu address observed value now deadline canIdle eligible
  | futexWake => exact (h.wake ..).1
  | futexRequeue => exact (h.requeue ..).1
  | timer now => exact h.timer ha
  | exit cpu status eligible => exact h.getD fun _ he => h.exit he
  | stopMember cpu groupPid status => exact h.getD fun _ he => h.stopMember he
  | exitGroup cpu status eligible => exact h.getD fun _ he => h.exitGroup he
  | reap => exact h.calm (reapTask_moved h.toTasks ..)
  | cleanup pid => exact h.cleanup ha

omit h

/-- The scheduler and the futex table agree in every state of a run in which tasks are woken for other reasons, and
the waits of a process dropped, only where no task waits on a futex; and every wake makes as many waiting tasks ready
as it says. -/
theorem scheduler_futex_agree (events : List (FutexEvent C)) (h : Guarded futexStep FutexAdmits (new N C F) events) :
    (∀ tid handle, (futexRun (new N C F) events).Registered tid handle ↔
      (futexRun (new N C F) events).Waiting tid handle) ∧
    (∀ cpu address maximum, Released (futexRun (new N C F) events)
      ((futexRun (new N C F) events).futexWake cpu address maximum).1
      ((futexRun (new N C F) events).futexWake cpu address maximum).2) ∧
    ∀ cpu address target wakeLimit requeueLimit n m,
      ((futexRun (new N C F) events).futexRequeue cpu address target wakeLimit requeueLimit).1 = some (n, m) →
        Released (futexRun (new N C F) events) n
          ((futexRun (new N C F) events).futexRequeue cpu address target wakeLimit requeueLimit).2 := by
  have hagreed : Agreed (futexRun (new N C F) events) := h.foldl (fun _ _ hs ha => hs.step ha) (agreed_new N C F)
  refine ⟨hagreed.registered_iff, fun cpu address maximum => ?_, fun cpu address target wakeLimit requeueLimit n m hn => ?_⟩
  · exact (hagreed.wake cpu address maximum).2
  · exact (hagreed.requeue cpu address target wakeLimit requeueLimit).2 n m hn

/-- A process with two threads; the first one waits on a futex, and the second one runs. -/
def threadWaits (cpu : Fin 2) : List (FutexEvent 2) :=
  [.spawn 0 1, .dispatch cpu fun _ _ => true, .clone cpu, .futexWait cpu 4096 7 7 0 none false fun _ _ => true]

theorem scheduler_futex_agree_threadWaits :
    Guarded futexStep FutexAdmits (new 2 2 2) (threadWaits (Fin.last 1)) ∧
      ((futexRun (new 2 2 2) (threadWaits (Fin.last 1))).futexWake (Fin.last 1) 4096 8).1 = 1 ∧
      Released (futexRun (new 2 2 2) (threadWaits (Fin.last 1)))
        ((futexRun (new 2 2 2) (threadWaits (Fin.last 1))).futexWake (Fin.last 1) 4096 8).1
        ((futexRun (new 2 2 2) (threadWaits (Fin.last 1))).futexWake (Fin.last 1) 4096 8).2 :=
  ⟨by decide +kernel, by decide +kernel,
    (scheduler_futex_agree (threadWaits (Fin.last 1)) (by decide +kernel)).2.1 (Fin.last 1) 4096 8⟩

/-- SIGCONT reaches the thread that waits. -/
def continuedWait (cpu : Fin 2) : List (FutexEvent 2) := threadWaits cpu ++ [.sigcont 1 1]

/-- The thread is ready and still enrolled, and a wake that reports it wakes nobody. -/
theorem continuedWait_disagrees :
    (futexRun (new 2 2 2) (continuedWait (Fin.last 1))).Registered 1 ⟨0, 1⟩ ∧
      ¬ (futexRun (new 2 2 2) (continuedWait (Fin.last 1))).Waiting 1 ⟨0, 1⟩ ∧
      ((futexRun (new 2 2 2) (continuedWait (Fin.last 1))).futexWake (Fin.last 1) 4096 8).1 = 1 ∧
      ¬ Released (futexRun (new 2 2 2) (continuedWait (Fin.last 1))) 1
        ((futexRun (new 2 2 2) (continuedWait (Fin.last 1))).futexWake (Fin.last 1) 4096 8).2 := by
  have hawake : ∀ i : Fin 2, (futexRun (new 2 2 2) (continuedWait (Fin.last 1))).table.entries[i].state ≠ .blocked := by
    decide +kernel
  have hno : ∀ tid, (futexRun (new 2 2 2) (continuedWait (Fin.last 1))).table.stateOf tid ≠ .blocked := by
    intro tid hb
    obtain ⟨i, -, hi⟩ := exists_of_stateOf (by rw [hb]; decide)
    exact hawake i (hi.trans hb)
  refine ⟨⟨⟨1, 1⟩, ⟨0, by decide +kernel, by decide +kernel⟩, rfl⟩, fun hw => hno 1 hw.1, by decide +kernel, ?_⟩
  rintro ⟨tids, -, hlength, -, hwaiting⟩
  obtain ⟨tid, rfl⟩ := List.length_eq_one_iff.1 hlength
  obtain ⟨handle, hw⟩ := hwaiting tid List.mem_cons_self
  exact hno tid hw.1

end SchedulerState

end MakOS.Process
