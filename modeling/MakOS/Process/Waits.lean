/-
The tasks that wait on a futex, as the process table and the slots have it: a blocked task with a handle in its
slot. A step of the scheduler moves tasks: it ends some waits and leaves the others alone. The futex table has no
part in this.
-/
import MakOS.Process.FutexCalls

namespace MakOS.Process.SchedulerState

open MakOS.Data MakOS.Futex ProcessTable

variable {N C F : Nat} {s s' s'' : SchedulerState N C F} {tid q : Nat} {cpu : Fin C} {slot : ContextSlot} {c : Callback}
  {gone gone' : Nat → Prop}

def waitOf (s : SchedulerState N C F) (tid : Nat) : Option Callback :=
  if s.table.stateOf tid = .blocked then (s.slotOf tid).bind fun slot => slot.futexWait.map fun handle => (slot.taskId, handle)
  else none

theorem waitOf_eq_some : s.waitOf tid = some c ↔ s.table.stateOf tid = .blocked ∧
    ∃ slot, s.slotOf tid = some slot ∧ slot.futexWait = some c.2 ∧ slot.taskId = c.1 := by
  obtain ⟨task, handle⟩ := c
  unfold waitOf
  split
  · rename_i hb
    simp only [hb, true_and, Option.bind_eq_some_iff, Option.map_eq_some_iff, Prod.mk.injEq]
    constructor
    · rintro ⟨slot, hslot, handle', hwait, rfl, rfl⟩
      exact ⟨slot, hslot, hwait, rfl⟩
    · rintro ⟨slot, hslot, hwait, rfl⟩
      exact ⟨slot, hslot, handle, hwait, rfl, rfl⟩
  · rename_i hb
    simp [hb]

/-- A blocked task that does not wait has no handle. -/
theorem futexWait_of_waitOf (h : s.waitOf tid = none) (hb : s.table.stateOf tid = .blocked) (hslot : s.slotOf tid = some slot) :
    slot.futexWait = none := by
  cases hwait : slot.futexWait with
  | none => rfl
  | some handle =>
    have hsome : s.waitOf tid = some (slot.taskId, handle) := waitOf_eq_some.2 ⟨hb, slot, hslot, hwait, rfl⟩
    rw [h] at hsome
    cases hsome

theorem waitOf_of_not_blocked (h : s.table.stateOf tid ≠ .blocked) : s.waitOf tid = none := if_neg h

theorem waitOf_of_slot (h : ∀ slot, s.slotOf tid = some slot → slot.futexWait = none) : s.waitOf tid = none := by
  rw [Option.eq_none_iff_forall_not_mem]
  intro c hc
  obtain ⟨-, slot, hslot, hwait, -⟩ := waitOf_eq_some.1 hc
  rw [h slot hslot] at hwait
  cases hwait

theorem waitOf_congr (hs : s'.table.stateOf tid = .blocked ↔ s.table.stateOf tid = .blocked)
    (hslot : s'.slotOf tid = s.slotOf tid) : s'.waitOf tid = s.waitOf tid := by
  unfold waitOf
  simp only [hs, hslot]

/-- No task has two slots. -/
def Distinct (s : SchedulerState N C F) : Prop :=
  ∀ i j : Fin N, s.contexts[i].pid = s.contexts[j].pid → s.contexts[i].pid ≠ 0 → i = j

/-- What is always true of tasks: a thread is of a group whose leader leads it, and a task that may run has no
handle in its slot. -/
structure Tasks (s : SchedulerState N C F) : Prop where
  consistent : s.table.Consistent
  bounded : s.table.nextPid ≤ wordMax
  distinct : s.Distinct
  fresh : ∀ tid, s.table.nextPid ≤ tid → s.slotOf tid = none
  groups : ∀ tid slot, tid ≠ 0 → s.slotOf tid = some slot → 0 < slot.groupPid ∧ slot.groupPid < s.table.nextPid
  leaders : ∀ tid slot leader, tid ≠ 0 → s.slotOf tid = some slot → s.slotOf slot.groupPid = some leader →
    leader.groupPid = slot.groupPid
  quiet : ∀ tid slot, Runnable (s.table.stateOf tid) → s.slotOf tid = some slot → slot.futexWait = none

/-- Some waits are over, the others are as before, and there is no new one. -/
structure Moved (s : SchedulerState N C F) (gone : Nat → Prop) (s' : SchedulerState N C F) : Prop where
  tasks : Tasks s'
  futex : s'.futex = s.futex
  ended : ∀ q, gone q → s'.waitOf q = none
  kept : ∀ q, ¬ gone q → s'.waitOf q = s.waitOf q

theorem Moved.refl (h : Tasks s) : Moved s (fun _ => False) s := ⟨h, rfl, fun _ hq => hq.elim, fun _ _ => rfl⟩

theorem Moved.trans (h₁ : Moved s gone s') (h₂ : Moved s' gone' s'') : Moved s (fun q => gone q ∨ gone' q) s'' := by
  refine ⟨h₂.tasks, h₂.futex.trans h₁.futex, fun q hq => ?_, fun q hq => ?_⟩
  · have := h₁.ended q
    have := h₂.ended q
    have := h₂.kept q
    grind
  · rw [not_or] at hq
    rw [h₂.kept q hq.2, h₁.kept q hq.1]

theorem Tasks.withFutex (h : Tasks s) (futex : FutexTable F) : Tasks { s with futex } :=
  ⟨h.consistent, h.bounded, h.distinct, h.fresh, h.groups, h.leaders, h.quiet⟩

theorem Moved.withFutex (h : Moved s gone s') (futex : FutexTable F) : Moved { s with futex } gone { s' with futex } :=
  ⟨h.tasks.withFutex futex, rfl, h.ended, h.kept⟩

/-- Which waits are over can be said in another way. -/
theorem Moved.congr (h : Moved s gone s') (hle : ∀ q, gone q → ¬ gone' q → s.waitOf q = none)
    (hge : ∀ q, gone' q → ¬ gone q → s.waitOf q = none) : Moved s gone' s' := by
  refine { h with ended := fun q hq => ?_, kept := fun q hq => ?_ }
  · by_cases hg : gone q
    · exact h.ended q hg
    · rw [h.kept q hg]
      exact hge q hq hg
  · by_cases hg : gone q
    · rw [h.ended q hg, hle q hg hq]
    · exact h.kept q hg

theorem Moved.of_iff (h : Moved s gone s') (hiff : ∀ q, gone q ↔ gone' q) : Moved s gone' s' :=
  h.congr (fun q hq hnot => absurd ((hiff q).1 hq) hnot) fun q hq hnot => absurd ((hiff q).2 hq) hnot

/-- Nothing is over if the tasks in question did not wait. -/
theorem Moved.calm (h : Moved s gone s') (hno : ∀ q, gone q → s.waitOf q = none) : Moved s (fun _ => False) s' :=
  h.congr (fun q hq _ => hno q hq) fun _ hq _ => hq.elim

variable (h : Tasks s)
include h

theorem Tasks.of_slots (hcon : s'.table.Consistent) (hnext : s'.table.nextPid = s.table.nextPid)
    (hdistinct : s'.Distinct)
    (hslots : ∀ q slot', q ≠ 0 → s'.slotOf q = some slot' → ∃ slot, s.slotOf q = some slot ∧ slot'.groupPid = slot.groupPid)
    (hquiet : ∀ q slot', Runnable (s'.table.stateOf q) → s'.slotOf q = some slot' → slot'.futexWait = none) : Tasks s' := by
  refine ⟨hcon, hnext ▸ h.bounded, hdistinct, fun tid htid => ?_, fun tid slot h0 hslot => ?_,
    fun tid slot leader h0 hslot hleader => ?_, hquiet⟩
  · rw [hnext] at htid
    have hpos := h.consistent.next
    rw [Option.eq_none_iff_forall_not_mem]
    intro slot hslot
    obtain ⟨slot₀, hslot₀, -⟩ := hslots tid slot (by omega) hslot
    rw [h.fresh tid htid] at hslot₀
    cases hslot₀
  · obtain ⟨slot₀, hslot₀, hgroup⟩ := hslots tid slot h0 hslot
    rw [hgroup, hnext]
    exact h.groups tid slot₀ h0 hslot₀
  · obtain ⟨slot₀, hslot₀, hgroup⟩ := hslots tid slot h0 hslot
    have hpos := (h.groups tid slot₀ h0 hslot₀).1
    obtain ⟨leader₀, hleader₀, hlead⟩ := hslots slot.groupPid leader (by omega) hleader
    rw [hgroup] at hleader₀ ⊢
    exact hlead.trans (h.leaders tid slot₀ leader₀ h0 hslot₀ hleader₀)

variable {table : ProcessTable N C}

theorem Tasks.of_table (hcon : table.Consistent) (hnext : table.nextPid = s.table.nextPid)
    (hquiet : ∀ q slot, Runnable (table.stateOf q) → s.slotOf q = some slot → slot.futexWait = none) : Tasks { s with table } :=
  h.of_slots hcon hnext h.distinct (fun _ slot _ hslot => ⟨slot, hslot, rfl⟩) hquiet

omit h

/-- A change that concerns one task, whose slot may be cleared -/
structure Apart (s : SchedulerState N C F) (tid : Nat) (s' : SchedulerState N C F) : Prop where
  consistent : s'.table.Consistent
  nextPid : s'.table.nextPid = s.table.nextPid
  futex : s'.futex = s.futex
  distinct : s'.Distinct
  slots : ∀ q, q ≠ 0 → q ≠ tid → s'.slotOf q = s.slotOf q
  states : ∀ state, ¬ Runnable state → ∀ q, q ≠ tid → (s'.table.stateOf q = state ↔ s.table.stateOf q = state)

theorem Local.apart (hl : Local s tid s') (hd : s.Distinct) : Apart s tid s' := by
  refine ⟨hl.consistent, hl.nextPid, hl.futex, fun i j => ?_, fun q _ hq => hl.slots q hq, hl.states⟩
  rw [hl.pids, hl.pids]
  exact hd i j

include h

theorem Tasks.alone (ha : Apart s tid s') (hself : ∀ slot', tid ≠ 0 → s'.slotOf tid = some slot' →
      (∃ slot, s.slotOf tid = some slot ∧ slot'.groupPid = slot.groupPid) ∧
        (Runnable (s'.table.stateOf tid) → slot'.futexWait = none)) :
    Tasks s' ∧ ∀ q, q ≠ tid → s'.waitOf q = s.waitOf q := by
  have hzero : s'.table.stateOf 0 = .empty := stateOf_zero ha.consistent
  have hzero' := stateOf_zero h.consistent
  refine ⟨h.of_slots ha.consistent ha.nextPid ha.distinct (fun q slot' h0 hslot => ?_) fun q slot' hrun hslot => ?_, fun q hq => ?_⟩
  · by_cases hq : q = tid
    · subst hq
      exact (hself slot' h0 hslot).1
    · exact ⟨slot', by rw [← ha.slots q h0 hq]; exact hslot, rfl⟩
  · have h0 : q ≠ 0 := by grind [Runnable]
    -- a task that runs now ran before
    have := h.quiet q slot'
    have := ha.slots q
    have := ha.states
    grind
  · by_cases h0 : q = 0
    · grind [waitOf]
    · exact waitOf_congr (ha.states .blocked not_runnable_blocked q hq) (ha.slots q h0 hq)

/-- The task does not wait after the change. -/
theorem Tasks.moved (ha : Apart s tid s') (hself : ∀ slot', tid ≠ 0 → s'.slotOf tid = some slot' →
      (∃ slot, s.slotOf tid = some slot ∧ slot'.groupPid = slot.groupPid) ∧
        (s'.table.stateOf tid = .empty ∨ s'.table.stateOf tid = .zombie ∨ slot'.futexWait = none)) :
    Moved s (· = tid) s' := by
  obtain ⟨htasks, hkept⟩ := h.alone ha fun slot' h0 hslot' => by
    obtain ⟨hgroup, hs⟩ := hself slot' h0 hslot'
    exact ⟨hgroup, by grind [Runnable]⟩
  refine ⟨htasks, ha.futex, ?_, hkept⟩
  rintro q rfl
  rw [Option.eq_none_iff_forall_not_mem]
  intro c hc
  obtain ⟨hb, slot', hslot, hwait, -⟩ := waitOf_eq_some.1 hc
  have hzero := stateOf_zero ha.consistent
  grind

omit h

/-! ## Slots -/

variable {i : Fin N}

theorem Distinct.slotOf (h : s.Distinct) (hi : s.contexts[i].pid ≠ 0) : s.slotOf s.contexts[i].pid = some s.contexts[i] := by
  unfold SchedulerState.slotOf
  cases hj : s.contextIndex s.contexts[i].pid with
  | none =>
    have := slot?_eq_none.1 hj i
    simp at this
  | some j =>
    have hpid : s.contexts[j].pid = s.contexts[i].pid := by simpa using slot?_some hj
    rw [Option.map_some, h j i hpid (hpid ▸ hi)]

/-- A slot is given to the same task, to none, or to a new one. -/
theorem Distinct.setSlot (h : s.Distinct)
    (hpid : slot.pid = s.contexts[i].pid ∨ slot.pid = 0 ∨ ∀ j : Fin N, s.contexts[j].pid ≠ slot.pid) :
    (s.setSlot i slot).Distinct := by
  intro j k heq h0
  have := h j k
  grind

variable {f : ContextSlot → ContextSlot}

theorem Distinct.modifySlot (h : s.Distinct) (hf : ∀ slot, (f slot).pid = slot.pid) (tid : Nat) :
    (s.modifySlot tid f).Distinct := by
  unfold SchedulerState.modifySlot
  cases s.contextIndex tid with
  | none => exact h
  | some i => exact h.setSlot (.inl (hf _))

theorem Distinct.clearContext (h : s.Distinct) : (s.clearContext tid).Distinct := by
  unfold SchedulerState.clearContext
  cases s.contextIndex tid with
  | none => exact h
  | some i => exact h.setSlot (.inr (.inl rfl))

/-! ## Steps of the scheduler -/

include h

theorem shuffled_moved (hs : Shuffled s.table table) : Moved s (fun _ => False) { s with table } := by
  refine ⟨h.of_table hs.consistent hs.nextPid fun q slot hrun hslot => ?_, rfl, fun _ hq => hq.elim, fun q _ => ?_⟩
  · refine h.quiet q slot ?_ hslot
    rcases hs.states q with heq | ⟨hr, -⟩
    · exact heq ▸ hrun
    · exact hr
  · exact waitOf_congr (hs.stateOf_iff not_runnable_blocked) rfl

theorem resumeTask_moved (cpu : Fin C) (tid : Nat) : Moved s (fun _ => False) (s.resumeTask cpu tid) := by
  unfold resumeTask
  cases hact : s.table.activateOn cpu tid with
  | error error => exact .refl h
  | ok table =>
    have hready : s.table.stateOf tid = .ready := by grind [activateOn, stateOf]
    obtain ⟨table', hact', hs, -⟩ := activateOn_ok h.consistent hready cpu
    rw [hact'] at hact
    cases hact
    exact shuffled_moved h hs

/-- A task that does not wait on a futex may be woken. -/
theorem wakeTid_moved (hno : s.waitOf tid = none) : Moved s (fun _ => False) (s.wakeTid tid) := by
  have hwake : ∀ q, (s.wakeTid tid).table.stateOf q = if q = tid ∧ s.table.stateOf q = .blocked then .ready else s.table.stateOf q :=
    stateOf_wake h.consistent.toNamed tid
  refine ⟨h.of_table (h.consistent.wake tid) (nextPid_wake s.table tid) fun q slot hrun hslot => ?_, rfl,
    fun _ hq => hq.elim, fun q _ => ?_⟩
  · have hrun : Runnable ((s.wakeTid tid).table.stateOf q) := hrun
    have := h.quiet q slot
    have hnone : s.table.stateOf tid = .blocked → s.slotOf tid = some slot → _ := futexWait_of_waitOf hno
    grind
  · by_cases hq : q = tid ∧ s.table.stateOf q = .blocked
    · grind [waitOf]
    · exact waitOf_congr (by rw [hwake, if_neg hq]) rfl

theorem Tasks.current (hc : s.currentSlot cpu = some slot) : s.table.currentPidOn cpu = some slot.pid ∧
    s.slotOf slot.pid = some slot ∧ s.table.stateOf slot.pid = .running ∧ slot.futexWait = none ∧ slot.pid ≠ 0 := by
  obtain ⟨tid, htid, hslot⟩ := Option.bind_eq_some_iff.1 hc
  obtain rfl := slotOf_some hslot
  have hrun := running_current h.consistent htid
  refine ⟨htid, hslot, hrun, h.quiet _ slot (.inr hrun) hslot, fun h0 => ?_⟩
  rw [h0] at hrun
  cases hrun

/-- A call that blocks the current task for another reason, and may write in its slot what is not about futexes. -/
theorem sleep_moved {write takeBack : ContextSlot → ContextSlot} (hwrite : ∀ slot, (write slot).pid = slot.pid ∧
    (write slot).groupPid = slot.groupPid ∧ (write slot).futexWait = slot.futexWait)
    (hback : ∀ slot, (takeBack slot).pid = slot.pid ∧ (takeBack slot).groupPid = slot.groupPid ∧
      (takeBack slot).futexWait = slot.futexWait) (hc : s.currentSlot cpu = some slot) (canIdle : Bool) (eligible : Policy) :
    Moved s (fun _ => False) ((s.modifySlot slot.pid write).sleepCurrent cpu slot.pid canIdle eligible takeBack).2 := by
  obtain ⟨hcur, hslot, hrun, hnone, -⟩ := h.current hc
  obtain ⟨sleeps, s', hsleep, hslept⟩ :=
    written_slept h.consistent hcur (fun x => (hwrite x).1) (fun x => (hback x).1) canIdle eligible
  rw [hsleep]
  refine (h.moved (hslept.alone.apart h.distinct) fun slot' _ hslot' => ?_).calm ?_
  · rw [hslept.slot, hslot] at hslot'
    cases hslot'
    have hkeeps := hwrite slot
    have hback' := hback (write slot)
    exact ⟨⟨slot, hslot, by grind⟩, .inr (.inr (by grind))⟩
  · rintro _ rfl
    exact waitOf_of_not_blocked (by rw [hrun]; decide)

theorem sleepUntil_moved (cpu : Fin C) (deadline : Nat) (canIdle : Bool) (eligible : Policy) :
    Moved s (fun _ => False) (s.sleepUntil cpu deadline canIdle eligible) := by
  unfold sleepUntil
  cases hc : s.currentSlot cpu with
  | none => exact .refl h
  | some slot =>
    exact sleep_moved h (by exact fun _ => ⟨rfl, rfl, rfl⟩) (by exact fun _ => ⟨rfl, rfl, rfl⟩) hc canIdle eligible

/-- SIGSTOP, and the waits that write nothing in the slot -/
theorem blockCurrent_moved (cpu : Fin C) (canIdle : Bool) (eligible : Policy) :
    Moved s (fun _ => False) (s.blockCurrent cpu canIdle eligible) := by
  unfold blockCurrent
  cases hc : s.table.currentPidOn cpu with
  | none =>
    rw [blockCurrentOn_none hc]
    exact .refl h
  | some tid =>
    obtain ⟨table, stays, s', hblock, haway, hsw⟩ := blockCurrentOn_switched h.consistent hc canIdle eligible
    have hrun := running_current h.consistent hc
    rw [hblock]
    dsimp only
    rw [haway]
    refine (h.moved (hsw.alone.apart h.distinct) fun slot' _ hslot' => ?_).calm (by grind [waitOf])
    rw [slotOf_congr hsw.contexts] at hslot'
    exact ⟨⟨slot', hslot', rfl⟩, .inr (.inr (h.quiet tid slot' (.inr hrun) hslot'))⟩

/-! ## The ends of waits -/

theorem activate_moved (c : Callback) : Moved s (· = c.1.thread.toNat) { s.activate c with futex := s.futex } := by
  have hl : Local s c.1.thread.toNat ((s.modifySlot c.1.thread.toNat .clearFutex).wakeTid c.1.thread.toNat) :=
    ((Local.refl h.consistent _).modifySlot (f := .clearFutex) fun _ => rfl).wakeTid
  rw [← hl.futex]
  refine h.moved (hl.apart h.distinct) fun slot' _ hslot' => ?_
  have hslot' : (s.modifySlot c.1.thread.toNat .clearFutex).slotOf c.1.thread.toNat = some slot' := hslot'
  rw [slotOf_modifySlot_self (by exact fun _ => rfl)] at hslot'
  obtain ⟨slot, hslot, rfl⟩ := Option.map_eq_some_iff.1 hslot'
  exact ⟨⟨slot, hslot, rfl⟩, .inr (.inr rfl)⟩

omit h

theorem activateFutexWakes_moved (called : List Callback) : ∀ {s : SchedulerState N C F}, Tasks s →
    Moved s (fun q => ∃ c ∈ called, c.1.thread.toNat = q) { s.activateFutexWakes called with futex := s.futex } := by
  induction called with
  | nil => exact fun h => (Moved.refl h).of_iff (by simp)
  | cons c rest ih =>
    intro s h
    have hfirst := activate_moved h c
    have hrest := (@ih (s.activate c) (hfirst.tasks.withFutex _)).withFutex s.futex
    exact (hfirst.trans hrest).of_iff (by simp [eq_comm])

/-- The blocked tasks among those that are called become ready; the other tasks keep their states. -/
theorem stateOf_activateFutexWakes (called : List Callback) : ∀ {s : SchedulerState N C F}, s.table.Consistent → ∀ q,
    (s.activateFutexWakes called).table.stateOf q =
      if q ∈ called.map (fun c => c.1.thread.toNat) ∧ s.table.stateOf q = .blocked then .ready else s.table.stateOf q := by
  induction called with
  | nil => exact fun _ q => by simp [activateFutexWakes]
  | cons c rest ih =>
    intro s h q
    have htable : (s.activate c).table = (s.table.wake c.1.thread.toNat).2 :=
      congrArg (fun table : ProcessTable N C => (table.wake c.1.thread.toNat).2) table_modifySlot
    have hfirst := stateOf_wake h.toNamed c.1.thread.toNat q
    show ((s.activate c).activateFutexWakes rest).table.stateOf q = _
    rw [ih (htable ▸ h.wake _) q]
    grind

/-- The first loop of the timer does not touch deadlines. -/
theorem activateFutexWakes_deadline (called : List Callback) : ∀ (s : SchedulerState N C F) (i : Fin N),
    (s.activateFutexWakes called).contexts[i].pid = s.contexts[i].pid ∧
      (s.activateFutexWakes called).contexts[i].sleepDeadline = s.contexts[i].sleepDeadline := by
  induction called with
  | nil => exact fun _ _ => ⟨rfl, rfl⟩
  | cons c rest ih =>
    intro s i
    have hfirst : (s.activate c).contexts[i].pid = s.contexts[i].pid ∧
        (s.activate c).contexts[i].sleepDeadline = s.contexts[i].sleepDeadline := by
      show (s.modifySlot c.1.thread.toNat .clearFutex).contexts[i].pid = _ ∧
        (s.modifySlot c.1.thread.toNat .clearFutex).contexts[i].sleepDeadline = _
      grind [modifySlot, ContextSlot.clearFutex]
    obtain ⟨h₁, h₂⟩ := ih (s.activate c) i
    exact ⟨h₁.trans hfirst.1, h₂.trans hfirst.2⟩

theorem wakeSleeper_moved (now : UInt64) (i : Fin N) (h : Tasks s)
    (hno : Expired now s.contexts[i] → s.waitOf s.contexts[i].pid = none) :
    Moved s (fun _ => False) (s.wakeSleeper now i) := by
  unfold wakeSleeper
  split
  · rename_i hexpired
    set slot := s.contexts[i]
    set s₁ := s.setSlot i slot.clearSleep
    have hl : Local s slot.pid s₁ := ⟨h.consistent, rfl, rfl, fun j => by grind [ContextSlot.clearSleep],
      fun q hq => slotOf_setSlot_of_ne hq.symm hq.symm, fun _ _ _ _ => Iff.rfl⟩
    have hdistinct := (hl.apart h.distinct).distinct
    have hself : s₁.contexts[i] = slot.clearSleep := getElem_set_self
    have hpid : slot.clearSleep.pid = slot.pid := rfl
    have hmoved : Moved s (· = slot.pid) (s₁.wakeTid slot.pid) := by
      refine h.moved (hl.wakeTid.apart h.distinct) fun slot' h0 hslot' => ?_
      have hslot := h.distinct.slotOf h0
      have hfind := hdistinct.slotOf (i := i) (by rw [hself]; exact h0)
      rw [hself] at hfind
      obtain rfl : slot' = slot.clearSleep := Option.some.inj (hslot'.symm.trans hfind)
      refine ⟨⟨_, hslot, rfl⟩, ?_⟩
      -- a task that is woken has no handle: it was not blocked, or it waited for the time only
      have hwake : (s₁.wakeTid slot.pid).table.stateOf slot.pid = _ :=
        stateOf_wake h.consistent.toNamed slot.pid slot.pid
      cases hst : s.table.stateOf slot.pid with
      | empty => grind
      | zombie => grind
      | ready => exact .inr (.inr (h.quiet _ slot (.inl hst) hslot))
      | running => exact .inr (.inr (h.quiet _ slot (.inr hst) hslot))
      | blocked =>
        have hnone : slot.futexWait = none := futexWait_of_waitOf (hno hexpired) hst hslot
        exact .inr (.inr hnone)
    exact hmoved.calm fun q hq => hq ▸ hno hexpired
  · exact .refl h

theorem wakeSleepers_moved (now : UInt64) (indices : List (Fin N)) : ∀ {s : SchedulerState N C F}, Tasks s →
    (∀ i : Fin N, Expired now s.contexts[i] → s.waitOf s.contexts[i].pid = none) →
    Moved s (fun _ => False) (indices.foldl (wakeSleeper now) s) := by
  induction indices with
  | nil => exact fun h _ => .refl h
  | cons i rest ih =>
    intro s h hno
    have hfirst := wakeSleeper_moved now i h (hno i)
    refine (hfirst.trans (ih hfirst.tasks fun j hj => ?_)).of_iff (by simp)
    -- a slot that is due now was due before
    have hsame : (s.wakeSleeper now i).contexts[j].pid = s.contexts[j].pid ∧ Expired now s.contexts[j] := by
      grind [wakeSleeper, wakeTid, ContextSlot.clearSleep]
    rw [hsame.1, hfirst.kept _ id]
    exact hno j hsame.2

/-! ## The ends of tasks -/

variable {status : Nat}

theorem Tasks.ended (h : Tasks s) (hb : Became s.table tid .zombie table) : Moved s (· = tid) { s with table } := by
  refine h.moved (((Local.refl h.consistent tid).became hb).apart h.distinct) fun slot' _ hslot' => ?_
  exact ⟨⟨slot', hslot', rfl⟩, .inr (.inl ((hb.states tid).trans (if_pos rfl)))⟩

include h

theorem endCurrent_moved (he : s.endCurrent cpu status = some s') : Moved s (fun _ => False) s' := by
  unfold endCurrent exitCurrentOn at he
  cases hc : s.table.current[cpu] with
  | none =>
    rw [leaveOn_none hc] at he
    cases he
  | some i =>
    obtain ⟨info, table, hleave, hpid, hbecame⟩ :=
      leaveOn_some h.consistent (some status) (by decide : ProcessState.zombie ≠ .empty) hc
    rw [hleave] at he
    cases he
    have hrun := stateOf_current h.consistent hc
    exact (h.ended hbecame).calm (by grind [waitOf])

theorem endTask_moved (he : s.endTask tid status = some s') : Moved s (· = tid) s' := by
  unfold endTask ProcessTable.get at he
  cases hi : s.table.index tid with
  | none =>
    rw [hi] at he
    cases he
  | some i =>
    rw [hi] at he
    dsimp only [Option.map_some] at he
    have hst : s.table.stateOf tid = s.table.entries[i].state := by rw [stateOf, hi]
    split at he
    · cases he
      exact (Moved.refl h).congr (fun _ hq => hq.elim) (by grind [waitOf])
    -- a task that runs on another CPU cannot be ended
    have hstopped : s.table.stateOf tid = .ready ∨ s.table.stateOf tid = .blocked := by grind [terminate]
    obtain ⟨info, table, hterm, hbecame⟩ := terminate_spec h.consistent status hstopped
    rw [hterm] at he
    cases he
    exact h.ended hbecame

theorem reaped_moved {parentPid child resource : Nat}
    (hw : s.table.wait parentPid tid = (.reaped child resource status, table)) :
    Moved s (· = tid) (clearContext { s with table } tid) := by
  have hbecame := (wait_reaped h.consistent hw).2
  have htable : (clearContext { s with table } tid).table = table := table_clearContext
  have hdistinct : ({ s with table } : SchedulerState N C F).Distinct := h.distinct
  refine h.moved ⟨by rw [htable]; exact hbecame.consistent, by rw [htable]; exact hbecame.nextPid, by grind [clearContext],
    hdistinct.clearContext, fun q h0 hq => slotOf_clearContext h0 hq, fun state _ q hq => ?_⟩ fun slot' h0 hslot' => ?_
  · rw [htable, hbecame.states, if_neg hq]
  -- the slot was the only one
  unfold clearContext at hslot'
  cases hi : ({ s with table } : SchedulerState N C F).contextIndex tid with
  | none => grind [slotOf]
  | some i =>
    obtain ⟨j, hj, rfl⟩ := Option.map_eq_some_iff.1 hslot'
    have := h.distinct j i
    have : ContextSlot.empty.pid = 0 := rfl
    grind

variable {groupPid : Nat}

theorem reapThread_moved {root : Option Nat} (he : s.reapThread groupPid root tid = some s') :
    Moved s (· = tid) s' := by
  unfold reapThread at he
  split at he
  · rename_i hw
    split at he
    · cases he
      exact reaped_moved h hw
    · cases he
  · cases he

theorem reapTask_moved (parentPid tid : Nat) : Moved s (fun _ => False) (s.reapTask parentPid tid) := by
  unfold reapTask
  cases hres : s.table.wait parentPid tid with
  | mk result table =>
    cases result with
    | reaped child resource status =>
      have := (wait_reaped h.consistent hres).1
      exact (reaped_moved h hres).calm (by grind [waitOf])
    | noChild | pending =>
      have hsame := wait_keeps s.table parentPid tid
      rw [hres] at hsame
      obtain rfl := hsame (by simp)
      exact .refl h

/-! ## The end of a group -/

variable {caller root : Nat}

theorem endWorker_moved (he : endWorker groupPid caller root status s tid = some s') : Moved s (· = tid) s' := by
  obtain ⟨s₁, hfirst, hreap⟩ := Option.bind_eq_some_iff.1 he
  unfold endOther at hfirst
  split at hfirst
  · have hm := endTask_moved h hfirst
    exact (hm.trans (reapThread_moved hm.tasks hreap)).of_iff (by simp)
  · cases hfirst
    exact reapThread_moved h hreap

omit h

theorem endWorkers_moved (tids : List Nat) : ∀ {s s' : SchedulerState N C F}, Tasks s →
    tids.foldlM (endWorker groupPid caller root status) s = some s' → Moved s (· ∈ tids) s' := by
  induction tids with
  | nil =>
    intro s s' h he
    cases he
    exact (Moved.refl h).of_iff (by simp)
  | cons tid rest ih =>
    intro s s' h he
    obtain ⟨s₁, hfirst, hrest⟩ := Option.bind_eq_some_iff.1 (by rwa [List.foldlM_cons] at he)
    have hm := endWorker_moved h hfirst
    exact (hm.trans (ih hm.tasks hrest)).of_iff (by simp)

theorem mem_workers (h : s.Distinct) : q ∈ s.workers groupPid ↔
    q ≠ 0 ∧ q ≠ groupPid ∧ ∃ slot, s.slotOf q = some slot ∧ slot.groupPid = groupPid := by
  unfold workers
  simp only [List.mem_map, List.mem_filter, Slots.mem_toList, decide_eq_true_eq]
  constructor
  · rintro ⟨slot, ⟨⟨i, rfl⟩, h0, hne, hgroup⟩, rfl⟩
    exact ⟨h0, hne, _, h.slotOf h0, hgroup⟩
  rintro ⟨h0, hne, slot, hslot, hgroup⟩
  obtain ⟨i, -, hi⟩ := Option.map_eq_some_iff.1 hslot
  obtain rfl := slotOf_some hslot
  exact ⟨slot, ⟨⟨i, hi⟩, h0, hne, hgroup⟩, rfl⟩

/-- The waits that end with a group are those of its threads. -/
theorem exitGroup_moved {ended reaped last : SchedulerState N C F} (h : Tasks s)
    (hended : s.endCurrent cpu status = some ended) (hcaller : s.table.stateOf caller = .running)
    (hreaped : (s.workers groupPid).foldlM (endWorker groupPid caller root status) ended = some reaped)
    (hlast : reaped.endOther caller groupPid status = some last)
    (hleader : ∀ leader, s.slotOf groupPid = some leader → leader.groupPid = groupPid) (h0 : groupPid ≠ 0) :
    Moved s (fun q => ∃ slot, s.slotOf q = some slot ∧ slot.groupPid = groupPid ∧ q ≠ 0) last := by
  have h₁ := endCurrent_moved h hended
  have h₂ : Moved s (· ∈ s.workers groupPid) reaped := (h₁.trans (endWorkers_moved _ h₁.tasks hreaped)).of_iff (by simp)
  have h₃ : Moved s (fun q => q ∈ s.workers groupPid ∨ q = groupPid) last := by
    unfold endOther at hlast
    split at hlast
    · exact h₂.trans (endTask_moved h₂.tasks hlast)
    · -- the leader runs, and has no wait to end
      cases hlast
      exact h₂.congr (by grind) (by grind [waitOf])
  refine h₃.congr (fun q hq hnot => ?_) fun q hq hnot => ?_
  · rw [mem_workers h.distinct] at hq
    exact waitOf_of_slot fun slot hslot => by grind
  · rw [mem_workers h.distinct] at hnot
    grind

/-! ## New tasks -/

theorem installContext_self (hd : s.Distinct) (hnone : s.slotOf slot.pid = none) (h0 : slot.pid ≠ 0) :
    (s.installContext slot).Distinct ∧ ∀ slot', (s.installContext slot).slotOf slot.pid = some slot' → slot' = slot := by
  unfold installContext
  cases hi : slot? (fun slot : ContextSlot => slot.pid == 0) s.contexts with
  | none => exact ⟨hd, fun slot' hslot' => by rw [hnone] at hslot'; cases hslot'⟩
  | some i =>
    have hnew : ∀ j : Fin N, s.contexts[j].pid ≠ slot.pid := by
      intro j hj
      have := hd.slotOf (i := j)
      grind
    have hd' : (s.setSlot i slot).Distinct := hd.setSlot (.inr (.inr hnew))
    have := hd'.slotOf (i := i)
    grind

/-- A new task leads its own group or is of the group of its maker, and does not wait. -/
theorem startTask_moved (h : Tasks s) (parentPid root : Nat) {group : Option Nat}
    (hgroup : ∀ g, group = some g → ∃ tid slot, tid ≠ 0 ∧ s.slotOf tid = some slot ∧ slot.groupPid = g) :
    Moved s (fun _ => False) (s.startTask parentPid root group) := by
  unfold startTask
  cases hs : s.table.spawn parentPid root with
  | error error => exact .refl h
  | ok result =>
    obtain ⟨pid, table⟩ := result
    obtain ⟨h0, hempty, hcon, hstates⟩ := spawn_ok h.consistent hs
    obtain ⟨hpid, hnext, hbound⟩ := nextPid_spawn hs
    dsimp only
    obtain ⟨fresh, hfresh, hgroupPid, rfl, hwait⟩ : ∃ fresh, ContextSlot.fresh pid (group.getD pid) root = fresh ∧
      fresh.groupPid = group.getD pid ∧ fresh.pid = pid ∧ fresh.futexWait = none := ⟨_, rfl, rfl, rfl, rfl⟩
    rw [hfresh]
    have hnone : ({ s with table } : SchedulerState N C F).slotOf fresh.pid = none := h.fresh fresh.pid (by omega)
    have hd₀ : ({ s with table } : SchedulerState N C F).Distinct := h.distinct
    obtain ⟨hd, hself⟩ := installContext_self hd₀ hnone h0
    have htable : (installContext { s with table } fresh).table = table := table_installContext
    have hslots : ∀ q, q ≠ 0 → q ≠ fresh.pid → (installContext { s with table } fresh).slotOf q = s.slotOf q :=
      fun q hq hne => slotOf_installContext hq hne.symm
    have hzero := stateOf_zero h.consistent
    -- the maker of a thread is of the group
    have hmaker : ∀ g, group = some g → 0 < g ∧ g < fresh.pid ∧ ∀ leader, s.slotOf g = some leader → leader.groupPid = g := by
      intro g hg
      obtain ⟨tid, slot, ht0, hslot, rfl⟩ := hgroup g hg
      have := h.groups tid slot ht0 hslot
      exact ⟨this.1, by omega, fun leader hleader => h.leaders tid slot leader ht0 hslot hleader⟩
    refine ⟨⟨by rw [htable]; exact hcon, by rw [htable, hnext]; exact hbound, hd, fun tid htid => ?_, fun tid slot ht0 hslot => ?_,
      fun tid slot leader ht0 hslot hleader => ?_, fun tid slot hrun hslot => ?_⟩, by grind [installContext],
      fun _ hq => hq.elim, fun q _ => ?_⟩
    · rw [htable] at htid
      rw [hslots tid (by omega) (by omega)]
      exact h.fresh tid (by omega)
    · have := h.groups tid slot ht0
      cases group <;> grind
    · have := h.groups tid slot ht0
      have := h.leaders tid slot leader ht0
      cases group <;> grind
    · have := h.quiet tid slot
      grind [Runnable]
    · by_cases heq : q = fresh.pid ∨ q = 0
      · grind [waitOf]
      · exact waitOf_congr (by grind) (by grind)

end MakOS.Process.SchedulerState
