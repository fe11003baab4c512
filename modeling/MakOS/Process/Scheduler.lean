/-
The scheduler of `kernel/src/aarch64_process.rs`: the process table, the futex table and one context slot
for each task, all behind one lock. Every function here is one critical section. Which task may be
dispatched on a CPU (affinity, roles, priority hints) is a parameter, as are the boot probes' CPU idling
and the clock; saved registers other than the page-table root, and evidence counters, are left out.
-/
import MakOS.Process.Table
import MakOS.Futex.Table

namespace MakOS.Process

open MakOS.Data

/-- `WaitSource` of `crates/readiness` -/
inductive WaitSource
  | any
  | descriptor (key : Nat)
  | network (handle : Nat)
  deriving DecidableEq, Repr

def WaitSource.wokenBy (source event : WaitSource) : Bool :=
  match source, event with
  | .any, _ => true
  | _, .any => true
  | source, event => source == event

structure ContextSlot where
  pid : Nat
  groupPid : Nat
  /-- `context.ttbr0` -/
  root : Nat
  futexWait : Option Futex.WaitHandle
  sleepDeadline : Nat
  ioWait : Bool
  ioSource : WaitSource
  ioDeadline : Nat
  ioProbeSource : Option WaitSource
  ioProbeNotified : Bool
  inputWait : Bool
  inputWaitHandle : Nat
  deriving DecidableEq, Repr

def ContextSlot.fresh (pid groupPid root : Nat) : ContextSlot :=
  ⟨pid, groupPid, root, none, 0, false, .any, 0, none, false, false, 0⟩

def ContextSlot.empty : ContextSlot := .fresh 0 0 0

structure SchedulerState (N C F : Nat) where
  table : ProcessTable N C
  futex : Futex.FutexTable F
  contexts : Slots ContextSlot N
  deriving DecidableEq, Repr

/-- The test of a task for a CPU; a task without a slot is never dispatched. -/
abbrev Policy := ProcessInfo → ContextSlot → Bool

namespace SchedulerState

variable {N C F : Nat}

def new (N C F : Nat) : SchedulerState N C F := ⟨.new N C, .new F, .replicate N .empty⟩

/-- `contexts.iter().position(|slot| slot.pid == tid)` -/
def contextIndex (s : SchedulerState N C F) (tid : Nat) : Option (Fin N) := slot? (fun slot => slot.pid == tid) s.contexts

/-- `contexts.iter().find(|slot| slot.pid == tid)` -/
def slotOf (s : SchedulerState N C F) (tid : Nat) : Option ContextSlot := (s.contextIndex tid).map fun i => s.contexts[i]

@[grind =] def setSlot (s : SchedulerState N C F) (i : Fin N) (slot : ContextSlot) : SchedulerState N C F :=
  { s with contexts := s.contexts.set i slot }

def modifySlot (s : SchedulerState N C F) (tid : Nat) (f : ContextSlot → ContextSlot) : SchedulerState N C F :=
  match s.contextIndex tid with
  | none => s
  | some i => s.setSlot i (f s.contexts[i])

def scheduleNextForCpu (s : SchedulerState N C F) (cpu : Fin C) (eligible : Policy) :
    Option ProcessInfo × SchedulerState N C F :=
  let result := s.table.scheduleNextWhereOn cpu fun info => (s.slotOf info.pid).any (eligible info)
  (result.1, { s with table := result.2 })

/-- `let _ = table.wake(tid)` -/
def wakeTid (s : SchedulerState N C F) (tid : Nat) : SchedulerState N C F := { s with table := (s.table.wake tid).2 }

def wakeTask (s : SchedulerState N C F) (groupPid tid : Nat) : Bool × SchedulerState N C F :=
  if s.contexts.toList.any fun slot => slot.pid == tid && slot.groupPid == groupPid then
    ((s.table.wake tid).1, s.wakeTid tid)
  else (false, s)

/-- What a blocking call does after its task is blocked: the CPU takes another task, or idles, or the task
is made to run again. The result is whether the task stays blocked. -/
def switchAway (s : SchedulerState N C F) (cpu : Fin C) (tid : Nat) (canIdle : Bool) (eligible : Policy) :
    Bool × SchedulerState N C F :=
  match s.scheduleNextForCpu cpu eligible with
  | (some _, s) => (true, s)
  | (none, s) =>
    if canIdle then (true, s)
    else
      let s := s.wakeTid tid
      match s.table.activateOn cpu tid with
      | .error _ => (false, s)
      | .ok table => (false, { s with table })

/-- Block the current task of a CPU and switch away from it; a task that has to go on takes back what it wrote in
its slot. The result is whether the task sleeps. -/
def sleepCurrent (s : SchedulerState N C F) (cpu : Fin C) (tid : Nat) (canIdle : Bool) (eligible : Policy)
    (takeBack : ContextSlot → ContextSlot) : Bool × SchedulerState N C F :=
  match s.table.blockCurrentOn cpu with
  | (none, table) => (false, SchedulerState.modifySlot { s with table } tid takeBack)
  | (some _, table) =>
    match SchedulerState.switchAway { s with table } cpu tid canIdle eligible with
    | (true, s) => (true, s)
    | (false, s) => (false, s.modifySlot tid takeBack)

/-! ## Slots of tasks -/

variable {s : SchedulerState N C F} {tid q : Nat} {cpu : Fin C}

variable {slot : ContextSlot}

theorem slotOf_some (h : s.slotOf tid = some slot) : slot.pid = tid := by
  obtain ⟨i, hi, rfl⟩ := Option.map_eq_some_iff.1 h
  simpa using slot?_some hi

variable {s' : SchedulerState N C F}

theorem contextIndex_congr (h : ∀ i : Fin N, s'.contexts[i].pid = tid ↔ s.contexts[i].pid = tid) :
    s'.contextIndex tid = s.contextIndex tid := by
  unfold contextIndex slot?
  congr 1
  funext i
  simp [h i]

@[grind →] theorem contextIndex_pid {i : Fin N} (h : s.contextIndex tid = some i) : s.contexts[i].pid = tid := by
  simpa using slot?_some h

theorem slotOf_congr (h : s'.contexts = s.contexts) : s'.slotOf q = s.slotOf q := by
  unfold slotOf contextIndex
  rw [h]

variable {f : ContextSlot → ContextSlot}

theorem slotOf_modifySlot (hf : ∀ slot, (f slot).pid = slot.pid) (q : Nat) :
    (s.modifySlot tid f).slotOf q = if q = tid then (s.slotOf q).map f else s.slotOf q := by
  unfold modifySlot
  cases hi : s.contextIndex tid with
  | none => grind [slotOf]
  | some i =>
    have hindex : (s.setSlot i (f s.contexts[i])).contextIndex q = s.contextIndex q :=
      contextIndex_congr fun j => by grind
    unfold slotOf
    rw [hindex]
    cases hj : s.contextIndex q with
    | none => simp
    | some j =>
      grind

@[simp, grind =] theorem table_modifySlot : (s.modifySlot tid f).table = s.table := by
  unfold modifySlot
  cases s.contextIndex tid <;> rfl

@[simp, grind =] theorem futex_modifySlot : (s.modifySlot tid f).futex = s.futex := by
  unfold modifySlot
  cases s.contextIndex tid <;> rfl

/-- Writing a free slot leaves the tasks that have one. -/
theorem slotOf_setSlot_of_ne {i : Fin N} (hold : s.contexts[i].pid ≠ q) (hnew : slot.pid ≠ q) :
    (s.setSlot i slot).slotOf q = s.slotOf q := by
  have hindex : (s.setSlot i slot).contextIndex q = s.contextIndex q := contextIndex_congr fun j => by grind
  unfold slotOf
  rw [hindex]
  cases hj : s.contextIndex q with
  | none => rfl
  | some j =>
    grind

theorem slotOf_modifySlot_self (hf : ∀ slot, (f slot).pid = slot.pid) :
    (s.modifySlot tid f).slotOf tid = (s.slotOf tid).map f := by rw [slotOf_modifySlot hf, if_pos rfl]

/-! ## Blocking -/

open ProcessTable

/-- A change of the scheduler that concerns one task: other tasks keep their slots, and are blocked or ended if
they were. -/
structure Local (s : SchedulerState N C F) (tid : Nat) (s' : SchedulerState N C F) : Prop where
  consistent : s'.table.Consistent
  nextPid : s'.table.nextPid = s.table.nextPid
  futex : s'.futex = s.futex
  pids : ∀ i : Fin N, s'.contexts[i].pid = s.contexts[i].pid
  slots : ∀ q, q ≠ tid → s'.slotOf q = s.slotOf q
  states : ∀ state, ¬ Runnable state → ∀ q, q ≠ tid → (s'.table.stateOf q = state ↔ s.table.stateOf q = state)

namespace Local

theorem refl (h : s.table.Consistent) (tid : Nat) : Local s tid s :=
  ⟨h, rfl, rfl, fun _ => rfl, fun _ _ => rfl, fun _ _ _ _ => Iff.rfl⟩

theorem trans {s'' : SchedulerState N C F} (h₁ : Local s tid s') (h₂ : Local s' tid s'') : Local s tid s'' :=
  ⟨h₂.consistent, h₂.nextPid.trans h₁.nextPid, h₂.futex.trans h₁.futex, fun i => (h₂.pids i).trans (h₁.pids i),
    fun q hq => (h₂.slots q hq).trans (h₁.slots q hq),
    fun state hs q hq => (h₂.states state hs q hq).trans (h₁.states state hs q hq)⟩

variable {table : ProcessTable N C} {state : ProcessState} (h : Local s tid s')
include h

theorem modifySlot (hf : ∀ slot, (f slot).pid = slot.pid) : Local s tid (s'.modifySlot tid f) := by
  refine ⟨by rw [table_modifySlot]; exact h.consistent, by rw [table_modifySlot, h.nextPid], by rw [futex_modifySlot, h.futex],
    fun i => ?_, fun q hq => ?_, fun state hs q hq => ?_⟩
  · rw [← h.pids i]
    grind [SchedulerState.modifySlot]
  · rw [slotOf_modifySlot hf, if_neg hq]
    exact h.slots q hq
  · rw [table_modifySlot]
    exact h.states state hs q hq

theorem became (hb : Became s'.table tid state table) : Local s tid { s' with table } := by
  refine ⟨hb.consistent, hb.nextPid.trans h.nextPid, h.futex, h.pids, h.slots, fun state hs q hq => ?_⟩
  rw [hb.states, if_neg hq]
  exact h.states state hs q hq

theorem shuffled (hs : Shuffled s'.table table) : Local s tid { s' with table } :=
  ⟨hs.consistent, hs.nextPid.trans h.nextPid, h.futex, h.pids, h.slots,
    fun state hst q hq => (hs.stateOf_iff hst).trans (h.states state hst q hq)⟩

theorem wakeTid : Local s tid (s'.wakeTid tid) := by
  refine ⟨h.consistent.wake tid, (nextPid_wake s'.table tid).trans h.nextPid, h.futex, h.pids, h.slots, fun state hs q hq => ?_⟩
  show (s'.table.wake tid).2.stateOf q = state ↔ _
  rw [stateOf_wake h.consistent.toNamed, if_neg fun hh => hq hh.1]
  exact h.states state hs q hq

end Local

/-- The task stays blocked or runs again. -/
structure Switched (s : SchedulerState N C F) (tid : Nat) (stays : Bool) (s' : SchedulerState N C F) : Prop where
  alone : Local s tid s'
  contexts : s'.contexts = s.contexts
  self : s'.table.stateOf tid = if stays then .blocked else .running

theorem blockCurrentOn_none (hc : s.table.currentPidOn cpu = none) : s.table.blockCurrentOn cpu = (none, s.table) := by
  have : s.table.current[cpu] = none := by simpa [currentPidOn] using hc
  rw [blockCurrentOn, leaveOn_none this]
  rfl

variable (h : s.table.Consistent)
include h

theorem scheduleNextForCpu_shuffled (cpu : Fin C) (eligible : Policy) :
    Shuffled s.table (s.scheduleNextForCpu cpu eligible).2.table := shuffled_schedule h cpu _

theorem switchAway_spec (hb : s.table.stateOf tid = .blocked) (cpu : Fin C) (canIdle : Bool) (eligible : Policy) :
    ∃ stays s', s.switchAway cpu tid canIdle eligible = (stays, s') ∧ Switched s tid stays s' := by
  have hsched := scheduleNextForCpu_shuffled h cpu eligible
  have hblocked := (hsched.stateOf_iff not_runnable_blocked).2 hb
  have hlocal : Local s tid (s.scheduleNextForCpu cpu eligible).2 := (Local.refl h tid).shuffled hsched
  have hctx : (s.scheduleNextForCpu cpu eligible).2.contexts = s.contexts := rfl
  unfold switchAway
  generalize s.scheduleNextForCpu cpu eligible = result at *
  obtain ⟨selected, s'⟩ := result
  cases selected with
  | some info => exact ⟨true, s', rfl, hlocal, hctx, hblocked⟩
  | none =>
    cases canIdle with
    | true => exact ⟨true, s', rfl, hlocal, hctx, hblocked⟩
    | false =>
      have hready : (s'.wakeTid tid).table.stateOf tid = .ready :=
        (stateOf_wake hlocal.consistent.toNamed tid tid).trans (if_pos ⟨rfl, hblocked⟩)
      obtain ⟨table, hact, hshuf, hrun⟩ := activateOn_ok hlocal.wakeTid.consistent hready cpu
      dsimp only
      rw [hact]
      exact ⟨false, _, rfl, hlocal.wakeTid.shuffled hshuf, hctx, hrun⟩

variable (hc : s.table.currentPidOn cpu = some tid)
include hc

theorem running_current : s.table.stateOf tid = .running := by
  obtain ⟨i, hi, rfl⟩ := Option.map_eq_some_iff.1 hc
  exact stateOf_current h hi

theorem blockCurrentOn_switched (canIdle : Bool) (eligible : Policy) : ∃ table stays s',
    s.table.blockCurrentOn cpu = (some tid, table) ∧
      SchedulerState.switchAway { s with table } cpu tid canIdle eligible = (stays, s') ∧ Switched s tid stays s' := by
  obtain ⟨i, hi, rfl⟩ := Option.map_eq_some_iff.1 hc
  obtain ⟨info, table, hleave, hpid, hbecame⟩ := leaveOn_some h none (by decide : ProcessState.blocked ≠ .empty) hi
  rw [hpid] at hbecame
  have hlocal : Local s s.table.entries[i].pid { s with table } := (Local.refl h _).became hbecame
  obtain ⟨stays, s', haway, hsw⟩ :=
    switchAway_spec hlocal.consistent ((hbecame.states _).trans (if_pos rfl)) cpu canIdle eligible
  refine ⟨table, stays, s', ?_, haway, hlocal.trans hsw.alone, hsw.contexts, hsw.self⟩
  rw [blockCurrentOn, hleave, Option.map_some, hpid]

structure Slept (s : SchedulerState N C F) (tid : Nat) (write takeBack : ContextSlot → ContextSlot) (sleeps : Bool)
    (s' : SchedulerState N C F) : Prop where
  alone : Local s tid s'
  state : s'.table.stateOf tid = if sleeps then .blocked else .running
  slot : s'.slotOf tid = (s.slotOf tid).map fun slot => if sleeps then write slot else takeBack (write slot)

theorem sleepCurrent_slept {takeBack : ContextSlot → ContextSlot} (hback : ∀ slot, (takeBack slot).pid = slot.pid)
    (canIdle : Bool) (eligible : Policy) : ∃ sleeps s',
    s.sleepCurrent cpu tid canIdle eligible takeBack = (sleeps, s') ∧ Slept s tid id takeBack sleeps s' := by
  obtain ⟨table, stays, s', hblock, haway, hsw⟩ := blockCurrentOn_switched h hc canIdle eligible
  have hslot : s'.slotOf tid = s.slotOf tid := slotOf_congr hsw.contexts
  unfold sleepCurrent
  rw [hblock]
  dsimp only
  rw [haway]
  cases stays with
  | true => exact ⟨_, _, rfl, hsw.alone, hsw.self, hslot.trans (by simp)⟩
  | false =>
    refine ⟨_, _, rfl, hsw.alone.modifySlot hback, ?_, ?_⟩
    · rw [table_modifySlot]
      exact hsw.self
    · rw [slotOf_modifySlot_self hback, hslot]
      rfl

/-- The task writes in its slot before it sleeps. -/
theorem written_slept {write takeBack : ContextSlot → ContextSlot} (hwrite : ∀ slot, (write slot).pid = slot.pid)
    (hback : ∀ slot, (takeBack slot).pid = slot.pid) (canIdle : Bool) (eligible : Policy) : ∃ sleeps s',
    (s.modifySlot tid write).sleepCurrent cpu tid canIdle eligible takeBack = (sleeps, s') ∧
      Slept s tid write takeBack sleeps s' := by
  have hlocal := (Local.refl h tid).modifySlot hwrite
  obtain ⟨sleeps, s', hsleep, hslept⟩ :=
    sleepCurrent_slept hlocal.consistent (by rw [table_modifySlot]; exact hc) hback canIdle eligible
  refine ⟨sleeps, s', hsleep, hlocal.trans hslept.alone, hslept.state, ?_⟩
  rw [hslept.slot, slotOf_modifySlot_self hwrite, Option.map_map]
  rfl

omit h hc

/-! ## Other activity -/

/-- The slot of a new task; without a free one the task has none. -/
def installContext (s : SchedulerState N C F) (slot : ContextSlot) : SchedulerState N C F :=
  match slot? (fun slot : ContextSlot => slot.pid == 0) s.contexts with
  | none => s
  | some i => s.setSlot i slot

/-- `*slot = ContextSlot::EMPTY` for the slot of a task -/
def clearContext (s : SchedulerState N C F) (tid : Nat) : SchedulerState N C F :=
  match s.contextIndex tid with
  | none => s
  | some i => s.setSlot i .empty

/-- Block the current task of a CPU for any reason. -/
def blockCurrent (s : SchedulerState N C F) (cpu : Fin C) (canIdle : Bool) (eligible : Policy) : SchedulerState N C F :=
  match s.table.blockCurrentOn cpu with
  | (none, table) => { s with table }
  | (some tid, table) => (SchedulerState.switchAway { s with table } cpu tid canIdle eligible).2

/-- `clone_thread`, `fork_process` and the loader; a thread has the group of its maker -/
def startTask (s : SchedulerState N C F) (parentPid root : Nat) (group : Option Nat) : SchedulerState N C F :=
  match s.table.spawn parentPid root with
  | .error _ => s
  | .ok (pid, table) => installContext { s with table } (.fresh pid (group.getD pid) root)

/-- The current task of a CPU ends, and the CPU takes another one. -/
def exitCurrent (s : SchedulerState N C F) (cpu : Fin C) (status : Nat) (eligible : Policy) : SchedulerState N C F :=
  match s.table.exitCurrentOn cpu status with
  | (none, table) => { s with table }
  | (some _, table) => (scheduleNextForCpu { s with table } cpu eligible).2

/-- `wait`, for a process or a thread -/
def reapTask (s : SchedulerState N C F) (parentPid tid : Nat) : SchedulerState N C F :=
  match s.table.wait parentPid tid with
  | (.reaped _ _ _, table) => clearContext { s with table } tid
  | (_, table) => { s with table }

end SchedulerState

/-- What the rest of the kernel does to tasks. -/
inductive Activity (C : Nat)
  | start (parentPid root : Nat) (group : Option Nat)
  | dispatch (cpu : Fin C) (eligible : Policy)
  | block (cpu : Fin C) (canIdle : Bool) (eligible : Policy)
  | wake (tid : Nat)
  | exit (cpu : Fin C) (status : Nat) (eligible : Policy)
  | terminate (tid status : Nat)
  | reap (parentPid tid : Nat)

namespace SchedulerState

variable {N C F : Nat}

def act (s : SchedulerState N C F) : Activity C → SchedulerState N C F
  | .start parentPid root group => s.startTask parentPid root group
  | .dispatch cpu eligible => (s.scheduleNextForCpu cpu eligible).2
  | .block cpu canIdle eligible => s.blockCurrent cpu canIdle eligible
  | .wake tid => s.wakeTid tid
  | .exit cpu status eligible => s.exitCurrent cpu status eligible
  | .terminate tid status => { s with table := (s.table.terminate tid status).2 }
  | .reap parentPid tid => s.reapTask parentPid tid

open ProcessTable

variable {s s' : SchedulerState N C F} {tid q : Nat} {cpu : Fin C}

/-- The changes other activity makes: tasks keep their slots, and a task that is blocked was blocked before or
ran. -/
structure Acted (s s' : SchedulerState N C F) : Prop where
  consistent : s'.table.Consistent
  slots : ∀ q, s.table.stateOf q ≠ .empty → s'.table.stateOf q ≠ .empty → s'.slotOf q = s.slotOf q
  blocked : ∀ q, s'.table.stateOf q = .blocked → s.table.stateOf q = .blocked ∨ s.table.stateOf q = .running

theorem stateOf_zero (h : s.table.Consistent) : s.table.stateOf 0 = .empty := by
  by_contra hne
  obtain ⟨i, hi, -⟩ := exists_of_stateOf hne
  have := (h.fresh i (index_some hi).1).1
  rw [(index_some hi).2] at this
  exact absurd this (Nat.lt_irrefl 0)

variable {slot : ContextSlot}

theorem slotOf_installContext (hq : q ≠ 0) (hne : slot.pid ≠ q) : (s.installContext slot).slotOf q = s.slotOf q := by
  unfold installContext
  cases hi : slot? (fun slot : ContextSlot => slot.pid == 0) s.contexts with
  | none => rfl
  | some i =>
    have hpid : s.contexts[i].pid = 0 := by simpa using slot?_some hi
    exact slotOf_setSlot_of_ne (hpid ▸ hq.symm) hne

theorem slotOf_clearContext (hq : q ≠ 0) (hne : q ≠ tid) : (s.clearContext tid).slotOf q = s.slotOf q := by
  unfold clearContext
  cases hi : s.contextIndex tid with
  | none => rfl
  | some i => exact slotOf_setSlot_of_ne (contextIndex_pid hi ▸ hne.symm) hq.symm

@[grind =] theorem table_installContext : (s.installContext slot).table = s.table := by
  unfold installContext
  cases slot? (fun slot : ContextSlot => slot.pid == 0) s.contexts <;> rfl

@[grind =] theorem table_clearContext : (s.clearContext tid).table = s.table := by
  unfold clearContext
  cases s.contextIndex tid <;> rfl

variable {table : ProcessTable N C}

theorem Acted.of_table (hc : table.Consistent)
    (hb : ∀ q, table.stateOf q = .blocked → s.table.stateOf q = .blocked ∨ s.table.stateOf q = .running) :
    Acted s { s with table } := ⟨hc, fun _ _ _ => rfl, hb⟩

theorem Acted.of_shuffled (h : Shuffled s.table table) : Acted s { s with table } :=
  .of_table h.consistent fun _ hq => .inl ((h.stateOf_iff not_runnable_blocked).1 hq)

variable (h : s.table.Consistent)
include h

theorem Acted.refl : Acted s s := ⟨h, fun _ _ _ => rfl, fun _ hq => .inl hq⟩

theorem startTask_acted (parentPid root : Nat) (group : Option Nat) : Acted s (s.startTask parentPid root group) := by
  unfold startTask
  cases hs : s.table.spawn parentPid root with
  | error e => exact .refl h
  | ok result =>
    obtain ⟨-, hempty, hcon, hstates⟩ := spawn_ok h hs
    have hzero := stateOf_zero h
    refine ⟨by rw [table_installContext]; exact hcon, fun q hq _ => slotOf_installContext ?_ ?_, fun q hq => ?_⟩
    · grind
    · exact fun heq => hq (heq ▸ hempty)
    · grind

theorem blockCurrent_acted (cpu : Fin C) (canIdle : Bool) (eligible : Policy) :
    Acted s (s.blockCurrent cpu canIdle eligible) := by
  unfold blockCurrent
  cases hc : s.table.currentPidOn cpu with
  | none =>
    rw [blockCurrentOn_none hc]
    exact .refl h
  | some tid =>
    obtain ⟨table, stays, s', hblock, haway, hsw⟩ := blockCurrentOn_switched h hc canIdle eligible
    rw [hblock]
    dsimp only
    rw [haway]
    refine ⟨hsw.alone.consistent, fun q _ _ => slotOf_congr hsw.contexts, fun q hq => ?_⟩
    have := hsw.alone.states .blocked not_runnable_blocked q
    have := running_current h hc
    grind

theorem exitCurrent_acted (cpu : Fin C) (status : Nat) (eligible : Policy) :
    Acted s (s.exitCurrent cpu status eligible) := by
  unfold exitCurrent exitCurrentOn
  cases hc : s.table.current[cpu] with
  | none =>
    rw [leaveOn_none hc]
    exact .refl h
  | some i =>
    obtain ⟨info, table, hleave, -, hbecame⟩ := leaveOn_some h (some status) (by decide : ProcessState.zombie ≠ .empty) hc
    rw [hleave]
    have hshuf : Shuffled table (scheduleNextForCpu { s with table } cpu eligible).2.table :=
      shuffled_schedule hbecame.consistent cpu _
    refine ⟨hshuf.consistent, fun _ _ _ => rfl, fun q hq => .inl ?_⟩
    have hq := (hshuf.stateOf_iff not_runnable_blocked).1 hq
    have := hbecame.states q
    grind

theorem terminate_acted (tid status : Nat) : Acted s { s with table := (s.table.terminate tid status).2 } := by
  by_cases hs : s.table.stateOf tid = .ready ∨ s.table.stateOf tid = .blocked
  · obtain ⟨info, table, hterm, hbecame⟩ := terminate_spec h status hs
    rw [hterm]
    exact .of_table hbecame.consistent fun q hq => by grind [hbecame.states q]
  -- nothing happens to a task that runs or has ended
  have hsame : (s.table.terminate tid status).2 = s.table := by grind [terminate, stateOf]
  rw [hsame]
  exact .refl h

theorem reapTask_acted (parentPid tid : Nat) : Acted s (s.reapTask parentPid tid) := by
  unfold reapTask
  cases hres : s.table.wait parentPid tid with
  | mk result table =>
    cases result with
    | reaped child resource status =>
      obtain ⟨-, hcon, -, hstates⟩ := wait_reaped h hres
      have hzero := stateOf_zero h
      refine ⟨by rw [table_clearContext]; exact hcon, fun q hq hq' => slotOf_clearContext ?_ ?_, fun q hq => ?_⟩
      · grind
      · grind
      · grind
    | noChild | pending =>
      have hsame := wait_keeps s.table parentPid tid
      rw [hres] at hsame
      obtain rfl := hsame (by simp)
      exact .refl h

theorem act_spec (activity : Activity C) : Acted s (s.act activity) := by
  cases activity with
  | start parentPid root group => exact startTask_acted h parentPid root group
  | dispatch cpu eligible => exact .of_shuffled (scheduleNextForCpu_shuffled h cpu eligible)
  | block cpu canIdle eligible => exact blockCurrent_acted h cpu canIdle eligible
  | wake tid => exact .of_table (h.wake tid) fun q hq => by grind [stateOf_wake h.toNamed tid q]
  | exit cpu status eligible => exact exitCurrent_acted h cpu status eligible
  | terminate tid status => exact terminate_acted h tid status
  | reap parentPid tid => exact reapTask_acted h parentPid tid

end SchedulerState

end MakOS.Process
