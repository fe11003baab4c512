/-
The process table (`crates/process-table`): the life of a task and the choice of the next one to run, for
any number of entries and CPUs. CPU numbers are below their bound by type. What a caller sees of the table
is the state of each identifier, and every operation says how it changes that.
-/
import MakOS.Data.Word
import MakOS.Data.Slots

namespace MakOS.Process

open MakOS.Data

inductive ProcessState
  | empty
  | ready
  | running
  | blocked
  | zombie
  deriving DecidableEq, Repr

structure ProcessInfo where
  pid : Nat
  parentPid : Nat
  state : ProcessState
  resource : Nat
  exitStatus : Nat
  deriving DecidableEq, Repr

def ProcessInfo.empty : ProcessInfo := ⟨0, 0, .empty, 0, 0⟩

def ProcessInfo.used (info : ProcessInfo) : Bool := info.state != .empty

inductive SpawnError
  | full
  | invalidResource
  | pidExhausted
  deriving DecidableEq, Repr

inductive ActivateError
  | notFound
  | notRunnable
  deriving DecidableEq, Repr

inductive WaitResult
  | noChild
  | pending
  | reaped (pid resource exitStatus : Nat)
  deriving DecidableEq, Repr

structure ProcessTable (N C : Nat) where
  entries : Slots ProcessInfo N
  current : Slots (Option (Fin N)) C
  cursor : Slots Nat C
  nextPid : Nat
  deriving DecidableEq, Repr

namespace ProcessTable

variable {N C : Nat}

def new (N C : Nat) : ProcessTable N C := ⟨.replicate N .empty, .replicate C none, .replicate C 0, 1⟩

def index (table : ProcessTable N C) (pid : Nat) : Option (Fin N) :=
  if pid = 0 then none else slot? (fun entry => entry.used && entry.pid == pid) table.entries

@[grind =] def setState (table : ProcessTable N C) (i : Fin N) (state : ProcessState) : ProcessTable N C :=
  { table with entries := table.entries.set i { table.entries[i] with state := state } }

@[grind =] def setCurrent (table : ProcessTable N C) (cpu : Fin C) (i : Option (Fin N)) : ProcessTable N C :=
  { table with current := table.current.set cpu i }

@[grind =] def setCursor (table : ProcessTable N C) (cpu : Fin C) (position : Nat) : ProcessTable N C :=
  { table with cursor := table.cursor.set cpu position }

def get (table : ProcessTable N C) (pid : Nat) : Option ProcessInfo := (table.index pid).map fun i => table.entries[i]

def currentPidOn (table : ProcessTable N C) (cpu : Fin C) : Option Nat :=
  table.current[cpu].map fun i => table.entries[i].pid

def runningCpu (table : ProcessTable N C) (pid : Nat) : Option (Fin C) :=
  (table.index pid).bind fun i => slot? (fun current => current == some i) table.current

def spawn (table : ProcessTable N C) (parentPid resource : Nat) : Except SpawnError (Nat × ProcessTable N C) :=
  if resource = 0 then .error .invalidResource
  else match slot? (fun entry => !entry.used) table.entries with
    | none => .error .full
    | some i =>
      match checkedAdd table.nextPid 1 with
      | none => .error .pidExhausted
      | some nextPid =>
        .ok (table.nextPid, { table with
          entries := table.entries.set i ⟨table.nextPid, parentPid, .ready, resource, 0⟩
          nextPid })

/-- The task that runs on a CPU becomes ready again. -/
def yieldCurrent (table : ProcessTable N C) (cpu : Fin C) : ProcessTable N C :=
  match table.current[cpu] with
  | none => table
  | some i => if table.entries[i].state = .running then table.setState i .ready else table

def activateOn (table : ProcessTable N C) (cpu : Fin C) (pid : Nat) : Except ActivateError (ProcessTable N C) :=
  match table.index pid with
  | none => .error .notFound
  | some i =>
    if table.entries[i].state ≠ .ready then .error .notRunnable
    else .ok ((((table.yieldCurrent cpu).setState i .running).setCurrent cpu (some i)).setCursor cpu ((i + 1) % N))

/-- The entries in the order of a round that starts at a position. -/
def rotation (N start : Nat) : List (Fin N) :=
  (List.finRange N).map fun offset : Fin N => ⟨(start + offset) % N, Nat.mod_lt _ (Nat.zero_lt_of_lt offset.isLt)⟩

def startOf (table : ProcessTable N C) (cpu : Fin C) : Nat :=
  match table.current[cpu] with
  | none => table.cursor[cpu]
  | some i => (i + 1) % N

def scheduleNextWhereOn (table : ProcessTable N C) (cpu : Fin C) (eligible : ProcessInfo → Bool) :
    Option ProcessInfo × ProcessTable N C :=
  let start := table.startOf cpu
  let table := ((table.yieldCurrent cpu).setCurrent cpu none).setCursor cpu start
  match (rotation N start).find? fun i => table.entries[i].state == .ready && eligible table.entries[i] with
  | none => (none, table)
  | some i =>
    let table := ((table.setState i .running).setCurrent cpu (some i)).setCursor cpu ((i + 1) % N)
    (some table.entries[i], table)

/-- `block_current_on` and `exit_current_on` take the current task from its CPU. -/
def leaveOn (table : ProcessTable N C) (cpu : Fin C) (state : ProcessState) (status : Option Nat) :
    Option ProcessInfo × ProcessTable N C :=
  match table.current[cpu] with
  | none => (none, table)
  | some i =>
    let table := table.setCurrent cpu none
    if table.entries[i].state ≠ .running then (none, table)
    else
      let info := { table.entries[i] with state, exitStatus := status.getD table.entries[i].exitStatus }
      (some info, { table with entries := table.entries.set i info })

def blockCurrentOn (table : ProcessTable N C) (cpu : Fin C) : Option Nat × ProcessTable N C :=
  ((table.leaveOn cpu .blocked none).1.map ProcessInfo.pid, (table.leaveOn cpu .blocked none).2)

def exitCurrentOn (table : ProcessTable N C) (cpu : Fin C) (status : Nat) : Option ProcessInfo × ProcessTable N C :=
  table.leaveOn cpu .zombie (some status)

def wake (table : ProcessTable N C) (pid : Nat) : Bool × ProcessTable N C :=
  match table.index pid with
  | none => (false, table)
  | some i => if table.entries[i].state ≠ .blocked then (false, table) else (true, table.setState i .ready)

def terminate (table : ProcessTable N C) (pid status : Nat) : Option ProcessInfo × ProcessTable N C :=
  match table.index pid with
  | none => (none, table)
  | some i =>
    if table.current.toList.contains (some i) ||
        !(table.entries[i].state == .ready || table.entries[i].state == .blocked) then (none, table)
    else
      let info := { table.entries[i] with state := .zombie, exitStatus := status }
      (some info, { table with entries := table.entries.set i info })

def wait (table : ProcessTable N C) (parentPid pid : Nat) : WaitResult × ProcessTable N C :=
  match table.index pid with
  | none => (.noChild, table)
  | some i =>
    let entry := table.entries[i]
    if entry.parentPid ≠ parentPid then (.noChild, table)
    else if entry.state ≠ .zombie then (.pending, table)
    else (.reaped entry.pid entry.resource entry.exitStatus, { table with entries := table.entries.set i .empty })

/-- `counts`: live, runnable and finished tasks -/
def counts (table : ProcessTable N C) : Nat × Nat × Nat :=
  (table.entries.toList.countP fun entry => entry.used && entry.state != .zombie,
    table.entries.toList.countP fun entry => entry.state == .ready || entry.state == .running,
    table.entries.toList.countP fun entry => entry.state == .zombie)

/-! ## What a caller sees -/

/-- The state of an identifier; empty if there is no such task. -/
def stateOf (table : ProcessTable N C) (pid : Nat) : ProcessState :=
  match table.index pid with
  | none => .empty
  | some i => table.entries[i].state

/-- Identifiers are given out once. -/
structure Named (table : ProcessTable N C) : Prop where
  unique : ∀ i j : Fin N, table.entries[i].used = true → table.entries[j].used = true →
    table.entries[i].pid = table.entries[j].pid → i = j
  fresh : ∀ i : Fin N, table.entries[i].used = true → 0 < table.entries[i].pid ∧ table.entries[i].pid < table.nextPid
  next : 0 < table.nextPid

/-- A task that is current on a CPU runs there and only there. -/
structure Consistent (table : ProcessTable N C) : Prop extends Named table where
  running : ∀ (cpu : Fin C) (i : Fin N), table.current[cpu] = some i → table.entries[i].state = .running
  single : ∀ (cpu cpu' : Fin C) (i : Fin N), table.current[cpu] = some i → table.current[cpu'] = some i → cpu = cpu'

variable {table table' : ProcessTable N C} {i : Fin N} {cpu : Fin C} {pid q : Nat} {state : ProcessState}

open ProcessInfo

@[grind =] theorem used_iff {info : ProcessInfo} : info.used = true ↔ info.state ≠ .empty := by simp [used]

theorem consistent_new (N C : Nat) : (new N C).Consistent := by
  have hunused : ∀ i : Fin N, (new N C).entries[i].used = false := fun i => by
    simp [new, used, empty]
  refine ⟨⟨fun i j hi => ?_, fun i hi => ?_, Nat.one_pos⟩, fun cpu i hc => ?_, fun cpu cpu' i hc => ?_⟩
  · simp [hunused] at hi
  · simp [hunused] at hi
  · simp [new] at hc
  · simp [new] at hc

theorem index_some (h : table.index pid = some i) : table.entries[i].used = true ∧ table.entries[i].pid = pid := by
  unfold index at h
  split at h
  · cases h
  · simpa using slot?_some h

theorem index_eq_some (h : table.Named) : table.index pid = some i ↔
    table.entries[i].used = true ∧ table.entries[i].pid = pid := by
  refine ⟨index_some, fun ⟨hu, hp⟩ => ?_⟩
  have hpos : pid ≠ 0 := by have := (h.fresh i hu).1; omega
  cases hi : table.index pid with
  | some j =>
    have := index_some hi
    have := h.unique j i
    grind
  | none =>
    rw [index, if_neg hpos, slot?_eq_none] at hi
    grind

theorem stateOf_of_used (h : table.Named) (hu : table.entries[i].used = true) :
    table.stateOf table.entries[i].pid = table.entries[i].state := by
  unfold stateOf
  rw [(index_eq_some h).2 ⟨hu, rfl⟩]

theorem exists_of_stateOf (h : table.stateOf pid ≠ .empty) :
    ∃ i, table.index pid = some i ∧ table.entries[i].state = table.stateOf pid := by
  unfold stateOf at *
  cases hi : table.index pid with
  | none => simp [hi] at h
  | some i => exact ⟨i, rfl, rfl⟩

/-- The state of an identifier is that of the entry with it. -/
theorem stateOf_eq_iff (h : table.Named) (hs : state ≠ .empty) : table.stateOf pid = state ↔
    ∃ i : Fin N, table.entries[i].pid = pid ∧ table.entries[i].state = state := by
  constructor
  · intro heq
    obtain ⟨i, hi, hst⟩ := exists_of_stateOf (heq ▸ hs)
    exact ⟨i, (index_some hi).2, hst.trans heq⟩
  · rintro ⟨i, rfl, rfl⟩
    exact stateOf_of_used h (used_iff.2 hs)

theorem stateOf_congr (h : table.Named) (h' : table'.Named)
    (hsame : ∀ (state : ProcessState), state ≠ .empty →
      ((∃ i : Fin N, table'.entries[i].pid = pid ∧ table'.entries[i].state = state) ↔
        ∃ i : Fin N, table.entries[i].pid = q ∧ table.entries[i].state = state)) :
    table'.stateOf pid = table.stateOf q := by
  by_cases hempty : table.stateOf q = .empty
  · by_contra hne
    have hs : table'.stateOf pid ≠ .empty := fun heq => hne (heq.trans hempty.symm)
    have := (stateOf_eq_iff h hs).2 ((hsame _ hs).1 ((stateOf_eq_iff h' hs).1 rfl))
    exact hs (this.symm.trans hempty)
  · exact (stateOf_eq_iff h' hempty).2 ((hsame _ hempty).2 ((stateOf_eq_iff h hempty).1 rfl))

theorem stateOf_current (h : table.Consistent) (hc : table.current[cpu] = some i) :
    table.stateOf table.entries[i].pid = .running := by
  have hs := h.running cpu i hc
  rw [stateOf_of_used h.toNamed (used_iff.2 (by rw [hs]; decide)), hs]

/-! ## Writing one entry -/

section Write

variable {info : ProcessInfo}

theorem Named.write (h : table.Named) (hu : table.entries[i].used = true) (hpid : info.pid = table.entries[i].pid) :
    Named { table with entries := table.entries.set i info } := by
  refine ⟨fun j k hj hk heq => ?_, fun j hj => ?_, h.next⟩
  · have := h.unique j k
    grind
  · have := h.fresh j
    grind

theorem stateOf_write (info : ProcessInfo) (h : table.Named) (hu : table.entries[i].used = true)
    (hpid : info.pid = table.entries[i].pid) (hs : info.used = true) (q : Nat) :
    stateOf { table with entries := table.entries.set i info } q =
      if q = table.entries[i].pid then info.state else table.stateOf q := by
  have hn := h.write hu hpid
  split
  · rw [stateOf_eq_iff hn (used_iff.1 hs)]
    exact ⟨i, by grind⟩
  · refine stateOf_congr h hn fun state _ => exists_congr fun j => ?_
    grind

/-- Entries that are current keep running. -/
theorem Consistent.write (h : table.Consistent) (hu : table.entries[i].used = true)
    (hpid : info.pid = table.entries[i].pid)
    (hcurrent : ∀ cpu : Fin C, table.current[cpu] = some i → info.state = .running) :
    Consistent { table with entries := table.entries.set i info } := by
  refine ⟨h.toNamed.write hu hpid, fun cpu j hc => ?_, h.single⟩
  have := h.running cpu j hc
  grind

end Write

theorem stateOf_setState (h : table.Named) (hu : table.entries[i].used = true) (hs : state ≠ .empty) (q : Nat) :
    (table.setState i state).stateOf q = if q = table.entries[i].pid then state else table.stateOf q :=
  stateOf_write { table.entries[i] with state := state } h hu rfl (used_iff.2 hs) q

/-! ## Waking and starting tasks -/

theorem wake_true : (table.wake pid).1 = true ↔ table.stateOf pid = .blocked := by
  unfold wake stateOf
  cases table.index pid with
  | none => simp
  | some i =>
    dsimp only
    split <;> simp_all

theorem Consistent.wake (h : table.Consistent) (pid : Nat) : (table.wake pid).2.Consistent := by
  unfold ProcessTable.wake
  cases hi : table.index pid with
  | none => exact h
  | some i =>
    dsimp only
    split
    · exact h
    · refine h.write (index_some hi).1 rfl fun cpu hc => ?_
      have := h.running cpu i hc
      grind

theorem stateOf_wake (h : table.Named) (pid q : Nat) : (table.wake pid).2.stateOf q =
    if q = pid ∧ table.stateOf q = .blocked then .ready else table.stateOf q := by
  unfold wake
  cases hi : table.index pid with
  | none => grind [stateOf]
  | some i =>
    obtain ⟨hu, hp⟩ := index_some hi
    have hst : table.stateOf pid = table.entries[i].state := hp ▸ stateOf_of_used h hu
    have hset := stateOf_setState h hu (show ProcessState.ready ≠ .empty by decide) q
    split <;> grind

variable (h : table.Consistent)
include h

/-- A new task has an identifier that nobody had. -/
theorem spawn_ok {parentPid resource : Nat} (hs : table.spawn parentPid resource = .ok (pid, table')) :
    pid ≠ 0 ∧ table.stateOf pid = .empty ∧ table'.Consistent ∧
      ∀ q, table'.stateOf q = if q = pid then .ready else table.stateOf q := by
  unfold spawn at hs
  split at hs
  · cases hs
  split at hs
  · cases hs
  rename_i i hfree
  split at hs
  · cases hs
  rename_i nextPid hnext
  cases hs
  have hfree : table.entries[i].used = false := by simpa using slot?_some hfree
  have hn : nextPid = table.nextPid + 1 := (checkedAdd_eq_some.1 hnext).2.symm
  -- no entry has the new identifier
  have hnew : ∀ j : Fin N, table.entries[j].used = true → table.entries[j].pid ≠ table.nextPid := fun j hj => by
    have := (h.fresh j hj).2
    omega
  have hempty : table.stateOf table.nextPid = .empty := by
    by_contra hne
    obtain ⟨j, hj, -⟩ := exists_of_stateOf hne
    exact hnew j (index_some hj).1 (index_some hj).2
  have hcon : Consistent { table with
      entries := table.entries.set i ⟨table.nextPid, parentPid, .ready, resource, 0⟩
      nextPid } := by
    refine ⟨⟨fun j k hj hk heq => ?_, fun j hj => ?_, hn ▸ Nat.succ_pos _⟩, fun cpu j hc => ?_, h.single⟩
    · have := h.unique j k
      grind
    · have := h.fresh j
      have := h.next
      grind
    · have := h.running cpu j hc
      grind
  refine ⟨Nat.ne_of_gt h.next, hempty, hcon, fun q => ?_⟩
  split
  · rw [stateOf_eq_iff hcon.toNamed (by decide)]
    exact ⟨i, by grind⟩
  · refine stateOf_congr h.toNamed hcon.toNamed fun state hs => exists_congr fun j => ?_
    grind

/-! ## Leaving a CPU -/

theorem Consistent.clearCurrent (cpu : Fin C) : (table.setCurrent cpu none).Consistent := by
  refine ⟨⟨h.unique, h.fresh, h.next⟩, fun c i hc => ?_, fun c c' i hc hc' => ?_⟩
  · have := h.running c i
    grind
  · have := h.single c c' i
    grind

/-- One task has a new state. -/
structure Became (table : ProcessTable N C) (pid : Nat) (state : ProcessState) (table' : ProcessTable N C) : Prop where
  consistent : table'.Consistent
  nextPid : table'.nextPid = table.nextPid
  states : ∀ q, table'.stateOf q = if q = pid then state else table.stateOf q

theorem leaveOn_some (status : Option Nat) (hs : state ≠ .empty) (hc : table.current[cpu] = some i) :
    ∃ info table', table.leaveOn cpu state status = (some info, table') ∧ info.pid = table.entries[i].pid ∧
      Became table info.pid state table' := by
  have hrun := h.running cpu i hc
  have hu : table.entries[i].used = true := used_iff.2 (by rw [hrun]; decide)
  unfold leaveOn
  rw [hc]
  dsimp only
  rw [if_neg (by rw [not_not]; exact hrun)]
  refine ⟨_, _, rfl, rfl, (h.clearCurrent cpu).write hu rfl fun c hcc => ?_, rfl, fun q => ?_⟩
  · -- the CPU the task ran on was the only one
    have := h.single c cpu i
    grind
  · exact stateOf_write { table.entries[i] with state, exitStatus := status.getD table.entries[i].exitStatus }
      (h.clearCurrent cpu).toNamed hu rfl (used_iff.2 hs) q

omit h

theorem leaveOn_none {status : Option Nat} (hc : table.current[cpu] = none) :
    table.leaveOn cpu state status = (none, table) := by
  unfold leaveOn
  rw [hc]

/-! ## The next task -/

def Runnable (state : ProcessState) : Prop := state = .ready ∨ state = .running

/-- Tasks change between ready and running only. -/
structure Shuffled (table table' : ProcessTable N C) : Prop where
  consistent : table'.Consistent
  nextPid : table'.nextPid = table.nextPid
  states : ∀ q, table'.stateOf q = table.stateOf q ∨ (Runnable (table.stateOf q) ∧ Runnable (table'.stateOf q))

theorem Shuffled.stateOf_iff (h : Shuffled table table') (hs : ¬ Runnable state) :
    table'.stateOf q = state ↔ table.stateOf q = state := by
  rcases h.states q with heq | ⟨h₁, h₂⟩
  · rw [heq]
  · exact ⟨fun heq => absurd (heq ▸ h₂) hs, fun heq => absurd (heq ▸ h₁) hs⟩

theorem not_runnable_blocked : ¬ Runnable .blocked := by simp [Runnable]

include h

theorem shuffled_yield (cpu : Fin C) (position : Nat) :
    Shuffled table (((table.yieldCurrent cpu).setCurrent cpu none).setCursor cpu position) := by
  unfold yieldCurrent
  cases hc : table.current[cpu] with
  | none =>
    have hsame := h.clearCurrent cpu
    exact ⟨⟨⟨hsame.unique, hsame.fresh, hsame.next⟩, hsame.running, hsame.single⟩, rfl, fun q => .inl rfl⟩
  | some i =>
    have hrun := h.running cpu i hc
    have hu : table.entries[i].used = true := used_iff.2 (by rw [hrun]; decide)
    dsimp only
    rw [if_pos hrun]
    have hcon : Consistent ((table.setCurrent cpu none).setState i .ready) := by
      refine (h.clearCurrent cpu).write hu rfl fun c hcc => ?_
      have := h.single c cpu i
      grind
    refine ⟨⟨⟨hcon.unique, hcon.fresh, hcon.next⟩, hcon.running, hcon.single⟩, rfl, fun q => ?_⟩
    have hst : (((table.setState i .ready).setCurrent cpu none).setCursor cpu position).stateOf q =
        if q = table.entries[i].pid then .ready else table.stateOf q :=
      stateOf_setState h.toNamed hu (by decide) q
    have := stateOf_current h hc
    grind [Runnable]

theorem shuffled_start (hr : table.entries[i].state = .ready)
    (cpu : Fin C) (position : Nat) : Shuffled table (((table.setState i .running).setCurrent cpu (some i)).setCursor cpu position) := by
  have hu : table.entries[i].used = true := used_iff.2 (by rw [hr]; decide)
  have hcon : (table.setState i .running).Consistent := h.write hu rfl fun _ _ => rfl
  refine ⟨⟨⟨hcon.unique, hcon.fresh, hcon.next⟩, fun c j hcj => ?_, fun c c' j hcj hcj' => ?_⟩, rfl, fun q => ?_⟩
  · have := h.running c j
    grind
  · have := h.single c c' j
    have := h.running c i
    have := h.running c' i
    grind
  have hst : (((table.setState i .running).setCurrent cpu (some i)).setCursor cpu position).stateOf q =
      if q = table.entries[i].pid then .running else table.stateOf q :=
    stateOf_setState h.toNamed hu (by decide) q
  rw [hst]
  split
  · rename_i hq
    refine .inr ⟨.inl ?_, .inr rfl⟩
    rw [hq, stateOf_of_used h.toNamed hu, hr]
  · exact .inl rfl

omit h

theorem Shuffled.trans {table'' : ProcessTable N C} (h₁ : Shuffled table table') (h₂ : Shuffled table' table'') :
    Shuffled table table'' := by
  refine ⟨h₂.consistent, h₂.nextPid.trans h₁.nextPid, fun q => ?_⟩
  rcases h₁.states q with heq | ⟨ha, hb⟩ <;> rcases h₂.states q with heq' | ⟨hc, hd⟩
  · exact .inl (heq'.trans heq)
  · exact .inr ⟨heq ▸ hc, hd⟩
  · exact .inr ⟨ha, heq' ▸ hb⟩
  · exact .inr ⟨ha, hd⟩

include h

theorem shuffled_schedule (cpu : Fin C) (eligible : ProcessInfo → Bool) :
    Shuffled table (table.scheduleNextWhereOn cpu eligible).2 := by
  have hyield := shuffled_yield h cpu (table.startOf cpu)
  unfold scheduleNextWhereOn
  dsimp only
  split
  · exact hyield
  rename_i i hi
  have hr := List.find?_some hi
  simp only [Bool.and_eq_true, beq_iff_eq] at hr
  exact hyield.trans (shuffled_start hyield.consistent hr.1 cpu _)

theorem activateOn_ok (hr : table.stateOf pid = .ready) (cpu : Fin C) :
    ∃ table', table.activateOn cpu pid = .ok table' ∧ Shuffled table table' ∧ table'.stateOf pid = .running := by
  obtain ⟨i, hi, hst⟩ := exists_of_stateOf (by rw [hr]; decide)
  have hpid := (index_some hi).2
  have hyield := shuffled_yield h cpu 0
  -- the task that is put back is another one
  have hentry : (table.yieldCurrent cpu).entries[i] = table.entries[i] := by
    grind [yieldCurrent]
  have hshuffled : Shuffled table
      ((((table.yieldCurrent cpu).setState i .running).setCurrent cpu (some i)).setCursor cpu ((i + 1) % N)) := by
    have hready : (((table.yieldCurrent cpu).setCurrent cpu none).setCursor cpu 0).entries[i].state = .ready := by grind
    have := hyield.trans (shuffled_start hyield.consistent hready cpu ((i + 1) % N))
    simpa [setCurrent, setCursor, setState] using this
  refine ⟨_, by grind [activateOn], hshuffled, ?_⟩
  rw [stateOf_eq_iff hshuffled.consistent.toNamed (by decide)]
  exact ⟨i, by grind⟩

/-! ## The end of tasks -/

theorem terminate_spec (status : Nat) (hs : table.stateOf pid = .ready ∨ table.stateOf pid = .blocked) :
    ∃ info table', table.terminate pid status = (some info, table') ∧ Became table pid .zombie table' := by
  obtain ⟨i, hi, hst⟩ := exists_of_stateOf (show table.stateOf pid ≠ .empty by grind)
  obtain ⟨hu, hp⟩ := index_some hi
  have hnot : ∀ c : Fin C, table.current[c] ≠ some i := fun c hc => by
    have := h.running c i hc
    grind
  have hcontains : table.current.toList.contains (some i) = false := by
    rw [List.contains_eq_mem, decide_eq_false_iff_not, Slots.mem_toList]
    rintro ⟨c, hc⟩
    exact hnot c hc
  have hterm : table.terminate pid status = (some { table.entries[i] with state := .zombie, exitStatus := status },
      { table with entries := table.entries.set i { table.entries[i] with state := .zombie, exitStatus := status } }) := by
    grind [terminate]
  refine ⟨_, _, hterm, h.write hu rfl fun c hc => absurd hc (hnot c), rfl, fun q => ?_⟩
  have := stateOf_write { table.entries[i] with state := .zombie, exitStatus := status } h.toNamed hu rfl rfl q
  rwa [hp] at this

theorem wait_reaped {parentPid child resource status : Nat}
    (hw : table.wait parentPid pid = (.reaped child resource status, table')) :
    table.stateOf pid = .zombie ∧ Became table pid .empty table' := by
  unfold wait at hw
  cases hi : table.index pid with
  | none => simp [hi] at hw
  | some i =>
    obtain ⟨hu, hp⟩ := index_some hi
    rw [hi] at hw
    dsimp only at hw
    split at hw
    · cases hw
    split at hw
    · cases hw
    rename_i hz
    rw [not_not] at hz
    cases hw
    have hcon : Consistent { table with entries := table.entries.set i .empty } := by
      refine ⟨⟨fun j k hj hk heq => ?_, fun j hj => ?_, h.next⟩, fun c j hc => ?_, h.single⟩
      · have := h.unique j k
        grind [empty]
      · have := h.fresh j
        grind [empty]
      · have := h.running c j hc
        grind
    have hst : table.stateOf pid = .zombie := by rw [← hp, stateOf_of_used h.toNamed hu, hz]
    refine ⟨hst, hcon, rfl, fun q => ?_⟩
    split
    · by_contra hne
      obtain ⟨j, hj, -⟩ := exists_of_stateOf hne
      have := index_some hj
      have := h.unique j i
      grind [empty]
    · refine stateOf_congr h.toNamed hcon.toNamed fun state hs => exists_congr fun j => ?_
      grind [empty]

omit h

/-- Without a child that has ended nothing changes. -/
theorem wait_keeps (table : ProcessTable N C) (parentPid pid : Nat)
    (hw : ∀ child resource status, (table.wait parentPid pid).1 ≠ .reaped child resource status) :
    (table.wait parentPid pid).2 = table := by
  grind [wait]

/-! ## The next identifier -/

theorem nextPid_wake (table : ProcessTable N C) (pid : Nat) : (table.wake pid).2.nextPid = table.nextPid := by
  grind [wake]

theorem nextPid_spawn {parentPid resource : Nat} (h : table.spawn parentPid resource = .ok (pid, table')) :
    pid = table.nextPid ∧ table'.nextPid = pid + 1 ∧ pid + 1 ≤ wordMax := by
  grind [spawn, checkedAdd_eq_some]

/-- The identifier of a task has been given out. -/
theorem Named.lt_nextPid (h : table.Named) (hs : table.stateOf pid ≠ .empty) : pid < table.nextPid := by
  obtain ⟨i, hi, -⟩ := exists_of_stateOf hs
  obtain ⟨hu, rfl⟩ := index_some hi
  exact (h.fresh i hu).2

end ProcessTable

end MakOS.Process
