/-
The process table over whole runs (`crates/process-table`): in every state that calls of any CPUs lead to, a task runs
exactly if it is the current one of one CPU, identifiers are given out once, and a finished task stays until its
parent waits for it. A CPU's round starts after the entry it ran last, so a task that stays ready and eligible moves
nearer to the start of the round with every call that takes another one. `activate_on` starts the round of its CPU
elsewhere, and calls of it can make a ready task wait forever.
-/
import MakOS.Data.Guarded
import MakOS.Process.Table

namespace MakOS.Process.ProcessTable

open MakOS.Data

variable {N C : Nat}

def replaceCurrentResourceOn (table : ProcessTable N C) (cpu : Fin C) (resource : Nat) : Option Nat × ProcessTable N C :=
  if resource = 0 then (none, table)
  else match table.current[cpu] with
    | none => (none, table)
    | some i =>
      if table.entries[i].state ≠ .running then (none, table)
      else (some table.entries[i].resource,
        { table with entries := table.entries.set i { table.entries[i] with resource := resource } })

inductive Op (C : Nat)
  | spawn (parentPid resource : Nat)
  | activate (cpu : Fin C) (pid : Nat)
  | schedule (cpu : Fin C) (eligible : ProcessInfo → Bool)
  | block (cpu : Fin C)
  | wake (pid : Nat)
  | exit (cpu : Fin C) (status : Nat)
  | terminate (pid status : Nat)
  | wait (parentPid pid : Nat)
  | replace (cpu : Fin C) (resource : Nat)

def step (table : ProcessTable N C) : Op C → ProcessTable N C
  | .spawn parentPid resource => match table.spawn parentPid resource with
    | .ok (_, table) => table
    | .error _ => table
  | .activate cpu pid => match table.activateOn cpu pid with
    | .ok table => table
    | .error _ => table
  | .schedule cpu eligible => (table.scheduleNextWhereOn cpu eligible).2
  | .block cpu => (table.blockCurrentOn cpu).2
  | .wake pid => (table.wake pid).2
  | .exit cpu status => (table.exitCurrentOn cpu status).2
  | .terminate pid status => (table.terminate pid status).2
  | .wait parentPid pid => (table.wait parentPid pid).2
  | .replace cpu resource => (table.replaceCurrentResourceOn cpu resource).2

def run (N : Nat) (ops : List (Op C)) : ProcessTable N C := ops.foldl step (new N C)

/-- A running task is the current one of a CPU, whose round goes on after its entry. -/
structure Scheduled (table : ProcessTable N C) : Prop extends Consistent table where
  housed : ∀ i : Fin N, table.entries[i].state = .running → ∃ cpu : Fin C, table.current[cpu] = some i
  aligned : ∀ (cpu : Fin C) (i : Fin N), table.current[cpu] = some i → table.cursor[cpu] = (i + 1) % N

def Op.activates (cpu : Fin C) : Op C → Bool
  | .activate c _ => c == cpu
  | _ => false

def Op.schedules (cpu : Fin C) : Op C → Bool
  | .schedule c _ => c == cpu
  | _ => false

/-- What a call does to an entry: a finished task stays until its parent waits for it, another one keeps its
identifier, and an identifier in the entry was there before or is new. -/
structure Kept (op : Op C) (nextPid : Nat) (before after : ProcessInfo) : Prop where
  finished : before.state = .zombie → op ≠ .wait before.parentPid before.pid → after = before
  living : before.used = true → before.state ≠ .zombie → after.used = true ∧ after.pid = before.pid
  old : after.used = true → (before.used = true ∧ after.pid = before.pid) ∨ after.pid = nextPid

/-- What a call does -/
structure Stepped (table : ProcessTable N C) (op : Op C) (table' : ProcessTable N C) : Prop where
  scheduled : table'.Scheduled
  kept : ∀ i : Fin N, Kept op table.nextPid table.entries[i] table'.entries[i]
  next : table.nextPid ≤ table'.nextPid
  cursor : ∀ cpu : Fin C, op.activates cpu = false → op.schedules cpu = false → table'.cursor[cpu] = table.cursor[cpu]

variable {table table' : ProcessTable N C} {i : Fin N} {cpu : Fin C} {pid : Nat} {op : Op C}

variable (h : table.Scheduled)
include h

theorem Stepped.refl (op : Op C) : Stepped table op table :=
  ⟨h, fun _ => ⟨fun _ _ => rfl, fun hu _ => ⟨hu, rfl⟩, fun hu => .inl ⟨hu, rfl⟩⟩, le_rfl, fun _ _ _ => rfl⟩

/-- A task that has not finished is written, and does not start or stop running. -/
theorem Stepped.write (info : ProcessInfo) (hu : table.entries[i].used = true)
    (hz : table.entries[i].state ≠ .zombie) (hpid : info.pid = table.entries[i].pid) (hused : info.used = true)
    (hrun : info.state = .running ↔ table.entries[i].state = .running) (op : Op C) :
    Stepped table op { table with entries := table.entries.set i info } := by
  have hcon := h.toConsistent.write hu hpid fun cpu hc => hrun.2 (h.running cpu i hc)
  refine ⟨⟨hcon, fun j hj => h.housed j (by grind), h.aligned⟩, fun j => ?_, le_rfl, fun _ _ _ => rfl⟩
  constructor <;> grind

theorem Stepped.leave (cpu : Fin C) {state : ProcessState} (hs : state ≠ .empty)
    (hrun : state ≠ .running) (status : Option Nat) (op : Op C) : Stepped table op (table.leaveOn cpu state status).2 := by
  cases hc : table.current[cpu] with
  | none =>
    rw [leaveOn_none hc]
    exact .refl h op
  | some i =>
    obtain ⟨_, table', hleave, -, hbecame⟩ := leaveOn_some h.toConsistent status hs hc
    rw [hleave]
    refine ⟨⟨hbecame.consistent, fun j hj => ?_, fun c j hcj => ?_⟩, fun j => ?_, hbecame.nextPid.ge, fun _ _ _ => by grind [leaveOn]⟩
    · obtain ⟨c, hcj⟩ := h.housed j (by grind [leaveOn])
      exact ⟨c, by grind [leaveOn]⟩
    · have := h.aligned c j
      grind [leaveOn]
    · constructor <;> grind [leaveOn]

/-- No task runs on a CPU, and its round starts where it would have gone on. -/
@[grind =] def yielded (table : ProcessTable N C) (cpu : Fin C) : ProcessTable N C :=
  ((table.yieldCurrent cpu).setCurrent cpu none).setCursor cpu (table.startOf cpu)

@[grind =] def started (table : ProcessTable N C) (cpu : Fin C) (i : Fin N) : ProcessTable N C :=
  ((table.setState i .running).setCurrent cpu (some i)).setCursor cpu ((i + 1) % N)

theorem scheduled_yielded (cpu : Fin C) : (table.yielded cpu).Scheduled := by
  refine ⟨(shuffled_yield h.toConsistent cpu _).consistent, fun i hi => ?_, fun c i hc => ?_⟩
  · obtain ⟨c, hc⟩ := h.housed i (by grind [yieldCurrent])
    exact ⟨c, by grind [yieldCurrent]⟩
  · have := h.aligned c i
    grind [yieldCurrent]

theorem scheduled_started (hr : (table.yielded cpu).entries[i].state = .ready) :
    ((table.yielded cpu).started cpu i).Scheduled := by
  have hyielded := scheduled_yielded h cpu
  refine ⟨(shuffled_start hyielded.toConsistent hr cpu _).consistent, fun j hj => ?_, fun c j hc => ?_⟩
  · by_cases hji : j = i
    · exact ⟨cpu, by grind⟩
    · obtain ⟨c, hc⟩ := hyielded.housed j (by grind)
      exact ⟨c, by grind⟩
  · have := hyielded.aligned c j
    grind

omit h

/-- The test of `schedule_next_where_on` -/
def takes (table : ProcessTable N C) (cpu : Fin C) (eligible : ProcessInfo → Bool) (i : Fin N) : Bool :=
  (table.yielded cpu).entries[i].state == .ready && eligible (table.yielded cpu).entries[i]

theorem schedule_eq (table : ProcessTable N C) (cpu : Fin C) (eligible : ProcessInfo → Bool) :
    table.scheduleNextWhereOn cpu eligible =
      match (rotation N (table.startOf cpu)).find? (table.takes cpu eligible) with
      | none => (none, table.yielded cpu)
      | some i => (some ((table.yielded cpu).started cpu i).entries[i], (table.yielded cpu).started cpu i) := rfl

include h

/-- The CPU's round goes on with no task or with a ready one. -/
theorem Stepped.turn (hop : op.activates cpu = true ∨ op.schedules cpu = true)
    (hcases : table' = table.yielded cpu ∨ ∃ i : Fin N, (table.yielded cpu).entries[i].state = .ready ∧
      table' = (table.yielded cpu).started cpu i) : Stepped table op table' := by
  refine ⟨?_, fun i => ?_, ?_, fun c ha hs => ?_⟩
  · obtain rfl | ⟨i, hr, rfl⟩ := hcases
    · exact scheduled_yielded h cpu
    · exact scheduled_started h hr
  · constructor <;> grind [yieldCurrent]
  · grind [yieldCurrent]
  · grind [yieldCurrent]

theorem step_stepped (op : Op C) : Stepped table op (table.step op) := by
  cases op with
  | spawn parentPid resource =>
    simp only [step]
    split
    · rename_i pid table' hs
      have hfree : ∀ i : Fin N, slot? (fun entry => !entry.used) table.entries = some i → table.entries[i].used = false :=
        fun i hi => by simpa using slot?_some hi
      have hcon := (spawn_ok h.toConsistent hs).2.2.1
      refine ⟨⟨hcon, fun i hi => ?_, fun c i hc => ?_⟩, fun i => ?_, ?_, fun _ _ _ => by grind [spawn]⟩
      · have := h.housed i
        grind [spawn]
      · have := h.aligned c i
        grind [spawn]
      · constructor <;> grind [spawn]
      · have := nextPid_spawn hs
        omega
    · exact .refl h _
  | activate cpu pid =>
    simp only [step, activateOn]
    split
    · rename_i table' hok
      split at hok
      · cases hok
      rename_i i hi
      split at hok
      · cases hok
      cases hok
      refine .turn h (.inl (beq_self_eq_true cpu)) (.inr ⟨i, by grind [yieldCurrent], ?_⟩)
      simp [started, yielded, setCurrent, setCursor, setState]
    · exact .refl h _
  | schedule cpu eligible =>
    refine .turn h (.inr (beq_self_eq_true cpu)) ?_
    simp only [step, schedule_eq]
    split
    · exact .inl rfl
    rename_i i hi
    have hr := List.find?_some hi
    simp only [takes, Bool.and_eq_true, beq_iff_eq] at hr
    exact .inr ⟨i, hr.1, rfl⟩
  | block cpu => exact .leave h cpu (by decide) (by decide) none _
  | wake pid =>
    simp only [step, wake]
    split
    · exact .refl h _
    split
    · exact .refl h _
    · rename_i i hi hblocked
      exact .write h { table.entries[i] with state := .ready } (index_some hi).1 (by grind) rfl rfl (by grind) _
  | exit cpu status => exact .leave h cpu (by decide) (by decide) (some status) _
  | terminate pid status =>
    simp only [step, terminate]
    split
    · exact .refl h _
    split
    · exact .refl h _
    · rename_i i hi hended
      exact .write h { table.entries[i] with state := .zombie, exitStatus := status } (index_some hi).1 (by grind) rfl rfl
        (by grind) _
  | wait parentPid pid =>
    simp only [step]
    cases hw : (table.wait parentPid pid).1 with
    | reaped child resource status =>
      have hreaped := (wait_reaped h.toConsistent (Prod.ext hw rfl)).2
      have hindex := @index_some N C table
      refine ⟨⟨hreaped.consistent, fun i hi => ?_, fun c i hc => ?_⟩, fun i => ?_, hreaped.nextPid.ge, fun _ _ _ => by grind [wait]⟩
      · have := h.housed i
        grind [wait, ProcessInfo.empty]
      · have := h.aligned c i
        grind [wait]
      · constructor <;> grind [wait, ProcessInfo.empty]
    | _ =>
      rw [wait_keeps table parentPid pid (by simp [hw])]
      exact .refl h _
  | replace cpu resource =>
    simp only [step, replaceCurrentResourceOn]
    split
    · exact .refl h _
    split
    · exact .refl h _
    split
    · exact .refl h _
    · rename_i i hi hrun
      exact .write h { table.entries[i] with resource := resource } (by grind) (by grind) rfl (by grind) .rfl _

theorem startOf_eq (cpu : Fin C) : table.startOf cpu = table.cursor[cpu] := by
  unfold startOf
  split
  · rfl
  · exact (h.aligned cpu _ ‹_›).symm

omit h

theorem scheduled_new (N C : Nat) : (new N C).Scheduled :=
  ⟨consistent_new N C, fun i hi => by simp [new, ProcessInfo.empty] at hi, fun cpu i hc => by simp [new] at hc⟩

include h

theorem Scheduled.foldl (ops : List (Op C)) : (ops.foldl ProcessTable.step table).Scheduled := by
  induction ops generalizing table with
  | nil => exact h
  | cons op rest ih => exact ih (step_stepped h op).scheduled

theorem nextPid_foldl (ops : List (Op C)) : table.nextPid ≤ (ops.foldl step table).nextPid := by
  induction ops generalizing table with
  | nil => exact le_rfl
  | cons op rest ih => exact (step_stepped h op).next.trans (ih (step_stepped h op).scheduled)

/-- An identifier that is no longer used is not used again. -/
theorem index_foldl (hlt : pid < table.nextPid) (hnone : table.index pid = none) (ops : List (Op C)) :
    (ops.foldl step table).index pid = none := by
  induction ops generalizing table with
  | nil => exact hnone
  | cons op rest ih =>
    have hstep := step_stepped h op
    refine ih hstep.scheduled (hlt.trans_le hstep.next) ?_
    rw [Option.eq_none_iff_forall_ne_some]
    intro i hi
    obtain ⟨hu, hpid⟩ := index_some hi
    obtain ⟨hold, hsame⟩ | hnew := (hstep.kept i).old hu
    · rw [(index_eq_some h.toNamed).2 ⟨hold, hsame.symm.trans hpid⟩] at hnone
      cases hnone
    · omega

omit h

/-! ## The round of a CPU -/

/-- A call of the CPU's round would take the task. -/
def Op.accepts (cpu : Fin C) (pid : Nat) (table : ProcessTable N C) : Op C → Bool
  | .schedule c eligible => c != cpu || (table.get pid).all eligible
  | _ => true

def Op.selects (cpu : Fin C) (table : ProcessTable N C) : Op C → Option Nat
  | .schedule c eligible => if c = cpu then (table.scheduleNextWhereOn c eligible).1.map ProcessInfo.pid else none
  | _ => none

def selected (cpu : Fin C) : ProcessTable N C → List (Op C) → List Nat
  | _, [] => []
  | table, op :: rest => (op.selects cpu table).toList ++ selected cpu (table.step op) rest

/-- The task is ready, and the CPU's round accepts it. -/
abbrev Waiting (cpu : Fin C) (pid : Nat) (table : ProcessTable N C) (op : Op C) : Prop :=
  table.stateOf pid = .ready ∧ op.accepts cpu pid table = true

/-- A search in the round takes an entry that passes, or one that is nearer to the start. -/
theorem rotation_find {p : Fin N → Bool} {start offset : Nat} (hlt : offset < N) (hi : i.val = (start + offset) % N)
    (hp : p i = true) : ∃ (j : Fin N) (a : Nat), (rotation N start).find? p = some j ∧ a ≤ offset ∧
      j.val = (start + a) % N := by
  have hget : ∀ k (hk : k < (rotation N start).length), ((rotation N start)[k]).val = (start + k) % N := by
    simp [rotation]
  have hlen : offset < (rotation N start).length := by simpa [rotation] using hlt
  have hmem : (rotation N start)[offset] = i := Fin.ext ((hget offset hlen).trans hi.symm)
  obtain ⟨j, hj⟩ := Option.isSome_iff_exists.1 (List.find?_isSome.2 ⟨i, hmem ▸ List.getElem_mem hlen, hp⟩)
  obtain ⟨-, a, ha, hja, hbefore⟩ := List.find?_eq_some_iff_getElem.1 hj
  refine ⟨j, a, hj, ?_, hja ▸ hget a ha⟩
  by_contra hlt
  have hnot := hbefore offset (by omega)
  rw [hmem, hp] at hnot
  cases hnot

include h

/-- A call of the round takes the task, or the round starts nearer to it. -/
theorem schedule_nearer (hi : table.index pid = some i) {eligible : ProcessInfo → Bool}
    (hwaiting : Waiting cpu pid table (.schedule cpu eligible)) {offset : Nat} (hlt : offset < N)
    (hoffset : i.val = (table.cursor[cpu] + offset) % N) :
    (Op.schedule cpu eligible).selects cpu table = some pid ∨ ∃ nearer < offset,
      i.val = ((table.step (.schedule cpu eligible)).cursor[cpu] + nearer) % N := by
  obtain ⟨hready, haccepts⟩ := hwaiting
  have hpid := (index_some hi).2
  have hstate : table.entries[i].state = .ready := by simpa only [stateOf, hi] using hready
  have heligible : eligible table.entries[i] = true := by simpa [Op.accepts, get, hi] using haccepts
  -- the task that is put back is another one
  have hentry : (table.yielded cpu).entries[i] = table.entries[i] := by
    grind [yieldCurrent]
  rw [← startOf_eq h] at hoffset
  obtain ⟨j, a, hfind, hle, hj⟩ := rotation_find hlt hoffset
    (show table.takes cpu eligible i = true by simp [takes, hentry, hstate, heligible])
  have htaken := schedule_eq table cpu eligible
  rw [hfind] at htaken
  by_cases hji : j = i
  · rw [Op.selects, htaken]
    grind
  have hne : a ≠ offset := by
    rintro rfl
    exact hji (Fin.ext (hj.trans hoffset.symm))
  refine .inr ⟨offset - a - 1, by omega, ?_⟩
  have hcursor : (table.step (.schedule cpu eligible)).cursor[cpu] = (j + 1) % N := by
    grind [ProcessTable.step]
  rw [hcursor, hoffset, hj, Nat.mod_add_mod, Nat.add_assoc, Nat.mod_add_mod]
  congr 1
  omega

theorem selected_of_waiting {offset : Nat} {later : List (Op C)} (hi : table.index pid = some i)
    (hlt : offset < N) (hoffset : i.val = (table.cursor[cpu] + offset) % N)
    (hwaiting : Guarded step (Waiting cpu pid) table later) (hactivates : ∀ op ∈ later, op.activates cpu = false)
    (hcount : offset < later.countP (Op.schedules cpu)) : pid ∈ selected cpu table later := by
  induction later generalizing table offset with
  | nil => cases hcount
  | cons op rest ih =>
    obtain ⟨hfirst, hrest⟩ := hwaiting
    rw [List.forall_mem_cons] at hactivates
    have hstep := step_stepped h op
    have hstate : table.entries[i].state = .ready := by simpa only [stateOf, hi] using hfirst.1
    obtain ⟨hu, hpid⟩ := index_some hi
    obtain ⟨hused, hsame⟩ := (hstep.kept i).living hu (by rw [hstate]; decide)
    have hstays := (index_eq_some hstep.scheduled.toNamed).2 ⟨hused, hsame.trans hpid⟩
    rw [selected, List.mem_append]
    rw [List.countP_cons] at hcount
    cases hs : op.schedules cpu with
    | false =>
      rw [← hstep.cursor cpu hactivates.1 hs] at hoffset
      rw [hs] at hcount
      exact .inr (ih hstep.scheduled hstays hlt hoffset hrest hactivates.2 hcount)
    | true =>
      obtain ⟨eligible, rfl⟩ : ∃ eligible, op = .schedule cpu eligible := by
        cases op <;> simp_all [Op.schedules]
      obtain htaken | ⟨nearer, hnearer, hoffset⟩ := schedule_nearer h hi hfirst hlt hoffset
      · exact .inl (by simp [htaken])
      · rw [hs, if_pos rfl] at hcount
        exact .inr (ih hstep.scheduled hstays (hnearer.trans hlt) hoffset hrest hactivates.2 (by omega))

omit h

theorem exists_offset (i : Fin N) (start : Nat) : ∃ offset < N, i.val = (start + offset) % N := by
  have hpos := Nat.zero_lt_of_lt i.isLt
  refine ⟨(i.val + (N - start % N)) % N, Nat.mod_lt _ hpos, ?_⟩
  have hstart := Nat.mod_lt start hpos
  rw [Nat.add_mod_mod, ← Nat.mod_add_mod, show start % N + (i.val + (N - start % N)) = i.val + N by omega,
    Nat.add_mod_right, Nat.mod_eq_of_lt i.isLt]

/-! ## Runs -/

theorem run_append (N : Nat) (ops later : List (Op C)) : run N (ops ++ later) = later.foldl step (run N ops) :=
  List.foldl_append

theorem get_eq_some {info : ProcessInfo} (h : table.Named) : table.get pid = some info ↔
    ∃ i : Fin N, table.entries[i] = info ∧ info.used = true ∧ info.pid = pid := by
  rw [get, Option.map_eq_some_iff]
  constructor
  · rintro ⟨i, hi, rfl⟩
    exact ⟨i, rfl, index_some hi⟩
  · rintro ⟨i, rfl, hi⟩
    exact ⟨i, (index_eq_some h).2 hi, rfl⟩

/-- After any calls of any CPUs a task runs exactly if it is the current one of one CPU; no identifier is given out
twice; a finished task stays as it is until its parent waits for it, which reaps it for good, and no other call reaps
one; and a task that stays ready, and eligible for the calls of a CPU's round, is taken by one of any `N` of them
between which `activate_on` is not called for that CPU. -/
theorem tasks_scheduled (N : Nat) (ops : List (Op C)) :
    (∀ i : Fin N, (run N ops).entries[i].state = .running ↔ ∃! cpu : Fin C, (run N ops).current[cpu] = some i) ∧
    (∀ parentPid resource pid table parentPid' resource' pid' table' later,
      (run N ops).spawn parentPid resource = .ok (pid, table) →
      (run N (ops ++ .spawn parentPid resource :: later)).spawn parentPid' resource' = .ok (pid', table') → pid' ≠ pid) ∧
    (∀ pid info, (run N ops).get pid = some info → info.state = .zombie →
      (∀ op, op ≠ .wait info.parentPid pid → (run N (ops ++ [op])).get pid = some info) ∧
      ((run N ops).wait info.parentPid pid).1 = .reaped pid info.resource info.exitStatus ∧
      ∀ later, (run N (ops ++ .wait info.parentPid pid :: later)).get pid = none) ∧
    (∀ parentPid pid child resource status, ((run N ops).wait parentPid pid).1 = .reaped child resource status →
      ∃ info, (run N ops).get pid = some info ∧ info.state = .zombie ∧ info.parentPid = parentPid) ∧
    ∀ cpu pid later, (run N ops).stateOf pid = .ready → Guarded step (Waiting cpu pid) (run N ops) later →
      (∀ op ∈ later, op.activates cpu = false) → N ≤ later.countP (Op.schedules cpu) →
      pid ∈ selected cpu (run N ops) later := by
  have h : (run N ops).Scheduled := (scheduled_new N C).foldl ops
  generalize htable : run N ops = table at h
  simp only [run_append, htable]
  refine ⟨fun i => ?_, ?_, fun pid info hget hz => ?_, ?_, ?_⟩
  · constructor
    · intro hi
      obtain ⟨cpu, hc⟩ := h.housed i hi
      exact ⟨cpu, hc, fun c hc' => h.single c cpu i hc' hc⟩
    · rintro ⟨cpu, hc, -⟩
      exact h.running cpu i hc
  · intro parentPid resource pid table₁ parentPid' resource' pid' table₂ later hfirst hlater
    have hpid := nextPid_spawn hfirst
    have hpid' := nextPid_spawn hlater
    have hgrow := nextPid_foldl (step_stepped h (.spawn parentPid resource)).scheduled later
    simp only [step, hfirst] at hgrow
    simp only [List.foldl_cons, step, hfirst] at hpid'
    omega
  · obtain ⟨i, rfl, hi⟩ := (get_eq_some h.toNamed).1 hget
    have hindex := (index_eq_some h.toNamed).2 hi
    have hwait : table.wait table.entries[i].parentPid pid = (.reaped pid table.entries[i].resource
        table.entries[i].exitStatus, { table with entries := table.entries.set i .empty }) := by
      simp [wait, hindex, ne_eq, hz, hi.2]
    refine ⟨fun op hop => ?_, by rw [hwait], fun later => ?_⟩
    · have hstep := step_stepped h op
      exact (get_eq_some hstep.scheduled.toNamed).2 ⟨i, (hstep.kept i).finished hz (hi.2 ▸ hop), hi⟩
    have hstep := step_stepped h (.wait table.entries[i].parentPid pid)
    have hgone := (wait_reaped h.toConsistent hwait).2.states pid
    have hnone : (table.step (.wait table.entries[i].parentPid pid)).index pid = none := by
      rw [Option.eq_none_iff_forall_ne_some]
      intro j hj
      have hused := (index_some hj).1
      grind [step, stateOf]
    have hlt : pid < table.nextPid := hi.2 ▸ (h.fresh i hi.1).2
    rw [List.foldl_cons, get, index_foldl hstep.scheduled (hlt.trans_le hstep.next) hnone, Option.map_none]
  · grind [wait, get]
  · intro cpu pid later hready hwaiting hactivates hcount
    obtain ⟨i, hi, -⟩ := exists_of_stateOf (by rw [hready]; decide)
    obtain ⟨offset, hlt, hoffset⟩ := exists_offset i table.cursor[cpu]
    exact selected_of_waiting h hi hlt hoffset hwaiting hactivates (hlt.trans_le hcount)

def onlyCpu : Fin 1 := ⟨0, Nat.one_pos⟩

/-- Three tasks are ready. After each call of the round the last of them is activated, so the round starts at the
first one again and never reaches the second. -/
def starving : List (Op 1) :=
  (List.replicate 3 [.schedule onlyCpu fun _ => true, .activate onlyCpu 3]).flatten

theorem activations_starve :
    (run 3 (List.replicate 3 (.spawn 0 1 : Op 1))).stateOf 2 = .ready ∧
      Guarded step (Waiting onlyCpu 2) (run 3 (List.replicate 3 (.spawn 0 1))) starving ∧
      3 ≤ starving.countP (Op.schedules onlyCpu) ∧
      2 ∉ selected onlyCpu (run 3 (List.replicate 3 (.spawn 0 1))) starving := by
  decide +kernel

end MakOS.Process.ProcessTable
