/-
When `SIGKILL` ends a process. Once sent it stays pending until a task takes it, and it cannot be blocked, caught or
ignored. But a task takes it only at a delivery that finds it outside a handler, and only after the signals that come
before it: those sent to the task itself, and those with lower numbers.
-/
import MakOS.Tty.Handlers

namespace MakOS.Tty

open Data Data.Act TaskSignalState

variable {s : State} {i : Fin maxProcesses} {j : Fin maxTasks} {event : Event}

/-! ## What stays pending -/

/-- The same task, for which `SIGKILL` is still pending if it was -/
structure TaskSignalState.Keeps (task task' : TaskSignalState) : Prop where
  tid : task'.tid = task.tid
  groupPid : task'.groupPid = task.groupPid
  kill : has task.pending sigkill = true → has task'.pending sigkill = true

theorem TaskSignalState.Keeps.of_eq {task task' : TaskSignalState} (h : task' = task) : task.Keeps task' := by
  subst h
  exact ⟨rfl, rfl, id⟩

theorem step_own_keeps (hs : s.Sound) {tid : Nat} (hactor : event.actor = some tid) (h : s.taskIndex tid = some j)
    (hdeliver : ∀ pid frame, event ≠ .deliverPending pid tid frame) : s.tasks[j].Keeps (step s event).tasks[j] := by
  cases event with
  | execProcess pid =>
    cases hactor
    rw [step, execProcess_at h]
    split <;> exact ⟨rfl, rfl, id⟩
  | signalMask _ how replacement =>
    cases hactor
    rw [step, signalMask, withTask_at h]
    obtain ⟨blocked, heq, -⟩ := s.tasks[j].changeMask_left how replacement
    rw [heq]
    exact ⟨rfl, rfl, id⟩
  | beginWaitMask _ replacement =>
    cases hactor
    cases replacement with
    | none => exact .of_eq rfl
    | some mask =>
      rw [step, beginWaitMask, withTask_at h, beginWait_left]
      split <;> exact ⟨rfl, rfl, id⟩
  | finishWaitMask _ =>
    cases hactor
    rw [step, finishWaitMask_at h, finishWait]
    split <;> exact ⟨rfl, rfl, id⟩
  | waitInterrupted pid _ =>
    cases hactor
    rw [step, waitInterrupted_at h]
    cases s.processIndex pid with
    | none => exact .of_eq rfl
    | some i =>
      have hnarrowed := (s.pair i j).settled_narrowed
      rw [Option.elim, hnarrowed.task]
      exact ⟨rfl, rfl, (hnarrowed.kept sigkill true (by decide) (hs.processes i).ignores_kill).trans⟩
  | deliverPending pid _ frame =>
    cases hactor
    exact absurd rfl (hdeliver pid frame)
  | signalReturn _ =>
    cases hactor
    rw [step, signalReturn, withTask_at h, leaveHandler_left]
    split <;> exact ⟨rfl, rfl, id⟩
  | _ => cases hactor

theorem Pair.Delivered.tid {pair : Pair} {frame : Frame} {result : Pair × Delivery × Frame}
    (h : pair.Delivered frame result) : result.1.2.tid = pair.2.tid ∧ result.1.2.groupPid = pair.2.groupPid := by
  have hleave : ∀ task : TaskSignalState, task.leaveWait.tid = task.tid ∧ task.leaveWait.groupPid = task.groupPid := by
    intro task
    unfold leaveWait
    split <;> exact ⟨rfl, rfl⟩
  cases h with
  | nothing _ => exact ⟨rfl, rfl⟩
  | acted _ _ | caught _ _ => exact hleave _

theorem deliverPending_tid {tid : Nat} (h : s.taskIndex tid = some j) (pid : Nat) (frame : Frame) :
    (deliverPending pid tid frame s).2.tasks[j].tid = s.tasks[j].tid ∧
      (deliverPending pid tid frame s).2.tasks[j].groupPid = s.tasks[j].groupPid := by
  rw [deliverPending_at h]
  cases s.processIndex pid with
  | none => exact ⟨rfl, rfl⟩
  | some i =>
    split
    · exact ⟨rfl, rfl⟩
    · exact ((s.pair i j).deliver_cases frame).tid

/-- The number of an entry: it stays, or the entry is given up, or it gets a new task. -/
theorem step_number (hs : s.Sound) (event : Event) (j : Fin maxTasks) :
    (step s event).tasks[j].tid = s.tasks[j].tid ∨ (step s event).tasks[j].tid = 0 ∨
      Started s event j (step s event).tasks[j] := by
  by_cases hopen : event.Closes s j
  · rw [step_closed hopen]
    exact .inr (.inl rfl)
  by_cases hactor : ∃ tid, event.actor = some tid ∧ s.taskIndex tid = some j
  · obtain ⟨tid, hactor, hj⟩ := hactor
    by_cases hdeliver : ∃ pid frame, event = .deliverPending pid tid frame
    · obtain ⟨pid, frame, rfl⟩ := hdeliver
      exact .inl (deliverPending_tid hj pid frame).1
    · have hkeeps := step_own_keeps hs hactor hj fun pid frame heq => hdeliver ⟨pid, frame, heq⟩
      exact .inl hkeeps.tid
  rcases step_other (fun tid htid hj => hactor ⟨tid, htid, hj⟩) hopen with ⟨bits, hposted⟩ | hstarted
  · rw [hposted]
    exact .inl rfl
  · exact .inr (.inr hstarted)

/-- The event does not deliver to the process or to the task, and it gives neither of their numbers away. -/
def Event.Spares (pid : Nat) (task : Option Nat) : Event → Prop
  | .deliverPending pid' tid' _ => pid' ≠ pid ∧ task ≠ some tid'
  | .closeProcess pid' => pid' ≠ pid
  | .closeThread tid' => task ≠ some tid'
  | .forkProcess _ childPid _ => childPid ≠ pid ∧ task ≠ some childPid
  | _ => True

/-- `SIGKILL` is pending for the process. -/
def KillForProcess (s : State) (pid : Nat) : Prop :=
  ∃ i, s.processIndex pid = some i ∧ has s.processes[i].pending sigkill = true

/-- `SIGKILL` is pending for a task of the process. -/
def KillForTask (s : State) (pid tid : Nat) : Prop :=
  ∃ j, s.taskIndex tid = some j ∧ s.tasks[j].groupPid = pid ∧ has s.tasks[j].pending sigkill = true

variable {pid : Nat}

theorem processIndex_stable {s' : State} (h : s.processIndex pid = some i) (hi : s'.processes[i].pid = pid)
    (hothers : ∀ k : Fin maxProcesses, s'.processes[k].pid = pid → s.processes[k].pid = pid) :
    s'.processIndex pid = some i := by
  obtain ⟨-, hbefore⟩ := position_eq_some.1 h
  refine position_eq_some.2 ⟨beq_iff_eq.2 hi, fun k hk => ?_⟩
  have hne := hbefore k hk
  rw [beq_eq_false_iff_ne] at hne ⊢
  exact fun heq => hne (hothers k heq)

theorem KillForProcess.step (hs : s.Sound) {pid : Nat} {task : Option Nat} (hpid : pid ≠ 0) (h : KillForProcess s pid)
    (hspares : event.Spares pid task) : KillForProcess (Tty.step s event) pid := by
  obtain ⟨i, hi, hkill⟩ := h
  have hpidi := processIndex_some hi
  have hothers : ∀ k : Fin maxProcesses, (Tty.step s event).processes[k].pid = pid → s.processes[k].pid = pid := by
    intro k hk
    cases step_process hs event k with
    | evolved hevolved _ | delivered _ _ hevolved => rw [← hevolved.pid, hk]
    | begun hbegun =>
      rcases hbegun.number with hzero | hfresh | ⟨parentPid, parentTid, hfork⟩
      · exact absurd (hk.symm.trans hzero) hpid
      · exact absurd (hpidi.trans hk.symm) (hfresh i)
      · rw [hk] at hfork
        subst hfork
        exact absurd rfl hspares.1
    | closed _ _ hzero _ => exact absurd (hk.symm.trans hzero) hpid
  cases step_process hs event i with
  | evolved hevolved hkept =>
    exact ⟨i, processIndex_stable hi (hevolved.pid.trans hpidi) hothers, hkept hkill⟩
  | delivered hevent hindex _ =>
    subst hevent
    exact absurd ((processIndex_some hindex).symm.trans hpidi) hspares.1
  | begun hbegun => exact absurd (hpidi.symm.trans hbegun.free) hpid
  | closed hevent hindex _ _ =>
    subst hevent
    exact absurd ((processIndex_some hindex).symm.trans hpidi) hspares

theorem KillForTask.step (hs : s.Sound) {pid tid : Nat} (htid : tid ≠ 0) (h : KillForTask s pid tid)
    (hspares : event.Spares pid (some tid)) : KillForTask (Tty.step s event) pid tid := by
  obtain ⟨j, hj, hgroup, hkill⟩ := h
  have htidj := taskIndex_some hj
  have hothers : ∀ k : Fin maxTasks, (Tty.step s event).tasks[k].tid = tid → s.tasks[k].tid = tid := by
    intro k hk
    rcases step_number hs event k with hsame | hzero | hstarted
    · rw [← hsame, hk]
    · exact absurd (hk.symm.trans hzero) htid
    rcases hstarted.number with hfresh | ⟨parentPid, parentTid, hfork⟩
    · exact absurd (htidj.trans hk.symm) (hfresh j)
    · rw [hk] at hfork
      subst hfork
      exact absurd rfl hspares.2
  have hkeeps : s.tasks[j].Keeps (Tty.step s event).tasks[j] := by
    by_cases hactor : ∃ tid', event.actor = some tid' ∧ s.taskIndex tid' = some j
    · obtain ⟨tid', hactor, hj'⟩ := hactor
      obtain rfl : tid' = tid := (taskIndex_some hj').symm.trans htidj
      refine step_own_keeps hs hactor hj fun pid' frame heq => ?_
      subst heq
      exact hspares.2 rfl
    have hopen : ¬ event.Closes s j := by
      intro hcloses
      cases event with
      | closeThread tid' =>
        obtain rfl : tid' = tid := (taskIndex_some hcloses).symm.trans htidj
        exact hspares rfl
      | closeProcess pid' => exact hspares (hcloses.2.symm.trans hgroup)
      | _ => exact hcloses
    rcases step_other (fun tid' htid' hj' => hactor ⟨tid', htid', hj'⟩) hopen with ⟨bits, hposted⟩ | hstarted
    · rw [hposted]
      refine ⟨rfl, rfl, fun hset => ?_⟩
      rw [has_or, hset]
      rfl
    · exact absurd (htidj.symm.trans hstarted.free) htid
  refine ⟨j, taskIndex_stable hj (hkeeps.tid.trans htidj) hothers, hkeeps.groupPid.trans hgroup, hkeeps.kill hkill⟩

/-! ## Sending -/

/-- `SIGKILL` is sent to a process, by the second part of `kill`, or to one of its tasks, by that of `kill_task`. -/
inductive SendsKill (s : State) (pid : Nat) : Event → Option Nat → Prop
  | toProcess {pids : List Nat} : pid ∈ pids → pid ≠ 0 → s.processIndex pid ≠ none →
      SendsKill s pid (.postAll sigkill pids) none
  | toTask {tid : Nat} {j : Fin maxTasks} : tid ≠ 0 → s.taskIndex tid = some j → s.tasks[j].groupPid = pid →
      SendsKill s pid (.postTask tid sigkill) (some tid)

theorem has_posted (mask : Word) : has (mask ||| (signalBit sigkill).getD 0) sigkill = true := by
  rw [has_or_bit (by decide) (by decide)]
  simp

theorem postTo_pid (s : State) (signal pid : Nat) (k : Fin maxProcesses) :
    (s.postTo signal pid).processes[k].pid = s.processes[k].pid := by
  unfold State.postTo
  split
  · rfl
  rw [setProcess_getElem]
  split
  · rename_i heq
    subst heq
    rfl
  · rfl

theorem postTo_processIndex (s : State) (signal pid other : Nat) :
    (s.postTo signal pid).processIndex other = s.processIndex other :=
  processIndex_congr fun k => by rw [postTo_pid]

theorem postTo_kill (h : s.processIndex pid ≠ none) : KillForProcess (s.postTo sigkill pid) pid := by
  obtain ⟨i, hi⟩ := Option.ne_none_iff_exists'.1 h
  refine ⟨i, (postTo_processIndex s sigkill pid pid).trans hi, ?_⟩
  unfold State.postTo
  rw [hi]
  rw [setProcess_getElem, if_pos rfl]
  exact has_posted _

theorem postAll_kill (hs : s.Sound) (hpid : pid ≠ 0) (h : s.processIndex pid ≠ none) :
    ∀ {pids : List Nat}, pid ∈ pids → KillForProcess (s.postAll sigkill pids) pid := by
  intro pids
  induction pids generalizing s with
  | nil => intro hmem; cases hmem
  | cons first rest ih =>
    intro hmem
    have hsound : (s.postTo sigkill first).Sound := step_sound hs (.postAll sigkill [first])
    have hindex : (s.postTo sigkill first).processIndex pid ≠ none := by rwa [postTo_processIndex]
    rcases List.mem_cons.1 hmem with rfl | hrest
    · exact @KillForProcess.step _ (.postAll sigkill rest) hsound pid none hpid (postTo_kill h) trivial
    · exact ih hsound hindex hrest

theorem postTask_kill {tid : Nat} (h : s.taskIndex tid = some j) (hgroup : s.tasks[j].groupPid = pid) :
    KillForTask (postTask tid sigkill s).2 pid tid := by
  have hget : ∀ k : Fin maxTasks, (postTask tid sigkill s).2.tasks[k].tid = s.tasks[k].tid := by
    intro k
    unfold postTask
    rw [h]
    rw [setTask_getElem]
    split
    · rename_i heq
      subst heq
      rfl
    · rfl
  refine ⟨j, (taskIndex_congr fun k => by rw [hget]).trans h, ?_, ?_⟩
  · unfold postTask
    rw [h]
    rw [setTask_getElem, if_pos rfl]
    exact hgroup
  unfold postTask
  rw [h]
  rw [setTask_getElem, if_pos rfl]
  exact has_posted _

variable {events : List Event}

theorem KillForProcess.run {task : Option Nat} (hpid : pid ≠ 0)
    (hspares : ∀ event ∈ events, event.Spares pid task) (hs : s.Sound) (h : KillForProcess s pid) :
    KillForProcess (Tty.run s events) pid := by
  induction events generalizing s with
  | nil => exact h
  | cons event rest ih =>
    refine ih (List.forall_mem_cons.1 hspares).2 (step_sound hs event) ?_
    exact h.step hs hpid (hspares event List.mem_cons_self)

theorem KillForTask.run {tid : Nat} (htid : tid ≠ 0)
    (hspares : ∀ event ∈ events, event.Spares pid (some tid)) (hs : s.Sound) (h : KillForTask s pid tid) :
    KillForTask (Tty.run s events) pid tid := by
  induction events generalizing s with
  | nil => exact h
  | cons event rest ih =>
    refine ih (List.forall_mem_cons.1 hspares).2 (step_sound hs event) ?_
    exact h.step hs htid (hspares event List.mem_cons_self)

/-! ## The delivery -/

/-- `SIGKILL` is what the task takes next: it runs no handler, and what comes before it is ignored. -/
structure Prompt (s : State) (i : Fin maxProcesses) (j : Fin maxTasks) : Prop where
  outside : s.tasks[j].inHandler = false
  pending : has s.tasks[j].pending sigkill = true ∨ has s.processes[i].pending sigkill = true
  earlier : ∀ other directed, Supported other →
    Pair.Before (other, directed) (sigkill, has s.tasks[j].pending sigkill) →
    (s.pair i j).ready other directed = true → s.processes[i].ignores other = true

theorem kill_ready (hs : s.Sound) (directed : Bool) :
    (s.pair i j).ready sigkill directed = has ((s.pair i j).pending directed) sigkill := by
  rw [Pair.ready, show (s.pair i j).2.blocked = s.tasks[j].blocked from rfl, ((hs.tasks j).blocked).1]
  exact Bool.and_true _

/-- `SIGKILL` sent to the task comes before `SIGKILL` sent to the process. -/
theorem first_kill_iff (hs : s.Sound) : (∃ directed, (s.pair i j).First sigkill directed) ↔
    (has s.tasks[j].pending sigkill = true ∨ has s.processes[i].pending sigkill = true) ∧
      ∀ other directed, Supported other → Pair.Before (other, directed) (sigkill, has s.tasks[j].pending sigkill) →
        (s.pair i j).ready other directed = true → s.processes[i].ignores other = true := by
  have hsupported : Supported sigkill := by decide
  have htaken : (s.pair i j).1.ignores sigkill = false := (hs.processes i).ignores_kill
  constructor
  · rintro ⟨directed, hfirst⟩
    have hready := hfirst.ready
    rw [kill_ready hs] at hready
    cases directed with
    | true =>
      have htask : has s.tasks[j].pending sigkill = true := hready
      rw [htask]
      exact ⟨.inl rfl, hfirst.before⟩
    | false =>
      cases htask : has s.tasks[j].pending sigkill with
      | true =>
        have hignored := hfirst.before sigkill true hsupported (.inl ⟨rfl, rfl⟩) ((kill_ready hs true).trans htask)
        rw [htaken] at hignored
        cases hignored
      | false => exact ⟨.inr hready, hfirst.before⟩
  · rintro ⟨hpending, hbefore⟩
    refine ⟨has s.tasks[j].pending sigkill, hsupported, ?_, htaken, hbefore⟩
    rw [kill_ready hs]
    cases htask : has s.tasks[j].pending sigkill with
    | true => exact htask
    | false => exact hpending.resolve_left (by rw [htask]; simp)

theorem deliver_kill_iff (hs : s.Sound) {tid : Nat} (hcaller : s.caller pid tid = some (i, j)) (frame : Frame) :
    (deliverPending pid tid frame s).1 = .ok (.terminate sigkill, frame) ↔ Prompt s i j := by
  have hiff : Prompt s i j ↔ s.tasks[j].inHandler = false ∧ ∃ directed, (s.pair i j).First sigkill directed := by
    rw [first_kill_iff hs]
    exact ⟨fun h => ⟨h.outside, h.pending, h.earlier⟩, fun ⟨h, h', h''⟩ => ⟨h, h', h''⟩⟩
  rw [hiff]
  unfold deliverPending
  rw [hcaller]
  dsimp only
  by_cases hhandler : s.tasks[j].inHandler = true
  · rw [if_pos hhandler]
    constructor
    · intro h
      cases h
    · rintro ⟨h, -⟩
      rw [hhandler] at h
      cases h
  rw [if_neg hhandler]
  have hcases := (s.pair i j).deliver_cases frame
  generalize (s.pair i j).deliver frame = result at hcases
  cases hcases with
  | nothing hnone =>
    constructor
    · intro h
      cases h
    · rintro ⟨-, directed, hfirst⟩
      exact absurd hfirst (hnone sigkill directed)
  | @acted signal directed pending process hfirst hdefault =>
    constructor
    · intro h
      split at h
      · cases h
      · cases h
        exact ⟨by simpa using hhandler, directed, hfirst⟩
    · rintro ⟨-, directed', hfirst'⟩
      cases hfirst.unique hfirst'
      rfl
  | @caught signal directed pending process hfirst hcaught =>
    constructor
    · intro h
      cases h
    rintro ⟨-, directed', hfirst'⟩
    cases hfirst.unique hfirst'
    refine absurd ?_ hcaught
    rw [show (s.pair i j).1.action sigkill = .default from (hs.processes i).kill]
    rfl

theorem run_append (s : State) (before : List Event) (send : Event) (between : List Event) :
    run s (before ++ send :: between) = run (step (run s before) send) between := List.foldl_append

/-- After `SIGKILL` was sent, the next delivery to a task of the process ends it exactly if the signal is pending for
that task, the task runs no handler and every signal that comes before is ignored. It is pending for every task if it
was sent to the process, and for the one task if it was sent to a task. -/
theorem kill_delivered_iff {before between : List Event} {send : Event} {pid : Nat} {target : Option Nat}
    (hsent : SendsKill (run .new before) pid send target) (hspares : ∀ event ∈ between, event.Spares pid target)
    {tid : Nat} {i : Fin maxProcesses} {j : Fin maxTasks}
    (hcaller : (run .new (before ++ send :: between)).caller pid tid = some (i, j)) (frame : Frame) :
    ((target = none ∨ target = some tid) →
      has (run .new (before ++ send :: between)).tasks[j].pending sigkill = true ∨
        has (run .new (before ++ send :: between)).processes[i].pending sigkill = true) ∧
    ((deliverPending pid tid frame (run .new (before ++ send :: between))).1 = .ok (.terminate sigkill, frame) ↔
      Prompt (run .new (before ++ send :: between)) i j) := by
  have hs := run_sound sound_new (before ++ send :: between)
  refine ⟨fun htarget => ?_, deliver_kill_iff hs hcaller frame⟩
  have hbefore := run_sound sound_new before
  obtain ⟨hprocess, htask⟩ := caller_some hcaller
  rw [run_append] at hprocess htask ⊢
  cases hsent with
  | toProcess hmem hpid hindex =>
    have hkill := (postAll_kill hbefore hpid hindex hmem).run hpid hspares (step_sound hbefore (.postAll sigkill _))
    obtain ⟨i', hi', hkill⟩ := hkill
    obtain rfl : i' = i := Option.some.inj (hi'.symm.trans hprocess)
    exact .inr hkill
  | @toTask tid' j' htid hj hgroup =>
    obtain rfl : tid' = tid := by simpa using htarget
    have hkill := (postTask_kill hj hgroup).run htid hspares (step_sound hbefore (.postTask tid' sigkill))
    obtain ⟨j', hj', -, hkill⟩ := hkill
    obtain rfl : j' = j := Option.some.inj (hj'.symm.trans htask)
    exact .inl hkill

theorem firstTask_lt : 0 < maxTasks := by decide

theorem firstProcess_lt : 0 < maxProcesses := by decide

/-- A process that catches nothing is ended by its next delivery. -/
theorem kill_delivered_alone :
    ((run .new ([.register 1 0] ++ .postAll sigkill [1] :: [])).caller 1 1 =
        some (⟨0, firstProcess_lt⟩, ⟨0, firstTask_lt⟩)) ∧
      ((deliverPending 1 1 .initial (run .new ([.register 1 0] ++ .postAll sigkill [1] :: []))).1 =
          .ok (.terminate sigkill, .initial) ↔
        Prompt (run .new ([.register 1 0] ++ .postAll sigkill [1] :: [])) ⟨0, firstProcess_lt⟩ ⟨0, firstTask_lt⟩) := by
  have hcaller : (run .new ([.register 1 0] ++ .postAll sigkill [1] :: [])).caller 1 1 =
      some (⟨0, firstProcess_lt⟩, ⟨0, firstTask_lt⟩) := by decide +kernel
  refine ⟨hcaller, (kill_delivered_iff (.toProcess (by decide) (by decide) ?_) (by simp) hcaller _).2⟩
  decide +kernel

/-- A process starts a handler for `SIGINT`. -/
def catching : List Event :=
  [.register 1 0, .signalAction 1 2 (some ⟨4096, 0, 4096, 0⟩) (true, true), .postAll 2 [1], .deliverPending 1 1 .initial]

/-- While the handler runs, `SIGKILL` is pending and the delivery does nothing. -/
theorem kill_deferred_by_handler :
    SendsKill (run .new catching) 1 (.postAll sigkill [1]) none ∧
      ((deliverPending 1 1 .initial (run .new (catching ++ .postAll sigkill [1] :: []))).1.toOption.map Prod.fst) =
        some .none := by
  refine ⟨.toProcess (by decide) (by decide) ?_, ?_⟩
  · decide +kernel
  · decide +kernel

end MakOS.Tty
