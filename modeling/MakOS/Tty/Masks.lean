/-
The discipline of signal masks. No mask ever has `SIGKILL` or `SIGSTOP` in it and neither signal has a handler; a
caught signal is delivered only while it is not blocked; and the return from a handler brings back the frame at its
entry with the mask that was in force then, or with the mask before the call if the handler interrupted a call that
had a mask of its own.
-/
import MakOS.Tty.Calls

namespace MakOS.Tty

open Data Data.Act ProcessState

/-- A mask without the two signals that cannot be blocked -/
def Clean (mask : Word) : Prop := has mask sigkill = false ∧ has mask sigstop = false

structure ProcessState.Sound (process : ProcessState) : Prop where
  kill : process.action sigkill = .default
  stop : process.action sigstop = .default
  masks : ∀ signal, Clean (process.action signal).mask

structure TaskSignalState.Sound (task : TaskSignalState) : Prop where
  blocked : Clean task.blocked
  saved : Clean task.savedMask
  waitSaved : Clean task.waitSavedMask

structure State.Sound (s : State) : Prop where
  processes : ∀ i : Fin maxProcesses, s.processes[i].Sound
  tasks : ∀ j : Fin maxTasks, s.tasks[j].Sound

variable {s s' t : State} {i : Fin maxProcesses} {j : Fin maxTasks} {signal : Nat} {mask : Word}

/-! ## Masks -/

theorem clean_zero : Clean 0 := ⟨has_zero _, has_zero _⟩

theorem clean_sanitize (mask : Word) : Clean (sanitizeSignalMask mask) := by
  constructor
  · rw [has_sanitize (by decide)]
    simp
  · rw [has_sanitize (by decide)]
    simp

variable {a : Word}

theorem Clean.or {b : Word} (ha : Clean a) (hb : Clean b) : Clean (a ||| b) := by
  constructor
  · rw [has_or, ha.1, hb.1]
    rfl
  · rw [has_or, ha.2, hb.2]
    rfl

theorem Clean.and_not (ha : Clean a) (b : Word) : Clean (a &&& ~~~b) := by
  constructor
  · rw [has_and_not, ha.1]
    rfl
  · rw [has_and_not, ha.2]
    rfl

theorem clean_bit (h : Supported signal) (hkill : signal ≠ sigkill) (hstop : signal ≠ sigstop) :
    Clean ((signalBit signal).getD 0) := by
  have hbit : ∀ other, Supported other → other ≠ signal → has ((signalBit signal).getD 0) other = false := by
    intro other hother hne
    have hor := @has_or_bit signal other 0 h hother
    rw [has_or, has_zero, Bool.false_or] at hor
    rw [hor]
    simpa using hne
  exact ⟨hbit _ (by decide) (Ne.symm hkill), hbit _ (by decide) (Ne.symm hstop)⟩

theorem clean_changedMask {how : Nat} {previous replacement blocked : Word} (hprevious : Clean previous)
    (hreplacement : Clean replacement) (h : changedMask how previous replacement = some blocked) : Clean blocked := by
  unfold changedMask at h
  split at h
  · cases h
    exact hprevious.or hreplacement
  · cases h
    exact hprevious.and_not _
  · cases h
    exact hreplacement
  · cases h

/-! ## Actions -/

namespace ProcessState

variable {process process' : ProcessState}

variable {index : Fin signalCount}

theorem setAction_action (h : signalIndex signal = some index) (entry : SignalAction)
    (other : Nat) : (process.setAction index entry).action other = if other = signal then entry else process.action other := by
  have hsupported : Supported signal := by
    by_contra hne
    rw [signalIndex_eq_none hne] at h
    cases h
  rw [signalIndex_of_supported hsupported] at h
  cases h
  by_cases hother : Supported other
  · unfold action setAction
    rw [signalIndex_of_supported hother]
    split
    · rename_i heq
      subst heq
      exact getElem_set_self
    · rename_i hne
      refine getElem_set_of_ne fun heq => hne ?_
      exact (hother.bit_inj hsupported).1 (congrArg Fin.val heq)
  · have hne : other ≠ signal := fun heq => hother (heq ▸ hsupported)
    unfold action
    rw [signalIndex_eq_none hother, if_neg hne]
    rfl

theorem resetCaught_action (process : ProcessState) (signal : Nat) :
    process.resetCaught.action signal = process.action signal ∨ process.resetCaught.action signal = .default := by
  unfold action resetCaught
  cases signalIndex signal with
  | none => exact .inl rfl
  | some index =>
    rw [Option.elim]
    rw [getElem_map]
    split
    · exact .inr rfl
    · exact .inl rfl

theorem replicate_action {pid sessionId processGroup : Nat} {openFds : BitVec 8} {pending : Word} (signal : Nat) :
    (⟨pid, sessionId, processGroup, openFds, pending, .replicate _ .default⟩ : ProcessState).action signal = .default := by
  unfold action
  cases signalIndex signal with
  | none => rfl
  | some index => exact getElem_replicate

/-- The number stays, and the two signals get no handler. -/
structure Evolved (process process' : ProcessState) : Prop where
  pid : process'.pid = process.pid
  sound : process.Sound → process'.Sound

theorem Sound.of_actions (h : process.Sound) (hactions : process'.actions = process.actions) : process'.Sound := by
  have heq : process'.action = process.action := by
    unfold action
    rw [hactions]
  exact ⟨heq ▸ h.kill, heq ▸ h.stop, heq ▸ h.masks⟩

theorem Evolved.of_actions (hpid : process'.pid = process.pid) (hactions : process'.actions = process.actions) :
    Evolved process process' := ⟨hpid, fun h => h.of_actions hactions⟩

theorem Evolved.trans {process'' : ProcessState} (h : Evolved process process') (h' : Evolved process' process'') :
    Evolved process process'' := ⟨h'.pid.trans h.pid, fun hs => h'.sound (h.sound hs)⟩

theorem Sound.of_default (h : ∀ signal, process.action signal = .default) : process.Sound :=
  ⟨h _, h _, fun signal => by rw [h signal]; exact clean_zero⟩

theorem Sound.setAction (h : process.Sound) (hindex : signalIndex signal = some index)
    (hkill : signal ≠ sigkill) (hstop : signal ≠ sigstop) {entry : SignalAction} (hmask : Clean entry.mask) :
    (process.setAction index entry).Sound := by
  constructor
  · rw [setAction_action hindex, if_neg (Ne.symm hkill), h.kill]
  · rw [setAction_action hindex, if_neg (Ne.symm hstop), h.stop]
  intro other
  rw [setAction_action hindex]
  split
  · exact hmask
  · exact h.masks other

theorem Sound.resetCaught (h : process.Sound) : process.resetCaught.Sound := by
  have hdefault : ∀ signal, process.action signal = .default → process.resetCaught.action signal = .default := by
    intro signal hsignal
    rcases process.resetCaught_action signal with heq | heq
    · rw [heq, hsignal]
    · exact heq
  refine ⟨hdefault _ h.kill, hdefault _ h.stop, fun signal => ?_⟩
  rcases process.resetCaught_action signal with heq | heq
  · rw [heq]
    exact h.masks signal
  · rw [heq]
    exact clean_zero

/-- Neither signal is ignored. -/
theorem Sound.ignores_kill (h : process.Sound) : process.ignores sigkill = false := by
  unfold ignores
  rw [h.kill]
  decide

end ProcessState

/-! ## What an event does to the entry of a process -/

structure Begun (s : State) (event : Event) (i : Fin maxProcesses) (process' : ProcessState) : Prop where
  free : s.processes[i].pid = 0
  sound : s.Sound → process'.Sound
  number : process'.pid = 0 ∨ (∀ k : Fin maxProcesses, s.processes[k].pid ≠ process'.pid) ∨
    ∃ parentPid parentTid, event = .forkProcess parentPid process'.pid parentTid

/-- An event changes an entry: `SIGKILL` stays pending unless the event delivers to the process or closes it. -/
inductive ProcessStep (s : State) (event : Event) (i : Fin maxProcesses) (process' : ProcessState) : Prop
  | evolved : s.processes[i].Evolved process' →
      (has s.processes[i].pending sigkill = true → has process'.pending sigkill = true) → ProcessStep s event i process'
  | delivered {pid tid : Nat} {frame : Frame} : event = .deliverPending pid tid frame → s.processIndex pid = some i →
      s.processes[i].Evolved process' → ProcessStep s event i process'
  | begun : Begun s event i process' → ProcessStep s event i process'
  | closed {pid : Nat} : event = .closeProcess pid → s.processIndex pid = some i → process'.pid = 0 →
      process'.Sound → ProcessStep s event i process'

variable {event : Event}

variable {process' : ProcessState}

theorem ProcessStep.of_eq (h : process' = s.processes[i]) : ProcessStep s event i process' := by
  subst h
  exact .evolved (.of_actions rfl rfl) id

/-- Fields other than the actions change, and signals become pending. -/
theorem ProcessStep.posted (hpid : process'.pid = s.processes[i].pid)
    (hactions : process'.actions = s.processes[i].actions)
    (hpending : ∃ bits, process'.pending = s.processes[i].pending ||| bits) : ProcessStep s event i process' := by
  refine .evolved (.of_actions hpid hactions) fun hkill => ?_
  obtain ⟨bits, hbits⟩ := hpending
  rw [hbits, has_or, hkill]
  rfl

/-- Every entry changes as one event can change it. -/
def ProcessSteps (event : Event) (s s' : State) : Prop := ∀ i : Fin maxProcesses, ProcessStep s event i s'.processes[i]

theorem ProcessSteps.of_eq (h : s'.processes = s.processes) : ProcessSteps event s s' := by
  intro i
  rw [h]
  exact .of_eq rfl

theorem ProcessSteps.setProcess (h : ProcessStep s event i process') : ProcessSteps event s (s.setProcess i process') := by
  intro k
  rw [setProcess_getElem]
  split
  · rename_i heq
    subst heq
    exact h
  · exact .of_eq rfl

theorem ensureMainTask_processes (pid : Nat) : Leaves (fun t => t.processes = s.processes) (ensureMainTask pid) s := by
  unfold Leaves ensureMainTask
  split
  · rfl
  split <;> rfl

theorem addProcess_process (s : State) (i k : Fin maxProcesses) (pid : Nat) (identity : Nat × Nat) :
    (s.addProcess i pid identity).processes[k] = if k = i then
      { empty with pid, sessionId := identity.1, processGroup := identity.2, openFds := 0b111 }
    else s.processes[k] := by
  unfold State.addProcess
  dsimp only
  split
  · exact setProcess_getElem ..
  · exact setProcess_getElem ..

theorem sound_empty : empty.Sound := .of_default fun _ => replicate_action _

theorem begun_empty (h : s.processes[i].pid = 0) : Begun s event i .empty := ⟨h, fun _ => sound_empty, .inl rfl⟩

theorem ProcessSteps.congr_right (h : ProcessSteps event s t) (ht : s'.processes = t.processes) :
    ProcessSteps event s s' := by
  intro k
  rw [ht]
  exact h k

/-- The new process is at the entry that was found for it. -/
theorem addProcess_index {pid : Nat} {identity : Nat × Nat} {k : Fin maxProcesses} (hnew : s.processIndex pid = none)
    (h : (s.addProcess i pid identity).processIndex pid = some k) : k = i := by
  by_contra hne
  have hpid := processIndex_some h
  rw [addProcess_process, if_neg hne] at hpid
  have hnone := position_eq_none.1 hnew k
  rw [beq_eq_false_iff_ne] at hnone
  exact hnone hpid

open ProcessSteps

theorem register_steps (pid parentPid : Nat) : Leaves (ProcessSteps event s) (register pid parentPid) s := by
  unfold Leaves register
  split
  · exact .of_eq rfl
  split
  · rename_i i hi
    have hopened : ProcessStep s event i { s.processes[i] with openFds := s.processes[i].openFds ||| 0b111 } :=
      .posted rfl rfl ⟨0, BitVec.or_zero.symm⟩
    exact (setProcess hopened).congr_right (ensureMainTask_processes pid)
  rename_i hnew
  split
  · exact .of_eq rfl
  rename_i i hfree
  have hzero := processIndex_some hfree
  generalize hidentity : (s.inherited parentPid).getD (pid, pid) = identity
  have hadded : ProcessSteps event s (s.addProcess i pid identity) := by
    intro k
    rw [addProcess_process]
    split
    · rename_i heq
      subst heq
      refine .begun ⟨hzero, fun _ => .of_default fun _ => replicate_action _, .inr (.inl fun m hm => ?_)⟩
      have hnone := position_eq_none.1 hnew m
      rw [beq_eq_false_iff_ne] at hnone
      exact hnone hm
    · exact .of_eq rfl
  have hmain : Leaves (fun t => t.processes = (s.addProcess i pid identity).processes) (ensureMainTask pid)
      (s.addProcess i pid identity) := ensureMainTask_processes pid
  change Leaves (ProcessSteps event s) (ensureMainTask pid >>= fun started => keepIfStarted pid started) _
  refine leaves_bind (fun e t ht => ?_) fun started t ht => ?_
  · rw [Leaves, ht] at hmain
    exact hadded.congr_right hmain
  rw [Leaves, ht] at hmain
  unfold Leaves keepIfStarted
  split
  · exact hadded.congr_right hmain
  split
  · exact hadded.congr_right hmain
  rename_i m hm
  have hindex : (s.addProcess i pid identity).processIndex pid = some m := by
    rw [← hm]
    exact processIndex_congr fun k => by rw [hmain]
  obtain rfl := addProcess_index hnew hindex
  intro k
  rw [setProcess_getElem]
  split
  · rename_i heq
    subst heq
    exact .begun (begun_empty hzero)
  · rw [hmain]
    exact hadded k

variable {process : ProcessState}

/-- A change of an entry after another one -/
theorem ProcessStep.then (h : ProcessStep s event i process) (hevolved : process.Evolved process')
    (hpending : has process.pending sigkill = true → has process'.pending sigkill = true) :
    ProcessStep s event i process' := by
  cases h with
  | evolved hfirst hkill => exact .evolved (hfirst.trans hevolved) fun hs => hpending (hkill hs)
  | delivered hevent hindex hfirst => exact .delivered hevent hindex (hfirst.trans hevolved)
  | begun hbegun =>
    obtain ⟨hfree, hsound, hnumber⟩ := hbegun
    rw [← hevolved.pid] at hnumber
    exact .begun ⟨hfree, fun hs => hevolved.sound (hsound hs), hnumber⟩
  | closed hevent hindex hzero hsound =>
    exact .closed hevent hindex (hevolved.pid.trans hzero) (hevolved.sound hsound)

theorem ProcessSteps.then (h : ProcessSteps event s t) (hevolved : t.processes[i].Evolved process')
    (hpending : has t.processes[i].pending sigkill = true → has process'.pending sigkill = true) :
    ProcessSteps event s (t.setProcess i process') := by
  intro k
  rw [setProcess_getElem]
  split
  · rename_i heq
    subst heq
    exact (h k).then hevolved hpending
  · exact h k

theorem has_post {other : Nat} (h : has process.pending signal = true) : has (process.post other).pending signal = true := by
  rw [post, has_or, h]
  rfl

theorem forkProcess_steps (parentPid childPid parentTid : Nat) :
    Leaves (ProcessSteps (.forkProcess parentPid childPid parentTid) s) (forkProcess parentPid childPid parentTid) s := by
  unfold Leaves forkProcess
  split
  · exact .of_eq rfl
  split
  · rename_i parent task processSlot taskSlot hparent htask hslot hfree
    have hbegun : Begun s (.forkProcess parentPid childPid parentTid) processSlot
        { s.processes[parent] with pid := childPid, pending := 0 } :=
      ⟨processIndex_some hslot, fun hs => (hs.processes parent).of_actions rfl, .inr (.inr ⟨parentPid, parentTid, rfl⟩)⟩
    exact setProcess (.begun hbegun)
  · rename_i hslot _
    exact .setProcess (.begun (begun_empty (processIndex_some hslot)))
  · exact .of_eq rfl

theorem closeProcess_steps (pid : Nat) : Leaves (ProcessSteps (.closeProcess pid) s) (closeProcess pid) s := by
  unfold Leaves closeProcess
  split
  · exact .of_eq rfl
  · rename_i i hi
    exact setProcess (.closed rfl hi rfl sound_empty)

theorem execProcess_steps (pid : Nat) : Leaves (ProcessSteps event s) (execProcess pid) s := by
  unfold Leaves execProcess
  split
  · exact .of_eq rfl
  rename_i i hi
  have hreset : ProcessStep s event i s.processes[i].resetCaught :=
    .evolved ⟨rfl, fun hs => hs.resetCaught⟩ id
  dsimp only
  split
  · exact setProcess hreset
  · exact setProcess hreset

theorem makeForegroundChild_steps (pid parentPid : Nat) :
    Leaves (ProcessSteps event s) (makeForegroundChild pid parentPid) s := by
  unfold Leaves makeForegroundChild
  split
  · rename_i child parent hchild hparent
    split
    · exact .of_eq rfl
    · have hgroup : ProcessStep s event child { s.processes[child] with processGroup := pid } :=
        .evolved (.of_actions rfl rfl) id
      exact setProcess hgroup
  · exact .of_eq rfl

theorem ensureProcess_steps (pid : Nat) : Leaves (ProcessSteps event s) (ensureProcess pid) s := by
  unfold Leaves ensureProcess
  split
  · exact .of_eq rfl
  · exact leaves_bind_keep (register_steps pid 0) fun registered t _ ht => leaves_look ht

theorem setProcessGroup_steps (caller targetPid processGroup : Nat) :
    Leaves (ProcessSteps event s) (setProcessGroup caller targetPid processGroup) s := by
  refine leaves_bind_guard (.of_eq rfl) fun _ => leaves_bind_keep (ensureProcess_steps caller) fun _ t _ ht => ?_
  refine leaves_need ht fun i _ => leaves_bind_guard ht fun _ => leaves_modify ?_
  exact ht.then (.of_actions rfl rfl) id

theorem signalAction_steps (pid signal : Nat) (replacement : Option SignalAction) (executable : Bool × Bool) :
    Leaves (ProcessSteps event s) (signalAction pid signal replacement executable) s := by
  refine leaves_need (.of_eq rfl) fun index hindex => leaves_bind_guard (.of_eq rfl) fun hsignal => ?_
  refine leaves_bind_keep (ensureProcess_steps pid) fun _ t _ ht => leaves_need ht fun i _ => ?_
  rw [Bool.and_eq_true, bne_iff_ne, bne_iff_ne] at hsignal
  cases replacement with
  | none => exact leaves_pure ht
  | some replacement =>
    refine leaves_bind_guard ht fun _ => leaves_bind_modify (leaves_pure (ht.then ⟨rfl, fun hs => ?_⟩ id))
    exact hs.setAction hindex hsignal.1 hsignal.2 (clean_sanitize _)

theorem raise_steps (pid signal : Nat) : Leaves (ProcessSteps event s) (raise pid signal) s := by
  refine leaves_need (.of_eq rfl) fun _ _ => leaves_bind_keep (ensureProcess_steps pid) fun _ t _ ht => ?_
  exact leaves_need ht fun i _ => leaves_modify (ht.then (.of_actions rfl rfl) has_post)

theorem postTo_steps (h : ProcessSteps event s t) (pid : Nat) : ProcessSteps event s (t.postTo signal pid) := by
  unfold State.postTo
  split
  · exact h
  · exact h.then (.of_actions rfl rfl) has_post

theorem postAll_steps (signal : Nat) (pids : List Nat) : ProcessSteps event s (s.postAll signal pids) := by
  suffices h : ∀ t, ProcessSteps event s t → ProcessSteps event s (t.postAll signal pids) from h s (.of_eq rfl)
  induction pids with
  | nil => exact fun _ ht => ht
  | cons pid rest ih =>
    intro t ht
    exact ih _ (postTo_steps ht pid)

theorem queueProcessGroup_steps (processGroup signal : Nat) :
    Leaves (ProcessSteps event s) (queueProcessGroup processGroup signal) s := by
  unfold Leaves queueProcessGroup
  split
  · exact .of_eq rfl
  intro i
  rw [getElem_map]
  split
  · exact .evolved (.of_actions rfl rfl) has_post
  · exact .of_eq rfl

/-! ## The loop and the delivery keep the discipline -/

theorem Pair.settled_evolved (pair : Pair) : pair.1.Evolved pair.settled.1 := by
  have hnarrowed := pair.settled_narrowed
  rw [hnarrowed.process]
  exact .of_actions rfl rfl

theorem waitInterrupted_steps (hs : s.Sound) (pid tid : Nat) : Leaves (ProcessSteps event s) (waitInterrupted pid tid) s := by
  unfold Leaves waitInterrupted
  split
  · exact .of_eq rfl
  rename_i i j hcaller
  refine setProcess (.evolved (s.pair i j).settled_evolved fun hkill => ?_)
  have hkept := (s.pair i j).settled_narrowed.kept sigkill false (by decide) (hs.processes i).ignores_kill
  exact hkept.trans hkill

theorem Pair.take_evolved (pair : Pair) (signal : Nat) (taskDirected : Bool) :
    pair.1.Evolved (pair.take signal taskDirected).1 := by
  unfold Pair.take
  split
  · exact .of_actions rfl rfl
  · exact .of_actions rfl rfl

theorem resetHandler_evolved (process : ProcessState) (signal : Nat) (h : (process.action signal).handler ≠ sigDfl) :
    process.Evolved (process.resetHandler signal) := by
  unfold resetHandler
  split
  case isFalse => exact .of_actions rfl rfl
  cases hindex : signalIndex signal with
  | none => exact .of_actions rfl rfl
  | some index =>
    refine ⟨rfl, fun hs => hs.setAction hindex ?_ ?_ clean_zero⟩
    · rintro rfl
      exact h (by rw [hs.kill]; rfl)
    · rintro rfl
      exact h (by rw [hs.stop]; rfl)

theorem Pair.act_evolved (pair : Pair) (signal : Nat) (frame : Frame) : pair.1.Evolved (pair.act signal frame).1.1 := by
  unfold Pair.act
  dsimp only
  split
  · exact .of_actions rfl rfl
  · rename_i h
    exact resetHandler_evolved pair.1 signal (by simpa using h)

theorem Pair.deliver_evolved (pair : Pair) (frame : Frame) : pair.1.Evolved (pair.deliver frame).1.1 := by
  unfold Pair.deliver
  split
  · exact pair.settled_evolved
  · exact (pair.settled_evolved.trans (pair.settled.take_evolved _ _)).trans (act_evolved _ _ _)

theorem deliverPending_steps (pid tid : Nat) (frame : Frame) :
    Leaves (ProcessSteps (.deliverPending pid tid frame) s) (deliverPending pid tid frame) s := by
  unfold Leaves deliverPending
  split
  · exact .of_eq rfl
  rename_i i j hcaller
  split
  · exact .of_eq rfl
  · exact setProcess (.delivered rfl (caller_some hcaller).1 ((s.pair i j).deliver_evolved frame))

/-- What an event does to the entry of a process -/
theorem step_process (hs : s.Sound) (event : Event) : ProcessSteps event s (step s event) := by
  cases event with
  | register pid parentPid => exact register_steps pid parentPid
  | forkProcess parentPid childPid parentTid => exact forkProcess_steps parentPid childPid parentTid
  | registerThread tid groupPid parentTid =>
    refine .of_eq ?_
    simp only [step, registerThread]
    split
    · rfl
    split
    · rfl
    split <;> rfl
  | closeThread tid => exact .of_eq (by simp only [step, closeThread]; split <;> rfl)
  | closeProcess pid => exact closeProcess_steps pid
  | execProcess pid => exact execProcess_steps pid
  | makeForegroundChild pid parentPid => exact makeForegroundChild_steps pid parentPid
  | setProcessGroup caller targetPid processGroup => exact setProcessGroup_steps caller targetPid processGroup
  | signalAction pid signal replacement executable => exact signalAction_steps pid signal replacement executable
  | signalMask tid how replacement | signalReturn tid => exact .of_eq withTask_processes
  | beginWaitMask tid replacement =>
    cases replacement with
    | none => exact .of_eq rfl
    | some mask => exact .of_eq withTask_processes
  | finishWaitMask tid => exact .of_eq (by simp only [step, finishWaitMask]; split <;> rfl)
  | waitInterrupted pid tid => exact waitInterrupted_steps hs pid tid
  | raise pid signal => exact raise_steps pid signal
  | postAll signal pids => exact postAll_steps signal pids
  | postTask tid signal => exact .of_eq (by simp only [step, postTask]; split <;> rfl)
  | queueProcessGroup processGroup signal => exact queueProcessGroup_steps processGroup signal
  | deliverPending pid tid frame => exact deliverPending_steps pid tid frame

theorem ProcessStep.sound (h : ProcessStep s event i process') (hs : s.Sound) : process'.Sound := by
  cases h with
  | evolved hevolved _ | delivered _ _ hevolved => exact hevolved.sound (hs.processes i)
  | begun hbegun => exact hbegun.sound hs
  | closed _ _ _ hsound => exact hsound

/-! ## Tasks -/

namespace TaskSignalState

variable {task task' : TaskSignalState}

theorem sound_empty : TaskSignalState.empty.Sound := ⟨clean_zero, clean_zero, clean_zero⟩

theorem Sound.pending (h : task.Sound) (pending : Word) : { task with pending }.Sound := ⟨h.blocked, h.saved, h.waitSaved⟩

theorem changeMask_left (task : TaskSignalState) (how : Nat) (replacement : Option Word) :
    ∃ blocked, left task (task.changeMask how replacement) = { task with blocked } ∧
      (Clean task.blocked → Clean blocked) := by
  unfold changeMask
  split
  · split <;> exact ⟨task.blocked, rfl, id⟩
  split
  · exact ⟨task.blocked, rfl, id⟩
  split
  · exact ⟨task.blocked, rfl, id⟩
  · exact ⟨_, rfl, fun h => clean_changedMask h (clean_sanitize _) ‹_›⟩

theorem beginWait_left (task : TaskSignalState) (mask : Word) :
    left task (task.beginWait mask) = if task.waitMaskActive then task else { task with
      waitSavedMask := task.blocked, blocked := sanitizeSignalMask mask, waitMaskActive := true } := by
  unfold beginWait
  split
  · split <;> rfl
  · rfl

theorem leaveHandler_left (task : TaskSignalState) : left task task.leaveHandler =
    if task.inHandler then { task with inHandler := false, blocked := task.savedMask } else task := by
  unfold leaveHandler
  split <;> rfl

theorem Sound.changeMask (h : task.Sound) (how : Nat) (replacement : Option Word) :
    (left task (task.changeMask how replacement)).Sound := by
  obtain ⟨blocked, heq, hclean⟩ := task.changeMask_left how replacement
  rw [heq]
  exact ⟨hclean h.blocked, h.saved, h.waitSaved⟩

theorem Sound.beginWait (h : task.Sound) (mask : Word) : (left task (task.beginWait mask)).Sound := by
  rw [beginWait_left]
  split
  · exact h
  · exact ⟨clean_sanitize _, h.saved, h.blocked⟩

theorem Sound.finishWait (h : task.Sound) : task.finishWait.Sound := by
  unfold TaskSignalState.finishWait
  split
  · exact ⟨h.waitSaved, h.saved, clean_zero⟩
  · exact h

theorem Sound.leaveHandler (h : task.Sound) : (left task task.leaveHandler).Sound := by
  rw [leaveHandler_left]
  split
  · exact ⟨h.saved, h.saved, h.waitSaved⟩
  · exact h

theorem Sound.restoredMask (h : task.Sound) : Clean task.restoredMask := by
  unfold TaskSignalState.restoredMask
  split
  · exact h.waitSaved
  · exact h.blocked

theorem Sound.leaveWait (h : task.Sound) : task.leaveWait.Sound := by
  unfold TaskSignalState.leaveWait
  split
  · exact ⟨h.blocked, h.saved, clean_zero⟩
  · exact h

/-- The two signals have no handler, so no handler blocks one of them. -/
theorem Sound.enterHandler {process : ProcessState} (h : task.Sound) (hprocess : process.Sound) (hsupported : Supported signal)
    (hhandler : (process.action signal).handler ≠ sigDfl) (frame : Frame) :
    (task.enterHandler (process.action signal) signal frame).Sound := by
  have hkill : signal ≠ sigkill := by
    rintro rfl
    exact hhandler (by rw [hprocess.kill]; rfl)
  have hstop : signal ≠ sigstop := by
    rintro rfl
    exact hhandler (by rw [hprocess.stop]; rfl)
  refine ⟨(h.restoredMask.or (hprocess.masks signal)).or ?_, h.restoredMask, h.leaveWait.waitSaved⟩
  split
  · exact clean_bit hsupported hkill hstop
  · exact clean_zero

end TaskSignalState

/-- The entries of one process and one task -/
structure Pair.Sound (pair : Pair) : Prop where
  process : pair.1.Sound
  task : pair.2.Sound

namespace Pair

variable {pair : Pair} {taskDirected : Bool}

theorem Sound.settled (h : pair.Sound) : pair.settled.Sound := by
  refine ⟨pair.settled_evolved.sound h.process, ?_⟩
  rw [pair.settled_narrowed.task]
  exact h.task.pending _

theorem Sound.take (h : pair.Sound) : (pair.take signal taskDirected).Sound := by
  refine ⟨(pair.take_evolved signal taskDirected).sound h.process, ?_⟩
  cases taskDirected with
  | true => exact h.task.pending _
  | false => exact h.task

theorem Sound.act (h : pair.Sound) (hsupported : Supported signal) (frame : Frame) : (pair.act signal frame).1.Sound := by
  refine ⟨(pair.act_evolved signal frame).sound h.process, ?_⟩
  unfold Pair.act
  dsimp only
  split
  · exact ⟨h.task.restoredMask, h.task.leaveWait.saved, h.task.leaveWait.waitSaved⟩
  · rename_i hhandler
    exact h.task.enterHandler h.process hsupported (by simpa using hhandler) frame

theorem Sound.deliver (h : pair.Sound) (frame : Frame) : (pair.deliver frame).1.Sound := by
  unfold Pair.deliver
  split
  · exact h.settled
  · rename_i hnext
    exact h.settled.take.act (nextSignal_eq_some.1 hnext).1 frame

end Pair

theorem State.Sound.pair (hs : s.Sound) (i : Fin maxProcesses) (j : Fin maxTasks) : (s.pair i j).Sound :=
  ⟨hs.processes i, hs.tasks j⟩

variable {tid : Nat}

/-- The entry of the caller keeps the discipline. -/
theorem step_own_sound (hs : s.Sound) {event : Event} (hactor : event.actor = some tid)
    (h : s.taskIndex tid = some j) : (step s event).tasks[j].Sound := by
  cases event with
  | execProcess pid =>
    cases hactor
    rw [step, execProcess_at h]
    split
    · exact ⟨(hs.tasks j).blocked, clean_zero, clean_zero⟩
    · exact hs.tasks j
  | signalMask _ how replacement =>
    cases hactor
    rw [step, signalMask, withTask_at h]
    exact (hs.tasks j).changeMask how replacement
  | beginWaitMask _ replacement =>
    cases hactor
    cases replacement with
    | none => exact hs.tasks j
    | some mask =>
      rw [step, beginWaitMask, withTask_at h]
      exact (hs.tasks j).beginWait mask
  | finishWaitMask _ =>
    cases hactor
    rw [step, finishWaitMask_at h]
    exact (hs.tasks j).finishWait
  | waitInterrupted pid _ =>
    cases hactor
    rw [step, waitInterrupted_at h]
    cases s.processIndex pid with
    | none => exact hs.tasks j
    | some i => exact (hs.pair i j).settled.task
  | deliverPending pid _ frame =>
    cases hactor
    rw [step, deliverPending_at h]
    cases s.processIndex pid with
    | none => exact hs.tasks j
    | some i =>
      split
      · exact hs.tasks j
      · exact ((hs.pair i j).deliver frame).task
  | signalReturn _ =>
    cases hactor
    rw [step, signalReturn, withTask_at h]
    exact (hs.tasks j).leaveHandler
  | _ => cases hactor

theorem step_sound (hs : s.Sound) (event : Event) : (step s event).Sound := by
  refine ⟨fun i => (step_process hs event i).sound hs, fun j => ?_⟩
  by_cases hopen : event.Closes s j
  · rw [step_closed hopen]
    exact TaskSignalState.sound_empty
  by_cases hactor : ∃ tid, event.actor = some tid ∧ s.taskIndex tid = some j
  · obtain ⟨tid, hactor, hj⟩ := hactor
    exact step_own_sound hs hactor hj
  rcases step_other (fun tid htid hj => hactor ⟨tid, htid, hj⟩) hopen with ⟨bits, hposted⟩ | hstarted
  · rw [hposted]
    exact (hs.tasks j).pending _
  rw [hstarted.entry]
  refine ⟨?_, clean_zero, clean_zero⟩
  rcases hstarted.blocked with hzero | ⟨k, hk⟩
  · rw [hzero]
    exact clean_zero
  · rw [hk]
    exact (hs.tasks k).blocked

theorem sound_new : State.new.Sound := by
  constructor
  · intro i
    rw [State.new, getElem_replicate]
    exact sound_empty
  · intro j
    rw [State.new, getElem_replicate]
    exact TaskSignalState.sound_empty

theorem run_sound (hs : s.Sound) (events : List Event) : (run s events).Sound := by
  induction events generalizing s with
  | nil => exact hs
  | cons event rest ih => exact ih (step_sound hs event)

end MakOS.Tty
