/-
Waiting for I/O (`kernel/src/aarch64_process.rs`): a call arms a probe, looks at its sources without the
scheduler's lock, and blocks if none was ready. A wake between the look and the block is caught by the
probe. The machine runs any number of such calls with wakes and any other scheduling between their steps.

A slot keeps the source of its wait from the first block of a call to the end of the call. A call that is
left another way leaves the source behind, and the next call then sleeps on the wrong one.
-/
import MakOS.Data.Guarded
import MakOS.Process.Scheduler

namespace MakOS.Process

open MakOS.Data ProcessTable SchedulerState

inductive IoBlockResult
  | switched
  | timedOut
  | failed
  deriving DecidableEq, Repr

namespace ContextSlot

def clearProbe (slot : ContextSlot) : ContextSlot := { slot with ioProbeSource := none, ioProbeNotified := false }

/-- `consume_io_probe`: what the probe of a source saw, if there is one -/
def probeResult (slot : ContextSlot) (source : WaitSource) : Option Bool :=
  if slot.ioProbeSource = some source then some slot.ioProbeNotified else none

def clearWait (slot : ContextSlot) : ContextSlot :=
  { slot with ioWait := false, ioSource := .any, ioDeadline := 0, sleepDeadline := 0 }

/-- The deadline of a wait, in ticks of ten milliseconds; zero is none. -/
def deadlineOf (timeout : Int) (now : Nat) : Nat :=
  if timeout < 0 then 0 else min (now + max (min (timeout.toNat + 9) wordMax / 10) 1) wordMax

/-- A wait that is under way keeps its source and deadline. -/
def armWait (timeout : Int) (source : WaitSource) (now : Nat) (slot : ContextSlot) : ContextSlot :=
  if slot.ioWait then slot
  else { slot with ioWait := true, ioSource := source, ioDeadline := deadlineOf timeout now }

end ContextSlot

namespace SchedulerState

variable {N C F : Nat}

/-- `begin_io_probe`: the task that has the probe -/
def beginIoProbe (s : SchedulerState N C F) (cpu : Fin C) (source : WaitSource) : Option Nat × SchedulerState N C F :=
  match s.table.currentPidOn cpu with
  | none => (none, s)
  | some tid =>
    if (s.slotOf tid).isNone then (none, s)
    else (some tid, s.modifySlot tid fun slot => { slot with ioProbeSource := some source, ioProbeNotified := false })

/-- `IoProbeGuard::drop` -/
def dropProbe (s : SchedulerState N C F) (tid : Nat) : SchedulerState N C F := s.modifySlot tid .clearProbe

def completeIoWait (s : SchedulerState N C F) (cpu : Fin C) : SchedulerState N C F :=
  match s.table.currentPidOn cpu with
  | none => s
  | some tid => s.modifySlot tid fun slot => slot.clearWait.clearProbe

/-- `block_current_for_io_on`. `sole` is the test for the only runnable task of the first CPU, which waits
for an interrupt and stays running. -/
def blockCurrentForIoOn (s : SchedulerState N C F) (cpu : Fin C) (timeout : Int) (source : WaitSource) (now : Nat)
    (sole canIdle : Bool) (eligible : Policy) : IoBlockResult × SchedulerState N C F :=
  match s.table.currentPidOn cpu with
  | none => (.failed, s)
  | some tid =>
    match s.slotOf tid with
    | none => (.failed, s)
    | some slot =>
      match slot.probeResult source with
      | none => (.failed, s.modifySlot tid .clearProbe)
      | some notified =>
        let s := s.modifySlot tid fun slot => (slot.clearProbe).armWait timeout source now
        let deadline := (slot.clearProbe.armWait timeout source now).ioDeadline
        if deadline ≠ 0 ∧ deadline ≤ now then (.timedOut, s.modifySlot tid .clearWait)
        else if notified || sole then (.switched, s)
        else
          let s := s.modifySlot tid fun slot => { slot with sleepDeadline := deadline }
          match s.sleepCurrent cpu tid canIdle eligible .clearWait with
          | (true, s) => (.switched, s)
          | (false, s) => (.failed, s)

/-- The body of the loop of `wake_io_source` -/
def wakeContext (event : WaitSource) (result : Nat × SchedulerState N C F) (i : Fin N) : Nat × SchedulerState N C F :=
  let (count, s) := result
  let slot := s.contexts[i]
  let slot := if slot.ioProbeSource.any (·.wokenBy event) then { slot with ioProbeNotified := true } else slot
  if !slot.ioWait || !slot.ioSource.wokenBy event then (count, s.setSlot i slot)
  else match s.table.wake slot.pid with
    | (true, table) => (count + 1, SchedulerState.setSlot { s with table } i { slot with sleepDeadline := 0 })
    | (false, table) => (count, SchedulerState.setSlot { s with table } i slot)

def wakeIoSource (s : SchedulerState N C F) (event : WaitSource) : Nat × SchedulerState N C F :=
  (List.finRange N).foldl (wakeContext event) (0, s)

end SchedulerState

/-! ## Calls in progress -/

/-- Where a task stands in a call that waits for I/O. The flag says whether the source was woken since the
probe was armed; no code reads it. -/
inductive IoCall
  | idle
  | probing (source : WaitSource) (woken : Bool)
  | asleep (source : WaitSource) (woken : Bool)
  deriving DecidableEq, Repr

namespace IoCall

def woken : IoCall → Bool
  | .idle => false
  | .probing _ woken => woken
  | .asleep _ woken => woken

def notice (event : WaitSource) : IoCall → IoCall
  | .idle => .idle
  | .probing source woken => .probing source (woken || source.wokenBy event)
  | .asleep source woken => .asleep source (woken || source.wokenBy event)

/-- A task that is asleep is blocked, and one with a probe can run; else it has left the call. -/
def settle (state : ProcessState) : IoCall → IoCall
  | .probing source woken => if state = .ready ∨ state = .running then .probing source woken else .idle
  | .asleep source woken => if state = .blocked then .asleep source woken else .idle
  | .idle => .idle

end IoCall

structure IoMachine (N C F : Nat) where
  sched : SchedulerState N C F
  calls : Nat → IoCall

inductive IoEvent (C : Nat)
  | begin (cpu : Fin C) (source : WaitSource)
  | drop (tid : Nat)
  | complete (cpu : Fin C)
  | block (cpu : Fin C) (timeout : Int) (source : WaitSource) (now : Nat) (sole canIdle : Bool) (eligible : Policy)
  | wake (event : WaitSource)
  | other (activity : Activity C)

namespace IoMachine

variable {N C F : Nat}

def boot (N C F : Nat) : IoMachine N C F := ⟨.new N C F, fun _ => .idle⟩

def settled (sched : SchedulerState N C F) (calls : Nat → IoCall) : IoMachine N C F :=
  ⟨sched, fun tid => (calls tid).settle (sched.table.stateOf tid)⟩

def step (m : IoMachine N C F) : IoEvent C → IoMachine N C F
  | .begin cpu source =>
    match m.sched.beginIoProbe cpu source with
    | (none, sched) => settled sched m.calls
    | (some tid, sched) => settled sched (Function.update m.calls tid (.probing source false))
  | .drop tid =>
    match m.calls tid with
    | .probing _ _ => settled (m.sched.dropProbe tid) (Function.update m.calls tid .idle)
    -- the probe was handed to the block
    | _ => m
  | .complete cpu =>
    match m.sched.table.currentPidOn cpu with
    | none => m
    | some tid => settled (m.sched.completeIoWait cpu) (Function.update m.calls tid .idle)
  | .block cpu timeout source now sole canIdle eligible =>
    match m.sched.table.currentPidOn cpu with
    | none => m
    | some tid =>
      settled (m.sched.blockCurrentForIoOn cpu timeout source now sole canIdle eligible).2
        (Function.update m.calls tid (.asleep source (m.calls tid).woken))
  | .wake event => settled (m.sched.wakeIoSource event).2 fun tid => (m.calls tid).notice event
  | .other activity => settled (m.sched.act activity) m.calls

def run (events : List (IoEvent C)) (m : IoMachine N C F) : IoMachine N C F := events.foldl step m

/-- A task is still asleep although its source was woken after it had armed its probe. -/
def Lost (m : IoMachine N C F) (tid : Nat) : Prop := ∃ source, m.calls tid = .asleep source true

end IoMachine

/-! ## What a wake does -/

theorem WaitSource.wokenBy_of_covers {source own event : WaitSource} (hown : own = .any ∨ own = source)
    (h : source.wokenBy event = true) : own.wokenBy event = true := by
  rcases hown with rfl | rfl
  · rfl
  · exact h

namespace SchedulerState

variable {N C F : Nat} {s s' : SchedulerState N C F} {tid q : Nat} {cpu : Fin C} {event : WaitSource}

structure Heard (slot slot' : ContextSlot) : Prop where
  pid : slot'.pid = slot.pid
  wait : slot'.ioWait = slot.ioWait
  source : slot'.ioSource = slot.ioSource
  probe : slot'.ioProbeSource = slot.ioProbeSource
  notified : slot.ioProbeNotified = true → slot'.ioProbeNotified = true

variable {slot : ContextSlot}

theorem Heard.trans {slot' slot'' : ContextSlot} (h₁ : Heard slot slot') (h₂ : Heard slot' slot'') : Heard slot slot'' :=
  ⟨h₂.pid.trans h₁.pid, h₂.wait.trans h₁.wait, h₂.source.trans h₁.source, h₂.probe.trans h₁.probe,
    fun h => h₂.notified (h₁.notified h)⟩

/-- Some slots were looked at by the loop of the wake. -/
structure Woken (event : WaitSource) (seen : List (Fin N)) (s s' : SchedulerState N C F) : Prop where
  consistent : s'.table.Consistent
  heard : ∀ j : Fin N, Heard s.contexts[j] s'.contexts[j]
  states : ∀ q, s'.table.stateOf q = s.table.stateOf q ∨ (s.table.stateOf q = .blocked ∧ s'.table.stateOf q = .ready)
  told : ∀ j ∈ seen, s.contexts[j].ioProbeSource.any (·.wokenBy event) = true → s'.contexts[j].ioProbeNotified = true
  roused : ∀ j ∈ seen, s.contexts[j].ioWait = true → s.contexts[j].ioSource.wokenBy event = true →
    s'.table.stateOf s.contexts[j].pid ≠ .blocked

theorem wakeContext_woken (h : s.table.Consistent) (event : WaitSource) (count : Nat) (i : Fin N) :
    Woken event [i] s (wakeContext event (count, s) i).2 := by
  have hstates := stateOf_wake h.toNamed s.contexts[i].pid
  have hcon := h.wake s.contexts[i].pid
  refine ⟨?_, fun j => ⟨?_, ?_, ?_, ?_, ?_⟩, fun q => ?_, fun j hj => ?_, fun j hj => ?_⟩ <;>
    grind [wakeContext]

theorem Woken.append {s'' : SchedulerState N C F} {seen seen' : List (Fin N)} (h₁ : Woken event seen s s')
    (h₂ : Woken event seen' s' s'') : Woken event (seen ++ seen') s s'' := by
  refine ⟨h₂.consistent, fun j => (h₁.heard j).trans (h₂.heard j), fun q => ?_, fun j hj hp => ?_, fun j hj hw hs => ?_⟩
  · have := h₁.states q
    have := h₂.states q
    grind
  · rcases List.mem_append.1 hj with hj | hj
    · exact (h₂.heard j).notified (h₁.told j hj hp)
    · exact h₂.told j hj (by rw [(h₁.heard j).probe]; exact hp)
  rcases List.mem_append.1 hj with hj | hj
  · have := h₁.roused j hj hw hs
    have := h₂.states s.contexts[j].pid
    grind
  · rw [← (h₁.heard j).pid]
    exact h₂.roused j hj ((h₁.heard j).wait.trans hw) ((h₁.heard j).source ▸ hs)

theorem foldl_wakeContext (event : WaitSource) (seen : List (Fin N)) : ∀ (count : Nat) (s : SchedulerState N C F),
    s.table.Consistent → Woken event seen s (seen.foldl (wakeContext event) (count, s)).2 := by
  induction seen with
  | nil =>
    exact fun count s h => ⟨h, fun _ => ⟨rfl, rfl, rfl, rfl, id⟩, fun _ => .inl rfl, fun _ hj => (by cases hj), fun _ hj => (by cases hj)⟩
  | cons i rest ih =>
    intro count s h
    have hfirst := wakeContext_woken h event count i
    rw [List.foldl_cons]
    generalize wakeContext event (count, s) i = result at hfirst ⊢
    obtain ⟨count', s'⟩ := result
    exact hfirst.append (ih count' s' hfirst.consistent)

/-- The slot of a task is heard of and told. -/
theorem Woken.slotOf (h : Woken event (List.finRange N) s s') (hs : s.slotOf q = some slot) :
    ∃ slot', s'.slotOf q = some slot' ∧ Heard slot slot' ∧
      (slot.ioProbeSource.any (·.wokenBy event) = true → slot'.ioProbeNotified = true) ∧
      (slot.ioWait = true → slot.ioSource.wokenBy event = true → s'.table.stateOf q ≠ .blocked) := by
  obtain ⟨i, hi, rfl⟩ := Option.map_eq_some_iff.1 hs
  have hpid : s.contexts[i].pid = q := by simpa using slot?_some hi
  have hindex : s'.contextIndex q = some i := by
    rw [← hi]
    exact contextIndex_congr fun j => by rw [(h.heard j).pid]
  exact ⟨s'.contexts[i], by rw [slotOf, hindex]; rfl, h.heard i, h.told i (List.mem_finRange i),
    hpid ▸ h.roused i (List.mem_finRange i)⟩

/-! ## What a block does -/

/-- A task blocks for I/O only if its probe was armed for the source and saw nothing. -/
structure Asleep (s : SchedulerState N C F) (tid : Nat) (source : WaitSource) (s' : SchedulerState N C F) : Prop where
  probe : ∃ slot, s.slotOf tid = some slot ∧ slot.ioProbeSource = some source ∧ slot.ioProbeNotified = false ∧
    ∃ slot', s'.slotOf tid = some slot' ∧ slot'.ioWait = true ∧
      slot'.ioSource = if slot.ioWait then slot.ioSource else source

variable {timeout : Int} {source : WaitSource} {now : Nat}

theorem armWait_pid (slot : ContextSlot) : (slot.clearProbe.armWait timeout source now).pid = slot.pid := by
  unfold ContextSlot.armWait
  split <;> rfl

theorem blockCurrentForIoOn_spec (h : s.table.Consistent) (hc : s.table.currentPidOn cpu = some tid) (timeout : Int)
    (source : WaitSource) (now : Nat) (sole canIdle : Bool) (eligible : Policy) :
    let result := s.blockCurrentForIoOn cpu timeout source now sole canIdle eligible
    Local s tid result.2 ∧
      (result.2.table.stateOf tid = .blocked →
        Asleep s tid source result.2) := by
  dsimp only
  -- as long as the table is the old one, the task runs
  have hnot : ∀ s' : SchedulerState N C F, s'.table = s.table → s'.table.stateOf tid = .blocked → Asleep s tid source s' :=
    fun s' heq hb => by rw [heq, running_current h hc] at hb; cases hb
  have hself := Local.refl h tid
  unfold blockCurrentForIoOn
  rw [hc]
  dsimp only
  cases hslot : s.slotOf tid with
  | none => exact ⟨hself, hnot s rfl⟩
  | some slot =>
    dsimp only
    cases hprobe : slot.probeResult source with
    | none => exact ⟨hself.modifySlot fun _ => rfl, hnot _ table_modifySlot⟩
    | some notified =>
      have hsource : slot.ioProbeSource = some source ∧ slot.ioProbeNotified = notified := by
        unfold ContextSlot.probeResult at hprobe
        split at hprobe
        · rename_i heq
          exact ⟨heq, Option.some.inj hprobe⟩
        · cases hprobe
      have harm : Local s tid (s.modifySlot tid fun slot => (slot.clearProbe).armWait timeout source now) :=
        hself.modifySlot armWait_pid
      dsimp only
      split
      · refine ⟨harm.modifySlot fun _ => rfl, hnot _ ?_⟩
        rw [table_modifySlot, table_modifySlot]
      split
      · exact ⟨harm, hnot _ table_modifySlot⟩
      rename_i hnotified
      rw [Bool.or_eq_true, not_or] at hnotified
      -- the task blocks
      obtain ⟨sleeps, s', hsleep, hslept⟩ := written_slept harm.consistent (by rw [table_modifySlot]; exact hc)
        (fun _ => rfl : ∀ other : ContextSlot, { other with
          sleepDeadline := (slot.clearProbe.armWait timeout source now).ioDeadline }.pid = other.pid)
        (fun _ => rfl : ∀ slot : ContextSlot, slot.clearWait.pid = slot.pid) canIdle eligible
      rw [hsleep]
      cases sleeps with
      | true =>
        have hslot' := hslept.slot
        rw [slotOf_modifySlot_self armWait_pid, hslot] at hslot'
        refine ⟨harm.trans hslept.alone, fun _ => ⟨slot, hslot, hsource.1, ?_, _, hslot', by
          grind [ContextSlot.armWait, ContextSlot.clearProbe]⟩⟩
        rw [hsource.2]
        exact Bool.eq_false_iff.2 hnotified.1
      | false =>
        refine ⟨harm.trans hslept.alone, fun hb => ?_⟩
        rw [hslept.state] at hb
        cases hb

end SchedulerState

/-! ## No wake is lost -/

/-- What the slot of a task says about its call. -/
def IoCall.Kept (s : SchedulerState N C F) (tid : Nat) : IoCall → Prop
  | .idle => True
  | .probing source woken =>
    ∃ slot, s.slotOf tid = some slot ∧ slot.ioProbeSource = some source ∧ (woken = true → slot.ioProbeNotified = true)
  | .asleep source woken =>
    woken = false ∧ ∃ slot, s.slotOf tid = some slot ∧ slot.ioWait = true ∧ (slot.ioSource = .any ∨ slot.ioSource = source)

variable {call : IoCall}

theorem IoCall.Kept.congr {s s' : SchedulerState N C F} {tid : Nat} (h : call.Kept s tid)
    (hs : s'.slotOf tid = s.slotOf tid) : call.Kept s' tid := by
  cases call with
  | idle => trivial
  | probing source woken | asleep source woken => rwa [IoCall.Kept, hs]

theorem IoCall.settle_cases (state : ProcessState) (call : IoCall) :
    call.settle state = call ∨ call.settle state = .idle := by
  cases call <;> grind [settle]

theorem IoCall.settle_settle (state : ProcessState) (call : IoCall) :
    (call.settle state).settle state = call.settle state := by
  rcases settle_cases state call with h | h
  · rw [h, h]
  · rw [h]
    rfl

/-- The state of a task that is in a call. -/
theorem IoCall.settle_eq {state : ProcessState} (h : call.settle state = call) (hne : call ≠ .idle) :
    (∃ source woken, call = .probing source woken ∧ (state = .ready ∨ state = .running)) ∨
      ∃ source woken, call = .asleep source woken ∧ state = .blocked := by
  cases call <;> grind [settle]

namespace IoMachine

variable {N C F : Nat} {m : IoMachine N C F} {sched : SchedulerState N C F} {calls : Nat → IoCall}

structure Sound (m : IoMachine N C F) : Prop where
  consistent : m.sched.table.Consistent
  settled : ∀ tid, (m.calls tid).settle (m.sched.table.stateOf tid) = m.calls tid
  kept : ∀ tid, (m.calls tid).Kept m.sched tid

theorem sound_boot : Sound (boot N C F) := ⟨consistent_new N C, fun _ => rfl, fun _ => trivial⟩

/-- Only the calls that a change leaves under way count. -/
theorem sound_settled (hc : sched.table.Consistent)
    (h : ∀ tid, (calls tid).settle (sched.table.stateOf tid) = calls tid → (calls tid).Kept sched tid) :
    Sound (IoMachine.settled sched calls) := by
  refine ⟨hc, fun tid => IoCall.settle_settle _ _, fun tid => ?_⟩
  show ((calls tid).settle (sched.table.stateOf tid)).Kept sched tid
  rcases IoCall.settle_cases (sched.table.stateOf tid) (calls tid) with heq | heq
  · rw [heq]
    exact h tid heq
  · rw [heq]
    trivial

theorem Sound.update {tid : Nat} {call : IoCall} (h : Sound m) (hl : SchedulerState.Local m.sched tid sched)
    (hk : call.settle (sched.table.stateOf tid) = call → call.Kept sched tid) :
    Sound (IoMachine.settled sched (Function.update m.calls tid call)) := by
  refine sound_settled hl.consistent fun q hq => ?_
  by_cases heq : q = tid
  · subst heq
    rw [Function.update_self] at hq ⊢
    exact hk hq
  · rw [Function.update_of_ne heq]
    exact (h.kept q).congr (hl.slots q heq)

theorem Sound.begin (h : Sound m) (cpu : Fin C) (source : WaitSource) : Sound (m.step (.begin cpu source)) := by
  have hself : Sound (IoMachine.settled m.sched m.calls) := sound_settled h.consistent fun tid _ => h.kept tid
  unfold step beginIoProbe
  dsimp only
  cases hc : m.sched.table.currentPidOn cpu with
  | none => exact hself
  | some tid =>
    dsimp only
    cases hslot : m.sched.slotOf tid with
    | none => exact hself
    | some slot =>
      refine h.update ((SchedulerState.Local.refl h.consistent tid).modifySlot fun _ => rfl) fun _ => ?_
      refine ⟨{ slot with ioProbeSource := some source, ioProbeNotified := false }, ?_, rfl, fun hw => by cases hw⟩
      rw [slotOf_modifySlot (by exact fun _ => rfl), if_pos rfl, hslot]
      rfl

theorem Sound.drop (h : Sound m) (tid : Nat) : Sound (m.step (.drop tid)) := by
  unfold step
  dsimp only
  split
  · exact h.update ((SchedulerState.Local.refl h.consistent tid).modifySlot fun _ => rfl) fun _ => trivial
  · exact h

theorem Sound.complete (h : Sound m) (cpu : Fin C) : Sound (m.step (.complete cpu)) := by
  unfold step completeIoWait
  dsimp only
  cases hc : m.sched.table.currentPidOn cpu with
  | none => exact h
  | some tid => exact h.update ((SchedulerState.Local.refl h.consistent tid).modifySlot fun _ => rfl) fun _ => trivial

/-- The slot of the task that blocks carries no wait for another source. -/
def Admits (m : IoMachine N C F) : IoEvent C → Prop
  | .block cpu _ source _ _ _ _ =>
    ∀ slot ∈ (m.sched.table.currentPidOn cpu).bind m.sched.slotOf,
      slot.ioWait = true → slot.ioSource = .any ∨ slot.ioSource = source
  | _ => True

instance decidableAdmits (m : IoMachine N C F) (event : IoEvent C) : Decidable (m.Admits event) := by
  unfold Admits
  split <;> infer_instance

theorem Sound.block {cpu : Fin C} {timeout : Int} {source : WaitSource} {now : Nat} {sole canIdle : Bool}
    {eligible : Policy} (h : Sound m) (ha : m.Admits (.block cpu timeout source now sole canIdle eligible)) :
    Sound (m.step (.block cpu timeout source now sole canIdle eligible)) := by
  unfold IoMachine.step
  dsimp only
  cases hc : m.sched.table.currentPidOn cpu with
  | none => exact h
  | some tid =>
    obtain ⟨hlocal, hasleep⟩ :=
      blockCurrentForIoOn_spec h.consistent hc timeout source now sole canIdle eligible
    refine h.update hlocal fun hs => ?_
    -- the call is under way only if the task is blocked
    obtain ⟨_, _, hx, -⟩ | ⟨_, _, -, hblocked⟩ := IoCall.settle_eq hs (by simp)
    · cases hx
    obtain ⟨slot, hslot, hprobe, hnot, slot', hslot', hwait, hsource⟩ := (hasleep hblocked).probe
    refine ⟨?_, slot', hslot', hwait, ?_⟩
    · -- a wake since the probe was armed would have notified it
      have hkept := h.kept tid
      cases hcall : m.calls tid <;> grind [IoCall.Kept, IoCall.woken]
    · have := ha slot (by rw [hc]; exact hslot)
      grind

theorem Sound.wake (h : Sound m) (event : WaitSource) : Sound (m.step (.wake event)) := by
  have hwoken := foldl_wakeContext event (List.finRange N) 0 m.sched h.consistent
  refine sound_settled hwoken.consistent fun tid hs => ?_
  have hkept := h.kept tid
  cases hcall : m.calls tid with
  | idle => trivial
  | probing source woken =>
    rw [hcall] at hkept
    obtain ⟨slot, hslot, hprobe, hw⟩ := hkept
    obtain ⟨slot', hslot', hheard, htold, -⟩ := hwoken.slotOf hslot
    refine ⟨slot', hslot', hheard.probe.trans hprobe, fun hor => ?_⟩
    rcases Bool.or_eq_true_iff.1 hor with hwas | hnow
    · exact hheard.notified (hw hwas)
    · exact htold (by rw [hprobe]; exact hnow)
  | asleep source woken =>
    rw [hcall] at hkept hs
    obtain ⟨rfl, slot, hslot, hwait, hsource⟩ := hkept
    obtain ⟨slot', hslot', hheard, -, hroused⟩ := hwoken.slotOf hslot
    obtain ⟨_, _, hx, -⟩ | ⟨_, _, -, hblocked⟩ := IoCall.settle_eq hs (by simp [IoCall.notice])
    · cases hx
    refine ⟨?_, slot', hslot', hheard.wait.trans hwait, by rwa [hheard.source]⟩
    rw [Bool.eq_false_iff]
    exact fun hby => hroused hwait (WaitSource.wokenBy_of_covers hsource hby) hblocked

theorem Sound.other (h : Sound m) (activity : Activity C) : Sound (m.step (.other activity)) := by
  have hacted := act_spec h.consistent activity
  refine sound_settled hacted.consistent fun tid hs => ?_
  by_cases hidle : m.calls tid = .idle
  · rw [hidle]
    trivial
  refine (h.kept tid).congr (hacted.slots tid ?_ ?_)
  · obtain ⟨_, _, -, hst | hst⟩ | ⟨_, _, -, hst⟩ := IoCall.settle_eq (h.settled tid) hidle <;> rw [hst] <;> decide
  · obtain ⟨_, _, -, hst | hst⟩ | ⟨_, _, -, hst⟩ := IoCall.settle_eq hs hidle <;> rw [hst] <;> decide

theorem Sound.step (h : Sound m) {event : IoEvent C} (ha : m.Admits event) : Sound (m.step event) := by
  cases event with
  | begin => exact h.begin ..
  | drop tid => exact h.drop tid
  | complete cpu => exact h.complete cpu
  | block cpu timeout source now sole canIdle eligible => exact h.block ha
  | wake => exact h.wake ..
  | other => exact h.other ..

theorem Sound.not_lost (h : Sound m) (tid : Nat) : ¬ m.Lost tid := by
  rintro ⟨source, hcall⟩
  have hkept := h.kept tid
  rw [hcall] at hkept
  cases hkept.1

/-- No wake for I/O is lost: if no task blocks with a wait for another source left in its slot, then no task stays
asleep after its source was woken. -/
theorem no_lost_io_wake (events : List (IoEvent C)) (h : Guarded step Admits (boot N C F) events) (tid : Nat) :
    ¬ (run events (boot N C F)).Lost tid :=
  (h.foldl (fun _ _ hs ha => hs.step ha) sound_boot).not_lost tid

/-- One task waits for a socket and is woken, before its block and after it. -/
def socketRead (cpu : Fin 2) : List (IoEvent 2) :=
  [.other (.start 0 1 none), .other (.dispatch cpu fun _ _ => true), .begin cpu (.network 7),
    .block cpu (-1) (.network 7) 5 false true fun _ _ => true, .wake (.network 7),
    .other (.dispatch cpu fun _ _ => true), .complete cpu, .begin cpu (.network 7), .wake (.network 7),
    .block cpu (-1) (.network 7) 6 false true fun _ _ => true]

theorem no_lost_io_wake_socketRead : Guarded step Admits (boot 2 2 1) (socketRead (Fin.last 1)) ∧
    ¬ (run (socketRead (Fin.last 1)) (boot 2 2 1)).Lost 1 :=
  ⟨by decide +kernel, no_lost_io_wake (socketRead (Fin.last 1)) (by decide +kernel) 1⟩

/-- A signal interrupts the wait for a socket; its handler reads from a pipe. -/
def interruptedRead (cpu : Fin 2) : List (IoEvent 2) :=
  [.other (.start 0 1 none), .other (.dispatch cpu fun _ _ => true), .begin cpu (.network 7),
    .block cpu (-1) (.network 7) 5 false true fun _ _ => true, .other (.wake 1), .other (.dispatch cpu fun _ _ => true),
    .begin cpu (.descriptor 3), .block cpu (-1) (.descriptor 3) 6 false true fun _ _ => true, .wake (.descriptor 3)]

theorem interruptedRead_lost : (run (interruptedRead (Fin.last 1)) (boot 2 2 1)).Lost 1 ∧
    (run (interruptedRead (Fin.last 1)) (boot 2 2 1)).sched.table.stateOf 1 = .blocked :=
  ⟨⟨.descriptor 3, by decide +kernel⟩, by decide +kernel⟩

end IoMachine

end MakOS.Process
