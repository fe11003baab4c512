/-
Events of `kernel/src/ipc.rs`: a thread registers as the waiter of an event under the lock of the IPC state
and blocks later under the lock of the scheduler; a signal wakes the waiter or stays with the event. The
machine runs any interleaving of these parts by the threads of any processes. Channels are left out: a handle
here is one of an event, with the rights to signal it and to wait for it.

A signal between the two parts finds a waiter that is not blocked. The signal stays with the event, but the
thread does not look again and sleeps.
-/
import MakOS.Data.Guarded
import MakOS.Process.Scheduler

namespace MakOS.Process

open MakOS.Data ProcessTable

structure EventHandle where
  object : Fin 8
  ownerPid : Nat
  deriving DecidableEq, Repr

structure Event where
  used : Bool
  signaled : Bool
  ownerPid : Nat
  waiterTid : Nat
  deriving DecidableEq, Repr

def Event.empty : Event := ⟨false, false, 0, 0⟩

structure EventTable where
  handles : Slots (Option EventHandle) 32
  events : Slots Event 8
  deriving DecidableEq, Repr

namespace EventTable

def new : EventTable := ⟨.replicate 32 none, .replicate 8 .empty⟩

def handleIndex (handle : Nat) : Option (Fin 32) :=
  if handle = 0 ∨ 32 < handle then none else some (Fin.ofNat 32 (handle - 1))

def resolveHandle (table : EventTable) (pid handle : Nat) : Option EventHandle :=
  ((handleIndex handle).bind fun index => table.handles[index]).filter fun entry => entry.ownerPid == pid

/-- The event of a handle, as signals and waits find it -/
def eventOf (table : EventTable) (pid handle : Nat) : Option (Fin 8) :=
  ((table.resolveHandle pid handle).filter fun entry =>
    table.events[entry.object].used && table.events[entry.object].ownerPid == entry.ownerPid).map EventHandle.object

/-- `create_event`: the event and its handle -/
def createEvent (table : EventTable) (pid : Nat) (signaled : Bool) : Option (Fin 8 × Nat) × EventTable :=
  match slot? (fun event : Event => !event.used) table.events, slot? Option.isNone table.handles with
  | some object, some index =>
    (some (object, index + 1),
      ⟨table.handles.set index (some ⟨object, pid⟩), table.events.set object ⟨true, signaled, pid, 0⟩⟩)
  | _, _ => (none, table)

/-- `prepare_event_wait`: whether the task has to block -/
def prepareEventWait (table : EventTable) (pid handle tid : Nat) : Option (Fin 8 × Bool) × EventTable :=
  match table.eventOf pid handle with
  | none => (none, table)
  | some object =>
    let event := table.events[object]
    if event.signaled then
      (some (object, false), { table with events := table.events.set object { event with signaled := false } })
    else if event.waiterTid = 0 then
      (some (object, true), { table with events := table.events.set object { event with waiterTid := tid } })
    else (none, table)

/-- The end of a wait that could not block -/
def abandon (table : EventTable) (tid : Nat) : EventTable :=
  { table with
    events := table.events.map fun event => if event.used && event.waiterTid == tid then { event with waiterTid := 0 } else event }

/-- Events without a handle are freed. -/
def collect (table : EventTable) (objects : List (Fin 8)) : EventTable :=
  { table with
    events := objects.foldl (fun events object =>
      if table.handles.toList.any fun entry => entry.any (·.object == object) then events
      else events.set object .empty) table.events }

def close (table : EventTable) (pid handle : Nat) : EventTable :=
  match handleIndex handle, table.resolveHandle pid handle with
  | some index, some entry => collect { table with handles := table.handles.set index none } [entry.object]
  | _, _ => table

def closeAll (table : EventTable) (pid : Nat) : EventTable :=
  collect { table with
            handles := table.handles.map (Option.filter fun entry => entry.ownerPid != pid) }
    (List.finRange 8)

end EventTable

namespace SchedulerState

variable {N C F : Nat}

def blockCurrentForIpc (s : SchedulerState N C F) (cpu : Fin C) (canIdle : Bool) (eligible : Policy) :
    Bool × SchedulerState N C F :=
  match s.table.currentPidOn cpu with
  | none => (false, s)
  | some tid => if (s.slotOf tid).isNone then (false, s) else s.sleepCurrent cpu tid canIdle eligible id

end SchedulerState

/-! ## The machine -/

/-- Where a task stands in a wait. The flag says whether a signal of the event was accepted since the task registered;
no code reads it. -/
inductive EventCall
  | idle
  | registered (object : Fin 8) (signalled : Bool)
  | asleep (object : Fin 8) (signalled : Bool)
  | leaving
  deriving DecidableEq, Repr

namespace EventCall

def sleepsOn (object : Fin 8) : EventCall → Bool
  | .asleep own _ => own == object
  | _ => false

def objectOf : EventCall → Option (Fin 8)
  | .registered object _ => some object
  | .asleep object _ => some object
  | _ => none

/-- A signal of an event is accepted. -/
def notice (object : Fin 8) : EventCall → EventCall
  | .registered own signalled => .registered own (signalled || own == object)
  | .asleep own signalled => .asleep own (signalled || own == object)
  | call => call

/-- A wait ends when its event is freed; a task that sleeps is blocked, and one that does not can run. -/
def settle (used : Fin 8 → Bool) (state : ProcessState) : EventCall → EventCall
  | .idle => .idle
  | .registered object signalled =>
    if used object = true ∧ (state = .ready ∨ state = .running) then .registered object signalled else .idle
  | .asleep object signalled => if used object = true ∧ state = .blocked then .asleep object signalled else .idle
  | .leaving => if state = .ready ∨ state = .running then .leaving else .idle

end EventCall

/-- `credits` counts the accepted signals of an event that no wait has consumed. -/
structure EventMachine (N C F : Nat) where
  sched : SchedulerState N C F
  table : EventTable
  calls : Nat → EventCall
  credits : Fin 8 → Nat

inductive EventStep (C : Nat)
  | create (cpu : Fin C) (signaled : Bool)
  | signal (cpu : Fin C) (handle : Nat)
  | prepare (cpu : Fin C) (handle : Nat)
  | block (cpu : Fin C) (canIdle : Bool) (eligible : Policy)
  | abandon (cpu : Fin C)
  | close (cpu : Fin C) (handle : Nat)
  | closeAll (pid : Nat)
  | other (activity : Activity C)

namespace EventMachine

variable {N C F : Nat}

def boot (N C F : Nat) : EventMachine N C F := ⟨.new N C F, .new, fun _ => .idle, fun _ => 0⟩

def settled (sched : SchedulerState N C F) (table : EventTable) (calls : Nat → EventCall) (credits : Fin 8 → Nat) :
    EventMachine N C F :=
  ⟨sched, table, fun tid => (calls tid).settle (fun object => table.events[object].used) (sched.table.stateOf tid),
    fun object => if table.events[object].used then credits object else 0⟩

/-- `current_pid` -/
def groupOn (m : EventMachine N C F) (cpu : Fin C) : Nat :=
  (((m.sched.table.currentPidOn cpu).bind m.sched.slotOf).map ContextSlot.groupPid).getD 0

/-- The call of the current task of a CPU -/
def callOn (m : EventMachine N C F) (cpu : Fin C) : EventCall :=
  ((m.sched.table.currentPidOn cpu).map m.calls).getD .idle

def create (m : EventMachine N C F) (cpu : Fin C) (signaled : Bool) : EventMachine N C F :=
  match m.table.createEvent (m.groupOn cpu) signaled with
  | (none, _) => m
  | (some (object, _), table) =>
    settled m.sched table m.calls (Function.update m.credits object (if signaled then 1 else 0))

/-- `signal_event`. A task that it wakes from a wait for the event consumes the signal. -/
def signal (m : EventMachine N C F) (cpu : Fin C) (handle : Nat) : EventMachine N C F :=
  match m.table.eventOf (m.groupOn cpu) handle with
  | none => m
  | some object =>
    let event := m.table.events[object]
    let result := if event.waiterTid = 0 then (false, m.sched) else m.sched.wakeTask event.ownerPid event.waiterTid
    let event := { event with waiterTid := 0, signaled := if result.1 then event.signaled else true }
    settled result.2 { m.table with events := m.table.events.set object event } (fun tid => (m.calls tid).notice object)
      (Function.update m.credits object
        (if result.1 && (m.calls m.table.events[object].waiterTid).sleepsOn object then 0 else m.credits object + 1))

/-- `prepare_event_wait`, by a task that is in no wait. A wait that does not block consumes the signals there are. -/
def prepare (m : EventMachine N C F) (cpu : Fin C) (handle : Nat) : EventMachine N C F :=
  match m.sched.table.currentPidOn cpu with
  | none => m
  | some tid =>
    if m.calls tid ≠ .idle then m
    else match m.table.prepareEventWait (m.groupOn cpu) handle tid with
      | (none, _) => m
      | (some (object, false), table) => settled m.sched table m.calls (Function.update m.credits object 0)
      | (some (object, true), table) =>
        settled m.sched table (Function.update m.calls tid (.registered object false)) m.credits

/-- The rest of `wait_event_from_exception` -/
def block (m : EventMachine N C F) (cpu : Fin C) (canIdle : Bool) (eligible : Policy) : EventMachine N C F :=
  match m.sched.table.currentPidOn cpu with
  | none => m
  | some tid =>
    match m.calls tid with
    | .registered object signalled =>
      let result := m.sched.blockCurrentForIpc cpu canIdle eligible
      settled result.2 m.table
        (Function.update m.calls tid (if result.1 then .asleep object signalled else .leaving)) m.credits
    | _ => m

def abandon (m : EventMachine N C F) (cpu : Fin C) : EventMachine N C F :=
  match m.sched.table.currentPidOn cpu with
  | none => m
  | some tid =>
    if m.calls tid ≠ .leaving then m
    else settled m.sched (m.table.abandon tid) (Function.update m.calls tid .idle) m.credits

/-- A task within a wait does not block for another reason or exit. -/
def free (m : EventMachine N C F) : Activity C → Bool
  | .block cpu _ _ => m.callOn cpu == .idle
  | .exit cpu _ _ => m.callOn cpu == .idle
  | _ => true

def other (m : EventMachine N C F) (activity : Activity C) : EventMachine N C F :=
  if m.free activity then settled (m.sched.act activity) m.table m.calls m.credits else m

def step (m : EventMachine N C F) : EventStep C → EventMachine N C F
  | .create cpu signaled => m.create cpu signaled
  | .signal cpu handle => m.signal cpu handle
  | .prepare cpu handle => m.prepare cpu handle
  | .block cpu canIdle eligible => m.block cpu canIdle eligible
  | .abandon cpu => m.abandon cpu
  | .close cpu handle => settled m.sched (m.table.close (m.groupOn cpu) handle) m.calls m.credits
  | .closeAll pid => settled m.sched (m.table.closeAll pid) m.calls m.credits
  | .other activity => m.other activity

def run (events : List (EventStep C)) (m : EventMachine N C F) : EventMachine N C F := events.foldl step m

/-- A task is still asleep although a signal of its event was accepted after it had registered. -/
def Lost (m : EventMachine N C F) (tid : Nat) : Prop := ∃ object, m.calls tid = .asleep object true

/-- Signals that no wait has consumed stay with their event. -/
def Remembered (m : EventMachine N C F) : Prop := ∀ object : Fin 8, 0 < m.credits object ↔ m.table.events[object].signaled = true

end EventMachine

/-! ## Tables of events -/

namespace EventTable

variable {table : EventTable} {pid handle tid : Nat} {object : Fin 8}

theorem eventOf_some (h : table.eventOf pid handle = some object) :
    table.events[object].used = true ∧ table.events[object].ownerPid = pid := by
  obtain ⟨entry, hentry, rfl⟩ := Option.map_eq_some_iff.1 h
  obtain ⟨hresolve, hevent⟩ := Option.filter_eq_some_iff.1 hentry
  have howner := (Option.filter_eq_some_iff.1 hresolve).2
  simp only [Bool.and_eq_true, beq_iff_eq] at hevent howner
  exact ⟨hevent.1, hevent.2.trans howner⟩

theorem collect_event (objects : List (Fin 8)) (other : Fin 8) :
    (table.collect objects).events[other] = table.events[other] ∨ (table.collect objects).events[other] = .empty := by
  have main : ∀ (objects : List (Fin 8)) (events : Slots Event 8),
      (events[other] = table.events[other] ∨ events[other] = .empty) →
      ((objects.foldl (fun events object =>
        if table.handles.toList.any fun entry => entry.any (·.object == object) then events
        else events.set object .empty) events)[other] = table.events[other] ∨
      (objects.foldl (fun events object =>
        if table.handles.toList.any fun entry => entry.any (·.object == object) then events
        else events.set object .empty) events)[other] = .empty) := by
    intro objects
    induction objects with
    | nil => exact fun events h => h
    | cons object rest ih => exact fun events h => ih _ (by grind)
  exact main objects table.events (.inl rfl)

theorem close_event (table : EventTable) (pid handle : Nat) (other : Fin 8) :
    (table.close pid handle).events[other] = table.events[other] ∨ (table.close pid handle).events[other] = .empty := by
  unfold close
  split
  · exact collect_event _ other
  · exact .inl rfl

end EventTable

namespace SchedulerState

variable {N C F : Nat} {s s' : SchedulerState N C F} {tid : Nat} {cpu : Fin C}

theorem wakeTask_spec (h : s.table.Consistent) (groupPid tid : Nat) :
    let result := s.wakeTask groupPid tid
    result.2.table.Consistent ∧ (∀ q, result.2.slotOf q = s.slotOf q) ∧
      (∀ q, result.2.table.stateOf q =
        if result.1 = true ∧ q = tid then .ready else s.table.stateOf q) ∧
      (result.1 = true → s.table.stateOf tid = .blocked) ∧
      (∀ slot, s.slotOf tid = some slot → slot.groupPid = groupPid → s.table.stateOf tid = .blocked →
        result.1 = true) := by
  dsimp only
  unfold wakeTask
  split
  · refine ⟨h.wake tid, fun _ => rfl, fun q => ?_, wake_true.1, fun _ _ _ hb => wake_true.2 hb⟩
    have hwake := stateOf_wake h.toNamed tid q
    have hwoken : (s.table.wake tid).1 = true ↔ _ := wake_true
    grind [wakeTid]
  rename_i hno
  refine ⟨h, fun _ => rfl, fun q => ?_, fun hf => (by cases hf), fun slot hslot hgroup _ => ?_⟩
  · rw [if_neg (by simp)]
  refine absurd (List.any_eq_true.2 ⟨slot, ?_, ?_⟩) hno
  · obtain ⟨i, -, hi⟩ := Option.map_eq_some_iff.1 hslot
    exact Slots.mem_toList.2 ⟨i, hi⟩
  · simp [slotOf_some hslot, hgroup]

theorem blockCurrentForIpc_spec (h : s.table.Consistent) (hc : s.table.currentPidOn cpu = some tid) (canIdle : Bool)
    (eligible : Policy) :
    let result := s.blockCurrentForIpc cpu canIdle eligible
    Local s tid result.2 ∧
      result.2.slotOf tid = s.slotOf tid ∧
      result.2.table.stateOf tid =
        (if result.1 then .blocked else .running) ∧
      (result.1 = true → s.slotOf tid ≠ none) := by
  dsimp only
  unfold blockCurrentForIpc
  rw [hc]
  dsimp only
  split
  · exact ⟨Local.refl h tid, rfl, running_current h hc, fun hf => by cases hf⟩
  rename_i hslot
  obtain ⟨sleeps, s', hsleep, hslept⟩ := sleepCurrent_slept h hc
    (fun _ => rfl : ∀ slot : ContextSlot, (id slot).pid = slot.pid) canIdle eligible
  rw [hsleep]
  refine ⟨hslept.alone, hslept.slot.trans ?_, hslept.state, fun _ hnone => hslot (by rw [hnone]; rfl)⟩
  simp

end SchedulerState

/-! ## No signal is lost -/

namespace EventCall

variable {used : Fin 8 → Bool} {state : ProcessState} {call : EventCall}

theorem settle_cases (used : Fin 8 → Bool) (state : ProcessState) (call : EventCall) :
    call.settle used state = call ∨ call.settle used state = .idle := by
  cases call <;> grind [settle]

/-- What a task has to be for its call to go on. -/
def Fits (used : Fin 8 → Bool) (state : ProcessState) : EventCall → Prop
  | .idle => True
  | .registered object _ => used object = true ∧ (state = .ready ∨ state = .running)
  | .asleep object _ => used object = true ∧ state = .blocked
  | .leaving => state = .ready ∨ state = .running

theorem settle_eq_iff : call.settle used state = call ↔ call.Fits used state := by
  cases call <;> grind [settle, Fits]

theorem Fits.ne_empty (h : call.Fits used state) (hne : call ≠ .idle) : state ≠ .empty := by
  cases call <;> grind [Fits]

theorem Fits.event_used {object : Fin 8} (h : call.Fits used state) (ho : call.objectOf = some object) : used object = true := by
  cases call <;> grind [Fits, objectOf]

theorem settle_fits (used : Fin 8 → Bool) (state : ProcessState) (call : EventCall) :
    (call.settle used state).Fits used state := by
  rcases settle_cases used state call with h | h
  · rw [h]
    exact settle_eq_iff.1 h
  · rw [h]
    trivial

end EventCall

namespace EventMachine

variable {N C F : Nat} {m : EventMachine N C F} {sched : SchedulerState N C F} {table : EventTable}
  {calls : Nat → EventCall} {credits : Fin 8 → Nat} {cpu : Fin C}

/-- What the slot of a task and the event say about its call. A task is the waiter of the event as long as no signal
was accepted. -/
def Kept (sched : SchedulerState N C F) (table : EventTable) (tid : Nat) : EventCall → Prop
  | .idle => True
  | .registered object signalled =>
    (signalled = false ↔ table.events[object].waiterTid = tid) ∧
      ∀ slot, sched.slotOf tid = some slot → slot.groupPid = table.events[object].ownerPid
  | .asleep object signalled =>
    signalled = false ∧ table.events[object].waiterTid = tid ∧
      ∃ slot, sched.slotOf tid = some slot ∧ slot.groupPid = table.events[object].ownerPid
  | .leaving => True

/-- An event is not signaled while a task waits for it, and remembers the signals that were not consumed. -/
structure Fair (event : Event) (credit : Nat) : Prop where
  unused : event.used = false → event = .empty
  waiting : event.waiterTid ≠ 0 → event.signaled = false
  credit : 0 < credit ↔ event.signaled = true

theorem fair_empty : Fair .empty 0 := ⟨fun _ => rfl, fun _ => rfl, by simp [Event.empty]⟩

structure Sound (m : EventMachine N C F) : Prop where
  consistent : m.sched.table.Consistent
  fits : ∀ tid, (m.calls tid).Fits (fun object => m.table.events[object].used) (m.sched.table.stateOf tid)
  kept : ∀ tid, Kept m.sched m.table tid (m.calls tid)
  fair : ∀ object : Fin 8, Fair m.table.events[object] (m.credits object)

/-- A signal finds no waiter that is blocked for another reason, and a task that blocks is still the waiter of its
event. -/
def Admits (m : EventMachine N C F) : EventStep C → Prop
  | .signal cpu handle =>
    ∀ object ∈ m.table.eventOf (m.groupOn cpu) handle,
      m.sched.table.stateOf m.table.events[object].waiterTid = .blocked →
        (m.calls m.table.events[object].waiterTid).sleepsOn object = true
  | .block cpu _ _ =>
    ∀ tid ∈ m.sched.table.currentPidOn cpu, ∀ object : Fin 8,
      m.calls tid = .registered object false ∨ m.calls tid = .registered object true →
        m.table.events[object].waiterTid = tid
  | _ => True

instance decidableAdmits (m : EventMachine N C F) (event : EventStep C) : Decidable (m.Admits event) := by
  unfold Admits
  split <;> infer_instance

/-- Only the calls that a change leaves under way count, and the events it leaves in use. -/
theorem sound_settled (hc : sched.table.Consistent)
    (hf : ∀ object : Fin 8, table.events[object] = .empty ∨ Fair table.events[object] (credits object))
    (hk : ∀ tid, (calls tid).Fits (fun object => table.events[object].used) (sched.table.stateOf tid) →
      Kept sched table tid (calls tid)) : Sound (settled sched table calls credits) := by
  refine ⟨hc, fun tid => EventCall.settle_fits _ _ _, fun tid => ?_, fun object => ?_⟩
  · show Kept sched table tid ((calls tid).settle _ _)
    rcases EventCall.settle_cases (fun object => table.events[object].used) (sched.table.stateOf tid) (calls tid) with heq | heq
    · rw [heq]
      exact hk tid (EventCall.settle_eq_iff.1 heq)
    · rw [heq]
      trivial
  · show Fair table.events[object] (if table.events[object].used then credits object else 0)
    rcases hf object with hempty | hfair
    · rw [hempty]
      exact fair_empty
    split
    · exact hfair
    · rw [hfair.unused (Bool.eq_false_iff.2 ‹_›)]
      exact fair_empty

open EventTable

theorem sound_boot : Sound (boot N C F) := by
  refine ⟨consistent_new N C, fun _ => trivial, fun _ => trivial, fun object => ?_⟩
  rw [show (boot N C F).table.events[object] = .empty from getElem_replicate]
  exact fair_empty

variable {sched' : SchedulerState N C F} {tid : Nat} {call : EventCall}

theorem Kept.congr {table' : EventTable} (h : Kept sched table tid call) (hs : sched'.slotOf tid = sched.slotOf tid)
    (hw : ∀ object, call.objectOf = some object →
      (table'.events[object].waiterTid = tid ↔ table.events[object].waiterTid = tid) ∧
        table'.events[object].ownerPid = table.events[object].ownerPid) : Kept sched' table' tid call := by
  cases call with
  | idle => trivial
  | registered object signalled =>
    obtain ⟨hwaiter, howner⟩ := hw object rfl
    refine ⟨h.1.trans hwaiter.symm, fun slot hslot => ?_⟩
    rw [howner]
    exact h.2 slot (hs ▸ hslot)
  | asleep object signalled =>
    obtain ⟨hwaiter, howner⟩ := hw object rfl
    obtain ⟨slot, hslot, hgroup⟩ := h.2.2
    exact ⟨h.1, hwaiter.2 h.2.1, slot, hs.trans hslot, hgroup.trans howner.symm⟩
  | leaving => trivial

variable (h : Sound m)
include h

theorem Sound.stateOf_ne (hne : m.calls tid ≠ .idle) : m.sched.table.stateOf tid ≠ .empty :=
  (h.fits tid).ne_empty hne

variable {object : Fin 8}

theorem Sound.ne_zero (ho : (m.calls tid).objectOf = some object) : tid ≠ 0 := by
  rintro rfl
  refine h.stateOf_ne (fun hidle => ?_) (SchedulerState.stateOf_zero h.consistent)
  rw [hidle] at ho
  cases ho

omit h

theorem Fair.set {event : Event} {credit : Nat} (hf : Fair event credit)
    (h : ∀ object : Fin 8, Fair table.events[object] (credits object)) (object other : Fin 8) :
    Fair (table.events.set object event)[other] (Function.update credits object credit other) := by
  rw [getElem_set, Function.update_apply]
  split
  · exact hf
  · exact h other

theorem Sound.create (h : Sound m) (cpu : Fin C) (signaled : Bool) : Sound (m.step (.create cpu signaled)) := by
  show Sound (m.create cpu signaled)
  unfold EventMachine.create createEvent
  split
  · exact h
  rename_i object handle table heq
  split at heq
  · rename_i free index hfree _
    cases heq
    have hunused : m.table.events[object].used = false := by simpa using slot?_some hfree
    have hfair : Fair ⟨true, signaled, m.groupOn cpu, 0⟩ (if signaled then 1 else 0) :=
      ⟨nofun, fun hw => absurd rfl hw, by cases signaled <;> simp⟩
    refine sound_settled h.consistent (fun other => .inr (hfair.set h.fair object other)) fun tid _ => ?_
    refine (h.kept tid).congr rfl fun other ho => ?_
    -- no task waits for an event that was not used
    have := (h.fits tid).event_used ho
    grind
  · cases heq

/-- What a signal does to calls: a task that registered is no longer the waiter. -/
theorem Kept.notice {event : Event}
    (h : Kept sched table tid call) (hs : sched'.slotOf tid = sched.slotOf tid) (h0 : call.objectOf = some object → tid ≠ 0)
    (hawake : ∀ signalled, call ≠ .asleep object signalled) (hw : event.waiterTid = 0)
    (ho : event.ownerPid = table.events[object].ownerPid) :
    Kept sched' { table with events := table.events.set object event } tid (call.notice object) := by
  cases call with
  | idle => trivial
  | registered own signalled =>
    obtain ⟨hwaiter, hgroup⟩ := h
    refine ⟨?_, fun slot hslot => ?_⟩
    · grind [EventCall.objectOf]
    · grind
  | asleep own signalled =>
    obtain ⟨hsignalled, hwaiter, slot, hslot, hgroup⟩ := h
    refine ⟨?_, ?_, slot, hs.trans hslot, ?_⟩ <;> grind
  | leaving => trivial

include h

theorem Sound.signal {handle : Nat} (ha : m.Admits (.signal cpu handle)) : Sound (m.step (.signal cpu handle)) := by
  show Sound (m.signal cpu handle)
  unfold EventMachine.signal
  cases hobject : m.table.eventOf (m.groupOn cpu) handle with
  | none => exact h
  | some object =>
    obtain ⟨hused, -⟩ := eventOf_some hobject
    have hguard := ha object hobject
    dsimp only
    set event := m.table.events[object]
    -- the wake
    obtain ⟨woken, sched, hresult, hcon, hslots, hwoken, hasleep⟩ : ∃ woken sched,
        (if event.waiterTid = 0 then (false, m.sched) else m.sched.wakeTask event.ownerPid event.waiterTid) = (woken, sched) ∧
        sched.table.Consistent ∧ (∀ q, sched.slotOf q = m.sched.slotOf q) ∧
        (woken = true → event.waiterTid ≠ 0 ∧ m.sched.table.stateOf event.waiterTid = .blocked) ∧
        ∀ q signalled, m.calls q = .asleep object signalled → sched.table.stateOf q ≠ .blocked := by
      split
      · rename_i hzero
        refine ⟨false, m.sched, rfl, h.consistent, fun _ => rfl, fun hf => (by cases hf), fun q signalled hq => ?_⟩
        have hkept := h.kept q
        rw [hq] at hkept
        exact absurd (hkept.2.1.symm.trans hzero) (h.ne_zero (by rw [hq]; rfl))
      rename_i hzero
      obtain ⟨hcon, hslots, hstates, hblocked, hwakes⟩ :=
        SchedulerState.wakeTask_spec h.consistent event.ownerPid event.waiterTid
      generalize m.sched.wakeTask event.ownerPid event.waiterTid = result at *
      obtain ⟨woken, sched⟩ := result
      refine ⟨woken, sched, rfl, hcon, hslots, fun hw => ⟨hzero, hblocked hw⟩, fun q signalled hq => ?_⟩
      have hkept := h.kept q
      have hfits := h.fits q
      rw [hq] at hkept hfits
      obtain ⟨-, hwaiter, slot, hslot, hgroup⟩ := hkept
      have hwake := hwakes slot (hwaiter ▸ hslot) hgroup (hwaiter ▸ hfits.2)
      rw [hstates, if_pos ⟨hwake, hwaiter.symm⟩]
      decide
    rw [hresult]
    have hserved : (woken && (m.calls event.waiterTid).sleepsOn object) = woken := by
      cases woken with
      | false => rfl
      | true => rw [hguard (hwoken rfl).2]; rfl
    rw [hserved]
    refine sound_settled hcon (fun other => .inr (Fair.set ⟨fun hu => ?_, fun hw => absurd rfl hw, ?_⟩ h.fair object other))
      fun tid hfits => ?_
    · cases hused.symm.trans hu
    · cases woken with
      | false => simp
      | true => simpa using (h.fair object).waiting (hwoken rfl).1
    · refine (h.kept tid).notice (hslots tid) (fun ho => h.ne_zero ho) (fun signalled hcall => ?_) rfl rfl
      rw [hcall] at hfits
      exact hasleep tid signalled hcall hfits.2

theorem Sound.prepare (cpu : Fin C) (handle : Nat) : Sound (m.step (.prepare cpu handle)) := by
  show Sound (m.prepare cpu handle)
  unfold EventMachine.prepare
  cases hc : m.sched.table.currentPidOn cpu with
  | none => exact h
  | some tid =>
    dsimp only
    split
    · exact h
    unfold prepareEventWait
    cases hobject : m.table.eventOf (m.groupOn cpu) handle with
    | none => exact h
    | some object =>
      obtain ⟨hused, howner⟩ := eventOf_some hobject
      dsimp only
      by_cases hsignaled : m.table.events[object].signaled = true
      · -- the signal is there
        rw [if_pos hsignaled]
        refine sound_settled h.consistent (fun other => .inr (Fair.set ⟨fun hu => ?_, fun _ => rfl, by simp⟩ h.fair object other))
          fun q _ => ?_
        · cases hused.symm.trans hu
        exact (h.kept q).congr rfl fun other _ => by grind
      rw [if_neg hsignaled]
      by_cases hzero : m.table.events[object].waiterTid = 0
      · -- the task registers
        rw [if_pos hzero]
        have hfair : Fair { m.table.events[object] with waiterTid := tid } (m.credits object) :=
          ⟨fun hu => (by cases hused.symm.trans hu), fun _ => Bool.eq_false_iff.2 hsignaled, (h.fair object).credit⟩
        have hfair := hfair.set h.fair object
        rw [Function.update_eq_self] at hfair
        refine sound_settled h.consistent (fun other => .inr (hfair other)) fun q _ => ?_
        by_cases hq : q = tid
        · subst hq
          rw [Function.update_self]
          refine ⟨by grind, fun slot hslot => ?_⟩
          rw [howner, groupOn, hc]
          simp [hslot]
        rw [Function.update_of_ne hq]
        refine (h.kept q).congr rfl fun other ho => ?_
        have := h.ne_zero ho
        grind
      · rw [if_neg hzero]
        exact h

theorem Sound.block {canIdle : Bool} {eligible : Policy} (ha : m.Admits (.block cpu canIdle eligible)) :
    Sound (m.step (.block cpu canIdle eligible)) := by
  show Sound (m.block cpu canIdle eligible)
  unfold EventMachine.block
  cases hc : m.sched.table.currentPidOn cpu with
  | none => exact h
  | some tid =>
    dsimp only
    split
    · rename_i object signalled hcall
      obtain ⟨hlocal, hslot, -, hsome⟩ := SchedulerState.blockCurrentForIpc_spec h.consistent hc canIdle eligible
      have hwaiter : m.table.events[object].waiterTid = tid := by
        refine ha tid hc object ?_
        cases signalled with
        | false => exact .inl hcall
        | true => exact .inr hcall
      have hkept := h.kept tid
      rw [hcall] at hkept
      generalize m.sched.blockCurrentForIpc cpu canIdle eligible = result at hlocal hslot hsome ⊢
      obtain ⟨sleeps, sched⟩ := result
      refine sound_settled hlocal.consistent (fun object => .inr (h.fair object)) fun q _ => ?_
      by_cases hq : q = tid
      · subst hq
        rw [Function.update_self]
        cases sleeps with
        | false => trivial
        | true =>
          obtain ⟨slot, hs⟩ := Option.ne_none_iff_exists'.1 (hsome rfl)
          exact ⟨hkept.1.2 hwaiter, hwaiter, slot, hslot.trans hs, hkept.2 slot hs⟩
      · rw [Function.update_of_ne hq]
        exact (h.kept q).congr (hlocal.slots q hq) fun _ _ => ⟨Iff.rfl, rfl⟩
    · exact h

theorem Sound.abandon (cpu : Fin C) : Sound (m.step (.abandon cpu)) := by
  show Sound (m.abandon cpu)
  unfold EventMachine.abandon
  cases hc : m.sched.table.currentPidOn cpu with
  | none => exact h
  | some tid =>
    dsimp only
    split
    · exact h
    have hevent : ∀ object : Fin 8, (m.table.abandon tid).events[object] =
        if m.table.events[object].used && m.table.events[object].waiterTid == tid then
          { m.table.events[object] with waiterTid := 0 } else m.table.events[object] := fun object => getElem_map _
    refine sound_settled h.consistent (fun object => .inr ?_) fun q _ => ?_
    · rw [hevent]
      split
      · exact ⟨fun hu => by simp_all, fun hw => absurd rfl hw, (h.fair object).credit⟩
      · exact h.fair object
    · by_cases hq : q = tid
      · subst hq
        rw [Function.update_self]
        trivial
      rw [Function.update_of_ne hq]
      refine (h.kept q).congr rfl fun object ho => ?_
      have := h.ne_zero ho
      grind

theorem Sound.freed (he : ∀ object : Fin 8, table.events[object] = m.table.events[object] ∨
    table.events[object] = .empty) : Sound (settled m.sched table m.calls m.credits) := by
  refine sound_settled h.consistent (fun object => (he object).symm.imp_right fun heq => ?_) fun tid hfits => ?_
  · rw [heq]
    exact h.fair object
  refine (h.kept tid).congr rfl fun object ho => ?_
  have := EventCall.Fits.event_used hfits ho
  grind [Event.empty]

theorem Sound.other (activity : Activity C) : Sound (m.step (.other activity)) := by
  have hacted := SchedulerState.act_spec h.consistent activity
  show Sound (m.other activity)
  unfold EventMachine.other
  split
  · refine sound_settled hacted.consistent (fun object => .inr (h.fair object)) fun tid hfits => ?_
    by_cases hidle : m.calls tid = .idle
    · rw [hidle]
      trivial
    refine (h.kept tid).congr (hacted.slots tid (h.stateOf_ne hidle) ?_) fun _ _ => ⟨Iff.rfl, rfl⟩
    exact EventCall.Fits.ne_empty hfits hidle
  · exact h

theorem Sound.step {event : EventStep C} (ha : m.Admits event) : Sound (m.step event) := by
  cases event with
  | create => exact h.create ..
  | signal cpu handle => exact h.signal ha
  | prepare => exact h.prepare ..
  | block cpu canIdle eligible => exact h.block ha
  | abandon cpu => exact h.abandon cpu
  | close cpu handle => exact h.freed (close_event _ _ _)
  | closeAll pid => exact h.freed fun _ => collect_event _ _
  | other => exact h.other ..

theorem Sound.not_lost (tid : Nat) : ¬ m.Lost tid := by
  rintro ⟨object, hcall⟩
  have hkept := h.kept tid
  rw [hcall] at hkept
  cases hkept.1

omit h

/-- No signal of an event is lost: if a task blocks only while it is still the waiter of its event, and a signal finds
no waiter that is blocked for another reason, then no task sleeps on an event with a signal accepted since its wait
began, and an event is signaled exactly while it has accepted signals that no wait has consumed. -/
theorem no_lost_signal (events : List (EventStep C)) (h : Guarded step Admits (boot N C F) events) :
    (∀ tid, ¬ (run events (boot N C F)).Lost tid) ∧ (run events (boot N C F)).Remembered :=
  have hsound : Sound (run events (boot N C F)) := h.foldl (fun _ _ hs ha => hs.step ha) sound_boot
  ⟨fun tid => hsound.not_lost tid, fun object => (hsound.fair object).credit⟩

/-- Two threads of a process, on two CPUs. -/
def twoThreads (waiter signaler : Fin 2) : List (EventStep 2) :=
  [.other (.start 0 1 none), .other (.start 1 1 (some 1)), .other (.dispatch waiter fun _ _ => true),
    .other (.dispatch signaler fun _ _ => true), .create waiter false]

/-- The first thread sleeps until the second one signals, and finds a second signal there. -/
def signaledWait (waiter signaler : Fin 2) : List (EventStep 2) :=
  twoThreads waiter signaler ++ [.prepare waiter 1, .block waiter true fun _ _ => true, .signal signaler 1, .other (.dispatch waiter fun _ _ => true),
    .signal signaler 1, .signal signaler 1, .prepare waiter 1]

theorem no_lost_signal_signaledWait : Guarded step Admits (boot 2 2 1) (signaledWait (Fin.last 1) ⟨0, Nat.zero_lt_two⟩) ∧
    (∀ tid, ¬ (run (signaledWait (Fin.last 1) ⟨0, Nat.zero_lt_two⟩) (boot 2 2 1)).Lost tid) ∧ (run (signaledWait (Fin.last 1) ⟨0, Nat.zero_lt_two⟩) (boot 2 2 1)).Remembered :=
  ⟨by decide +kernel, no_lost_signal (signaledWait (Fin.last 1) ⟨0, Nat.zero_lt_two⟩) (by decide +kernel)⟩

/-- The signal is made after the first thread has registered and before it blocks. -/
def missedSignal (waiter signaler : Fin 2) : List (EventStep 2) :=
  twoThreads waiter signaler ++ [.prepare waiter 1, .signal signaler 1, .block waiter true fun _ _ => true]

theorem missedSignal_lost : (run (missedSignal (Fin.last 1) ⟨0, Nat.zero_lt_two⟩) (boot 2 2 1)).Lost 1 ∧
    (run (missedSignal (Fin.last 1) ⟨0, Nat.zero_lt_two⟩) (boot 2 2 1)).sched.table.stateOf 1 = .blocked :=
  ⟨⟨0, by decide +kernel⟩, by decide +kernel⟩

end EventMachine

end MakOS.Process
