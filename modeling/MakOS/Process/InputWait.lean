/-
Waiting for surface events (`SYS_SURFACE_WAIT_EVENT`, `block_current_for_input` and `wake_input_waiters`): a
thread looks at its queue under the lock of the graphics state and blocks later under the lock of the
scheduler. The waker collects the waiters, tests each, and wakes those that are ready, under three holds of
the two locks. The machine runs any interleaving of these parts.

A wake that is over before the thread has blocked does not see it, and a process's surfaces are closed
without a wake; both leave a thread asleep that has something to do.
-/
import MakOS.Data.Guarded
import MakOS.Graphics.Events
import MakOS.Process.Scheduler

namespace MakOS.Process

open MakOS.Data MakOS.Graphics ProcessTable SchedulerState

/-- An entry of the waiters that `wake_input_waiters` collects -/
structure Waiter where
  pid : Nat
  groupPid : Nat
  handle : Nat
  deriving DecidableEq, Repr

def ContextSlot.clearInput (slot : ContextSlot) : ContextSlot := { slot with inputWait := false, inputWaitHandle := 0 }

def ContextSlot.waiter (slot : ContextSlot) : Waiter := ⟨slot.pid, slot.groupPid, slot.inputWaitHandle⟩

namespace SchedulerState

variable {N C F : Nat}

/-- `current_pid`: the group of the task, zero without one -/
def currentGroup (s : SchedulerState N C F) (cpu : Fin C) : Nat :=
  (((s.table.currentPidOn cpu).bind s.slotOf).map ContextSlot.groupPid).getD 0

def blockCurrentForInput (s : SchedulerState N C F) (cpu : Fin C) (handle : Nat) (canIdle : Bool) (eligible : Policy) :
    SchedulerState N C F :=
  match s.table.currentPidOn cpu with
  | none => s
  | some tid =>
    if (s.slotOf tid).isNone then s
    else
      let s := s.modifySlot tid fun slot => { slot with inputWait := true, inputWaitHandle := handle }
      (s.sleepCurrent cpu tid canIdle eligible .clearInput).2

def completeInputWait (s : SchedulerState N C F) (cpu : Fin C) : SchedulerState N C F :=
  match s.table.currentPidOn cpu with
  | none => s
  | some tid => s.modifySlot tid .clearInput

/-- The first part of `wake_input_waiters` -/
def inputWaiters (s : SchedulerState N C F) : List Waiter :=
  (occupied (fun slot => slot.pid != 0 && slot.inputWait) s.contexts).map ContextSlot.waiter

/-- The body of the loop in the last part of `wake_input_waiters` -/
def wakeWaiter (s : SchedulerState N C F) (tested : Waiter × Bool) : SchedulerState N C F :=
  match s.slotOf tested.1.pid with
  | none => s
  | some slot =>
    if !slot.inputWait || slot.waiter ≠ tested.1 then s
    else if !tested.2 then s
    else s.wakeTid tested.1.pid

end SchedulerState

/-! ## The machine -/

/-- A call of `wake_input_waiters`: not begun, or with waiters tested and waiters to be tested. -/
inductive WakeCall
  | called
  | testing (tested : List (Waiter × Bool)) (rest : List Waiter)
  deriving DecidableEq, Repr

/-- `activity` is that of `poll`, which calls the wake at its end. The surface a task sleeps on is kept in `watches`,
which no code reads; handle zero is the keyboard. -/
structure InputMachine (N C F : Nat) where
  sched : SchedulerState N C F
  surfaces : Surfaces
  activity : Bool
  wakes : List WakeCall
  watches : Nat → Option Nat

inductive InputEvent (C : Nat)
  | create (cpu : Fin C) (slot : Nat)
  | destroy (cpu : Fin C) (handle : Nat)
  | closeAll (pid : Nat)
  /-- An event is pushed by `poll`. -/
  | push (index : Fin 8) (event : SurfaceEvent)
  | endPoll
  /-- The first pending wake with this number takes its next part. -/
  | advance (number : Nat)
  /-- A task looks for an event and completes its wait if there is one. -/
  | look (cpu : Fin C) (handle : Nat)
  | block (cpu : Fin C) (handle : Nat) (canIdle : Bool) (eligible : Policy)
  | other (activity : Activity C)

namespace InputMachine

variable {N C F : Nat}

def boot (N C F : Nat) : InputMachine N C F :=
  ⟨.new N C F, .replicate 8 (.blank false 0), false, [], fun _ => none⟩

/-- A task that is no longer blocked does not sleep. -/
def settle (sched : SchedulerState N C F) (watches : Nat → Option Nat) (tid : Nat) : Option Nat :=
  if sched.table.stateOf tid = .blocked then watches tid else none

def reschedule (m : InputMachine N C F) (sched : SchedulerState N C F) : InputMachine N C F :=
  { m with sched, watches := settle sched m.watches }

/-- `ready[index]` -/
def ready (m : InputMachine N C F) (waiter : Waiter) : Bool :=
  waiter.handle == 0 || m.surfaces.eventWaitReady waiter.handle waiter.groupPid

/-- The next part of a wake. -/
def advance (m : InputMachine N C F) (number : Nat) : InputMachine N C F :=
  match m.wakes[number]? with
  | none => m
  | some .called => { m with wakes := m.wakes.set number (.testing [] m.sched.inputWaiters) }
  | some (.testing tested (waiter :: rest)) =>
    { m with wakes := m.wakes.set number (.testing (tested ++ [(waiter, m.ready waiter)]) rest) }
  | some (.testing tested []) =>
    { m with wakes := m.wakes.eraseIdx number }.reschedule (tested.foldl SchedulerState.wakeWaiter m.sched)

/-- A look that finds nothing leaves the task about to block. -/
def look (m : InputMachine N C F) (cpu : Fin C) (handle : Nat) : InputMachine N C F :=
  match m.surfaces.readEvent handle (m.sched.currentGroup cpu) with
  | (none, surfaces) => { m with surfaces }
  | (some _, surfaces) => { m with surfaces, sched := m.sched.completeInputWait cpu }

def block (m : InputMachine N C F) (cpu : Fin C) (handle : Nat) (canIdle : Bool) (eligible : Policy) :
    InputMachine N C F :=
  match m.sched.table.currentPidOn cpu with
  | none => m
  | some tid =>
    { m with watches := Function.update m.watches tid (if handle = 0 then none else some handle) }.reschedule
      (m.sched.blockCurrentForInput cpu handle canIdle eligible)

def destroy (m : InputMachine N C F) (cpu : Fin C) (handle : Nat) : InputMachine N C F :=
  match m.surfaces.destroy handle (m.sched.currentGroup cpu) with
  | (false, surfaces) => { m with surfaces }
  | (true, surfaces) => { m with surfaces, wakes := m.wakes ++ [.called] }

def step (m : InputMachine N C F) : InputEvent C → InputMachine N C F
  | .create cpu slot => { m with surfaces := (m.surfaces.create (m.sched.currentGroup cpu) slot).2 }
  | .destroy cpu handle => m.destroy cpu handle
  | .closeAll pid => { m with surfaces := m.surfaces.closeAll pid }
  | .push index event => { m with surfaces := m.surfaces.deliver index event, activity := true }
  | .endPoll => if m.activity then { m with activity := false, wakes := m.wakes ++ [.called] } else m
  | .advance number => m.advance number
  | .look cpu handle => m.look cpu handle
  | .block cpu handle canIdle eligible => m.block cpu handle canIdle eligible
  | .other activity => m.reschedule (m.sched.act activity)

def run (events : List (InputEvent C)) (m : InputMachine N C F) : InputMachine N C F := events.foldl step m

/-- A task sleeps on a surface that has an event or is gone, and no wake is to come. -/
def Stranded (m : InputMachine N C F) (tid : Nat) : Prop :=
  (∃ handle slot, m.watches tid = some handle ∧ m.sched.slotOf tid = some slot ∧ m.ready ⟨tid, slot.groupPid, handle⟩ = true) ∧
    m.activity = false ∧ m.wakes = []

end InputMachine

/-! ## What the parts of a wake do -/

namespace SchedulerState

variable {N C F : Nat} {s s' : SchedulerState N C F} {tid q : Nat} {cpu : Fin C} {tested : List (Waiter × Bool)}

/-- Tested waiters were woken if they are ready and still wait. -/
structure Roused (tested : List (Waiter × Bool)) (s s' : SchedulerState N C F) : Prop where
  consistent : s'.table.Consistent
  contexts : s'.contexts = s.contexts
  states : ∀ q, s'.table.stateOf q = .blocked → s.table.stateOf q = .blocked
  roused : ∀ slot, (slot.waiter, true) ∈ tested → s.slotOf slot.pid = some slot → slot.inputWait = true →
    s'.table.stateOf slot.pid ≠ .blocked

theorem Roused.slotOf (h : Roused tested s s') (q : Nat) : s'.slotOf q = s.slotOf q := slotOf_congr h.contexts

theorem wakeWaiter_roused (h : s.table.Consistent) (entry : Waiter × Bool) : Roused [entry] s (s.wakeWaiter entry) := by
  have hwake := stateOf_wake h.toNamed entry.1.pid
  have hcon := h.wake entry.1.pid
  -- nothing is done for an entry that is not ready or does not wait any more
  refine ⟨?_, ?_, fun q hq => ?_, fun slot hm hs hw => ?_⟩
  · grind [wakeWaiter, wakeTid]
  · grind [wakeWaiter, wakeTid]
  · grind [wakeWaiter, wakeTid]
  · grind [wakeWaiter, wakeTid, ContextSlot.waiter]

theorem foldl_wakeWaiter (tested : List (Waiter × Bool)) : ∀ {s : SchedulerState N C F}, s.table.Consistent →
    Roused tested s (tested.foldl wakeWaiter s) := by
  induction tested with
  | nil => exact fun h => ⟨h, rfl, fun _ hq => hq, fun _ hm => (by cases hm)⟩
  | cons entry rest ih =>
    intro s h
    have hfirst := wakeWaiter_roused h entry
    have hrest := ih hfirst.consistent
    refine ⟨hrest.consistent, hrest.contexts.trans hfirst.contexts, fun q hq => hfirst.states q (hrest.states q hq), ?_⟩
    rintro slot hm hs hw hb
    rcases List.mem_cons.1 hm with heq | hm
    · exact hfirst.roused slot (heq ▸ List.mem_singleton_self _) hs hw (hrest.states _ hb)
    · exact hrest.roused slot hm ((hfirst.slotOf _).trans hs) hw hb

theorem mem_inputWaiters {slot : ContextSlot} (hs : s.slotOf tid = some slot) (hw : slot.inputWait = true) (h0 : tid ≠ 0) :
    slot.waiter ∈ s.inputWaiters := by
  have hpid := slotOf_some hs
  obtain ⟨i, -, hi⟩ := Option.map_eq_some_iff.1 hs
  refine List.mem_map_of_mem (mem_occupied.2 ⟨⟨i, hi⟩, ?_⟩)
  simp [hpid, hw, h0]

theorem blockCurrentForInput_spec (h : s.table.Consistent) (hc : s.table.currentPidOn cpu = some tid) (handle : Nat)
    (canIdle : Bool) (eligible : Policy) :
    let result := s.blockCurrentForInput cpu handle canIdle eligible
    Local s tid result ∧
      (result.table.stateOf tid = .blocked →
        ∃ slot, s.slotOf tid = some slot ∧ result.slotOf tid =
          some { slot with inputWait := true, inputWaitHandle := handle }) := by
  dsimp only
  unfold blockCurrentForInput
  rw [hc]
  dsimp only
  cases hslot : s.slotOf tid with
  | none => exact ⟨Local.refl h tid, by simp [running_current h hc]⟩
  | some slot =>
    obtain ⟨sleeps, s', hsleep, hslept⟩ := written_slept h hc
      (fun _ => rfl : ∀ slot : ContextSlot, { slot with inputWait := true, inputWaitHandle := handle }.pid = slot.pid)
      (fun _ => rfl : ∀ slot : ContextSlot, slot.clearInput.pid = slot.pid) canIdle eligible
    dsimp only [Option.isNone_some]
    rw [if_neg Bool.false_ne_true, hsleep]
    refine ⟨hslept.alone, fun hb => ⟨slot, rfl, ?_⟩⟩
    have := hslept.state
    have := hslept.slot
    grind

end SchedulerState

/-! ## No wake is lost -/

namespace InputMachine

variable {N C F : Nat} {m : InputMachine N C F} {tid handle : Nat} {waiter : Waiter}

/-- A wake that has not collected its waiters is to come. -/
def Due (m : InputMachine N C F) : Prop := m.activity = true ∨ .called ∈ m.wakes

instance decidableDue (m : InputMachine N C F) : Decidable m.Due := inferInstanceAs (Decidable (_ ∨ _))

/-- A wake is to come that will not pass the waiter over. -/
def Covered (m : InputMachine N C F) (waiter : Waiter) : Prop :=
  m.Due ∨ ∃ tested rest, .testing tested rest ∈ m.wakes ∧ (waiter ∈ rest ∨ (waiter, true) ∈ tested)

/-- The slot of a task that sleeps on a surface. -/
structure Asleep (m : InputMachine N C F) (tid handle : Nat) (slot : ContextSlot) : Prop where
  slotOf : m.sched.slotOf tid = some slot
  wait : slot.inputWait = true
  handle : slot.inputWaitHandle = handle
  covered : m.ready slot.waiter = true → m.Covered slot.waiter

structure Sound (m : InputMachine N C F) : Prop where
  consistent : m.sched.table.Consistent
  blocked : ∀ tid, m.watches tid ≠ none → m.sched.table.stateOf tid = .blocked
  asleep : ∀ tid handle, m.watches tid = some handle → ∃ slot, m.Asleep tid handle slot

/-- A block happens while the surface has no event and exists, or before a wake that is to come; surfaces of a process
are closed while none of its threads sleeps on one, or before such a wake. -/
def Admits (m : InputMachine N C F) : InputEvent C → Prop
  | .block cpu handle _ _ =>
    handle = 0 ∨ m.Due ∨
      ∀ slot ∈ (m.sched.table.currentPidOn cpu).bind m.sched.slotOf, m.ready ⟨slot.pid, slot.groupPid, handle⟩ = false
  | .closeAll pid =>
    m.Due ∨ ∀ slot ∈ m.sched.contexts.toList, ∀ handle ∈ m.watches slot.pid, ∀ index ∈ Surfaces.handleIndex handle,
      m.surfaces.owned index pid = false
  | _ => True

instance decidableAdmits (m : InputMachine N C F) (event : InputEvent C) : Decidable (m.Admits event) := by
  unfold Admits
  split <;> infer_instance

theorem sound_boot : Sound (boot N C F) :=
  ⟨consistent_new N C, fun _ h => absurd rfl h, fun _ _ h => (by cases h)⟩

variable {m' : InputMachine N C F}

variable (h : Sound m)
include h

/-- Tasks that sleep after a change slept before it, with the same slots. -/
theorem Sound.after (hc : m'.sched.table.Consistent) (hw : ∀ tid handle, m'.watches tid = some handle →
      m.watches tid = some handle ∧ m'.sched.table.stateOf tid = .blocked ∧ m'.sched.slotOf tid = m.sched.slotOf tid)
    (hcov : ∀ tid handle slot, m'.watches tid = some handle → m.Asleep tid handle slot → m'.ready slot.waiter = true →
      m'.Covered slot.waiter) : Sound m' := by
  refine ⟨hc, fun tid ht => ?_, fun tid handle ht => ?_⟩
  · obtain ⟨handle, hh⟩ := Option.ne_none_iff_exists'.1 ht
    exact (hw tid handle hh).2.1
  · obtain ⟨hold, -, hslots⟩ := hw tid handle ht
    obtain ⟨slot, hslot⟩ := h.asleep tid handle hold
    exact ⟨slot, hslots.trans hslot.slotOf, hslot.wait, hslot.handle, hcov tid handle slot ht hslot⟩

/-- The surfaces change, or the wakes. -/
theorem Sound.covered (hs : m'.sched = m.sched) (hw : m'.watches = m.watches)
    (hc : ∀ tid handle slot, m.watches tid = some handle → m.Asleep tid handle slot → m'.ready slot.waiter = true →
      m'.Covered slot.waiter) : Sound m' := by
  refine h.after (hs ▸ h.consistent) (fun tid handle ht => ?_) fun tid handle slot ht => hc tid handle slot (hw ▸ ht)
  rw [hw] at ht
  rw [hs]
  exact ⟨ht, h.blocked tid (by rw [ht]; simp), rfl⟩

/-- A change that makes no waiter ready and loses no wake. -/
theorem Sound.calm (hs : m'.sched = m.sched) (hw : m'.watches = m.watches)
    (hr : ∀ waiter, m'.ready waiter = true → m.ready waiter = true) (ha : m'.activity = m.activity)
    (hwakes : m'.wakes = m.wakes) : Sound m' := by
  refine h.covered hs hw fun tid handle slot _ hslot hready => ?_
  have hcov := hslot.covered (hr _ hready)
  unfold Covered Due at hcov ⊢
  rwa [ha, hwakes]

theorem Sound.due (hs : m'.sched = m.sched) (hw : m'.watches = m.watches) (hd : m'.Due) : Sound m' := h.covered hs hw fun _ _ _ _ _ _ => .inl hd

omit h

theorem ready_congr {surfaces : Surfaces}
    (hs : ∀ handle owner, m'.surfaces.eventWaitReady handle owner = true → surfaces.eventWaitReady handle owner = true)
    (hm : m.surfaces = surfaces) (waiter : Waiter) (h : m'.ready waiter = true) : m.ready waiter = true := by
  unfold ready at h ⊢
  rw [Bool.or_eq_true] at h ⊢
  exact h.imp_right fun hh => hm ▸ hs _ _ hh

theorem watches_reschedule {sched : SchedulerState N C F} (h : (m.reschedule sched).watches tid = some handle) :
    m.watches tid = some handle ∧ sched.table.stateOf tid = .blocked := by
  change settle sched m.watches tid = some handle at h
  unfold settle at h
  split at h
  · exact ⟨h, by assumption⟩
  · cases h

include h

theorem Sound.destroy (cpu : Fin C) (handle : Nat) : Sound (m.step (.destroy cpu handle)) := by
  have hkeep : (m.surfaces.destroy handle (m.sched.currentGroup cpu)).1 = false →
      (m.surfaces.destroy handle (m.sched.currentGroup cpu)).2 = m.surfaces := by
    grind [Surfaces.destroy]
  show Sound (m.destroy cpu handle)
  unfold InputMachine.destroy
  generalize m.surfaces.destroy handle (m.sched.currentGroup cpu) = result at hkeep ⊢
  obtain ⟨destroyed, surfaces⟩ := result
  cases destroyed with
  | false => exact h.calm rfl rfl (fun _ hr => by rwa [show surfaces = m.surfaces from hkeep rfl] at hr) rfl rfl
  | true => exact h.due rfl rfl (.inr (by simp))

theorem Sound.closeAll {pid : Nat} (ha : m.Admits (.closeAll pid)) : Sound (m.step (.closeAll pid)) := by
  rcases ha with hdue | hnone
  · exact h.due rfl rfl hdue
  refine h.covered rfl rfl fun tid handle slot ht hslot hready => hslot.covered ?_
  -- the surface the task sleeps on is not one of those
  unfold ready at hready ⊢
  rw [Bool.or_eq_true] at hready ⊢
  refine hready.imp_right fun hr => (Surfaces.ready_of_closeAll hr).resolve_right ?_
  rintro ⟨index, hindex, how⟩
  have hpid := slotOf_some hslot.slotOf
  obtain ⟨i, -, hi⟩ := Option.map_eq_some_iff.1 hslot.slotOf
  have hno := hnone slot (Slots.mem_toList.2 ⟨i, hi⟩) handle (by rw [hpid]; exact ht) index (by
    rw [← hslot.handle]
    exact hindex)
  rw [hno] at how
  cases how

theorem Sound.endPoll : Sound (m.step .endPoll) := by
  show Sound (if m.activity then _ else m)
  split
  · exact h.due rfl rfl (.inr (by simp))
  · exact h

omit h

variable {l : List WakeCall} {n : Nat} {x y : WakeCall}

theorem mem_set_or {z : WakeCall} (hn : l[n]? = some y) (hx : x ∈ l) : x ∈ l.set n z ∨ x = y := by
  obtain ⟨i, hi, rfl⟩ := List.getElem_of_mem hx
  by_cases heq : n = i
  · grind
  · refine .inl (List.mem_iff_getElem.2 ⟨i, by simpa using hi, ?_⟩)
    rw [List.getElem_set_ne heq]

theorem mem_eraseIdx_or (hn : l[n]? = some y) (hx : x ∈ l) : x ∈ l.eraseIdx n ∨ x = y := by
  obtain ⟨i, hi, rfl⟩ := List.getElem_of_mem hx
  by_cases heq : i = n
  · grind
  · exact .inl (List.mem_eraseIdx_iff_getElem.2 ⟨i, hi, heq, rfl⟩)

/-- A wake gives way to its next part; other wakes cover what they did. -/
theorem Covered.replace {call : WakeCall} (h : m.Covered waiter) (m' : InputMachine N C F) (ha : m'.activity = m.activity)
    (hkeep : ∀ x ∈ m.wakes, x ∈ m'.wakes ∨ x = call) (hc : call ≠ .called) :
    m'.Covered waiter ∨ ∃ tested rest, call = .testing tested rest ∧ (waiter ∈ rest ∨ (waiter, true) ∈ tested) := by
  rcases h with (hact | hcalled) | ⟨tested, rest, hmem, hw⟩
  · exact .inl (.inl (.inl (ha ▸ hact)))
  · rcases hkeep _ hcalled with hm | heq
    · exact .inl (.inl (.inr hm))
    · exact absurd heq.symm hc
  · rcases hkeep _ hmem with hm | heq
    · exact .inl (.inr ⟨tested, rest, hm, hw⟩)
    · exact .inr ⟨tested, rest, heq.symm, hw⟩

include h

theorem Sound.advance (number : Nat) : Sound (m.step (.advance number)) := by
  show Sound (m.advance number)
  unfold InputMachine.advance
  split
  · exact h
  · -- every task that sleeps is among the waiters collected now
    rename_i hn
    refine h.covered rfl rfl fun tid handle slot ht hslot _ => .inr ⟨[], m.sched.inputWaiters, ?_, .inl ?_⟩
    · exact List.mem_set (List.getElem?_eq_some_iff.1 hn).1 _
    refine mem_inputWaiters hslot.slotOf hslot.wait fun h0 => ?_
    have hb := h.blocked tid (by rw [ht]; simp)
    rw [h0] at hb
    cases hb
  · -- the waiter that is tested now is ready if it was to be woken
    rename_i tested next rest hn
    refine h.covered rfl rfl fun tid handle slot ht hslot hready => ?_
    have hmem := List.mem_set (List.getElem?_eq_some_iff.1 hn).1 (WakeCall.testing (tested ++ [(next, m.ready next)]) rest)
    refine ((hslot.covered hready).replace
      { m with wakes := m.wakes.set number (.testing (tested ++ [(next, m.ready next)]) rest) }
      rfl (fun x hx => mem_set_or hn hx) (by simp)).elim id ?_
    rintro ⟨tested', rest', heq, hw⟩
    cases heq
    refine .inr ⟨_, rest, hmem, ?_⟩
    rcases hw with hw | hw
    · rcases List.mem_cons.1 hw with rfl | hw
      · exact .inr (by rw [show m.ready slot.waiter = true from hready]; simp)
      · exact .inl hw
    · exact .inr (List.mem_append_left _ hw)
  · -- the last part wakes what it found ready
    rename_i tested hn
    have hroused := foldl_wakeWaiter tested h.consistent
    refine h.after hroused.consistent (fun tid handle ht => ?_) fun tid handle slot ht hslot hready => ?_
    · obtain ⟨hold, hb⟩ := watches_reschedule ht
      exact ⟨hold, hb, hroused.slotOf tid⟩
    refine ((hslot.covered hready).replace
      ({ m with wakes := m.wakes.eraseIdx number }.reschedule (tested.foldl wakeWaiter m.sched))
      rfl (fun x hx => mem_eraseIdx_or hn hx) (by simp)).elim id ?_
    rintro ⟨tested', rest', heq, hw⟩
    cases heq
    rcases hw with hw | hw
    · cases hw
    · have hpid := slotOf_some hslot.slotOf
      have hb := (watches_reschedule ht).2
      exact absurd (hpid ▸ hb) (hroused.roused slot hw (hpid ▸ hslot.slotOf) hslot.wait)

theorem Sound.look (cpu : Fin C) (handle : Nat) : Sound (m.step (.look cpu handle)) := by
  have hready : ∀ q owner, Surfaces.eventWaitReady (m.surfaces.readEvent handle (m.sched.currentGroup cpu)).2 q owner = true →
      m.surfaces.eventWaitReady q owner = true := fun q owner => Surfaces.ready_of_readEvent
  show Sound (m.look cpu handle)
  unfold InputMachine.look
  generalize m.surfaces.readEvent handle (m.sched.currentGroup cpu) = result at hready ⊢
  obtain ⟨event, surfaces⟩ := result
  cases event with
  | none => exact h.calm rfl rfl (ready_congr hready rfl) rfl rfl
  | some event =>
    have htable : (m.sched.completeInputWait cpu).table = m.sched.table := by grind [completeInputWait]
    refine h.after (by rw [htable]; exact h.consistent) (fun tid q ht => ⟨ht, ?_⟩) fun tid q slot ht hslot hr =>
      hslot.covered (ready_congr hready rfl _ hr)
    have hb := h.blocked tid (by rw [show m.watches tid = some q from ht]; simp)
    refine ⟨by rw [htable]; exact hb, ?_⟩
    -- only the slot of the task that runs changes
    dsimp only
    unfold completeInputWait
    split
    · rfl
    · rename_i current hcur
      have hrun := running_current h.consistent hcur
      rw [slotOf_modifySlot (by exact fun _ => rfl), if_neg (by grind)]

theorem Sound.block {cpu : Fin C} {canIdle : Bool} {eligible : Policy}
    (ha : m.Admits (.block cpu handle canIdle eligible)) : Sound (m.step (.block cpu handle canIdle eligible)) := by
  show Sound (m.block cpu handle canIdle eligible)
  unfold InputMachine.block
  cases hc : m.sched.table.currentPidOn cpu with
  | none => exact h
  | some tid =>
    obtain ⟨hlocal, hself⟩ := blockCurrentForInput_spec h.consistent hc handle canIdle eligible
    generalize m.sched.blockCurrentForInput cpu handle canIdle eligible = sched at hlocal hself ⊢
    -- the task itself, if it sleeps
    have htid : ∀ q, Function.update m.watches tid (if handle = 0 then none else some handle) tid = some q →
        sched.table.stateOf tid = .blocked →
        ∃ slot, sched.slotOf tid = some slot ∧ slot.inputWait = true ∧ slot.inputWaitHandle = q ∧
          (m.ready slot.waiter = true → m.Due) := by
      intro q hq hb
      rw [Function.update_self] at hq
      split at hq
      · cases hq
      rename_i h0
      cases hq
      obtain ⟨slot, hslot, hslot'⟩ := hself hb
      refine ⟨_, hslot', rfl, rfl, fun hready => ?_⟩
      rcases ha with ha | ha | ha
      · exact absurd ha h0
      · exact ha
      · have hno := ha slot (by rw [hc]; exact hslot)
        rw [show m.ready ⟨slot.pid, slot.groupPid, handle⟩ = true from hready] at hno
        cases hno
    refine ⟨hlocal.consistent, fun q hq => ?_, fun q watched hq => ?_⟩
    · obtain ⟨watched, hw⟩ := Option.ne_none_iff_exists'.1 hq
      exact (watches_reschedule hw).2
    obtain ⟨hold, hb⟩ := watches_reschedule hq
    by_cases heq : q = tid
    · subst heq
      obtain ⟨slot, hslot, hwait, hhandle, hcov⟩ := htid watched hold hb
      exact ⟨slot, hslot, hwait, hhandle, fun hready => .inl (hcov hready)⟩
    · obtain ⟨slot, hslot⟩ := h.asleep q watched ((Function.update_of_ne heq _ _).symm.trans hold)
      exact ⟨slot, (hlocal.slots q heq).trans hslot.slotOf, hslot.wait, hslot.handle, hslot.covered⟩

theorem Sound.other (activity : Activity C) : Sound (m.step (.other activity)) := by
  have hacted := act_spec h.consistent activity
  refine h.after hacted.consistent (fun tid handle ht => ?_) fun tid handle slot _ hslot => hslot.covered
  obtain ⟨hold, hb⟩ := watches_reschedule ht
  have hwas := h.blocked tid (by rw [hold]; simp)
  exact ⟨hold, hb, hacted.slots tid (by rw [hwas]; decide) (by rw [hb]; decide)⟩

theorem Sound.step {event : InputEvent C} (ha : m.Admits event) : Sound (m.step event) := by
  cases event with
  | create cpu slot => exact h.calm rfl rfl (ready_congr (fun _ _ => Surfaces.ready_of_create) rfl) rfl rfl
  | destroy => exact h.destroy ..
  | closeAll pid => exact h.closeAll ha
  | push index event => exact h.due rfl rfl (.inl rfl)
  | endPoll => exact h.endPoll
  | advance => exact h.advance ..
  | look => exact h.look ..
  | block cpu handle canIdle eligible => exact h.block ha
  | other => exact h.other ..

theorem Sound.not_stranded (tid : Nat) : ¬ m.Stranded tid := by
  rintro ⟨⟨handle, slot, hw, hs, hready⟩, hact, hwakes⟩
  obtain ⟨slot', hslot⟩ := h.asleep tid handle hw
  obtain rfl : slot = slot' := Option.some.inj (hs.symm.trans hslot.slotOf)
  have hwaiter : slot.waiter = ⟨tid, slot.groupPid, handle⟩ := by
    rw [ContextSlot.waiter, slotOf_some hs, hslot.handle]
  have hcovered := hslot.covered (hwaiter ▸ hready)
  simp [Covered, Due, hact, hwakes] at hcovered

omit h

/-- No wake for a surface event is lost: if threads block only while their surface is as they found it or a wake is
still to come, and surfaces are closed only while no thread sleeps on them or before a wake, then no thread sleeps on
a surface with an event, or on one that is gone, once the wakes are over. -/
theorem no_lost_input_wake (events : List (InputEvent C)) (h : Guarded step Admits (boot N C F) events) (tid : Nat) :
    ¬ (run events (boot N C F)).Stranded tid :=
  (h.foldl (fun _ _ hs ha => hs.step ha) sound_boot).not_stranded tid

def keyEvent : SurfaceEvent := ⟨1, 97, 0, 0, 0, 640, 480⟩

/-- A thread of the second CPU sleeps until a key is pressed, reads it, and destroys its surface. -/
def keyRead (cpu : Fin 2) (index : Fin 8) : List (InputEvent 2) :=
  [.other (.start 0 1 none), .other (.dispatch cpu fun _ _ => true), .create cpu 8, .look cpu 8,
    .block cpu 8 true fun _ _ => true, .push index keyEvent, .endPoll, .advance 0, .advance 0, .advance 0,
    .other (.dispatch cpu fun _ _ => true), .look cpu 8, .destroy cpu 8, .advance 0, .advance 0]

theorem no_lost_input_wake_keyRead : Guarded step Admits (boot 2 2 1) (keyRead (Fin.last 1) (Fin.last 7)) ∧
    ¬ (run (keyRead (Fin.last 1) (Fin.last 7)) (boot 2 2 1)).Stranded 1 :=
  ⟨by decide +kernel, no_lost_input_wake (keyRead (Fin.last 1) (Fin.last 7)) (by decide +kernel) 1⟩

/-- The key is pressed, and the wake is over, between the look and the block. -/
def keyMissed (cpu : Fin 2) (index : Fin 8) : List (InputEvent 2) :=
  [.other (.start 0 1 none), .other (.dispatch cpu fun _ _ => true), .create cpu 8, .look cpu 8,
    .push index keyEvent, .endPoll, .advance 0, .advance 0, .block cpu 8 true fun _ _ => true]

theorem keyMissed_stranded : (run (keyMissed (Fin.last 1) (Fin.last 7)) (boot 2 2 1)).Stranded 1 ∧
    (run (keyMissed (Fin.last 1) (Fin.last 7)) (boot 2 2 1)).sched.table.stateOf 1 = .blocked :=
  ⟨⟨⟨8, { ContextSlot.fresh 1 1 1 with inputWait := true, inputWaitHandle := 8 },
    by decide +kernel, by decide +kernel, by decide +kernel⟩, by decide +kernel, by decide +kernel⟩, by decide +kernel⟩

end InputMachine

end MakOS.Process
