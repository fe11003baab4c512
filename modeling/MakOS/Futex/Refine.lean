/-
The futex table refines an abstract one: a list of waiting tasks in arrival order and a set of
finished outcomes. `Abs.Step` says what each call does to the abstract table, with no slots, links
or counters; every call of the table is such a step and gives the same reply, and no loop of the
table runs on.
-/
import MakOS.Futex.Sweep

namespace MakOS.Futex

open FutexTable FutexTable

/-! ## The abstract table -/

namespace Abs

def size (a : Abs) : Nat := a.waiting.length + a.finished.card

def leave (a : Abs) (gone : List Waiter) (outcome : WaitOutcome) : Abs :=
  ⟨a.waiting.filter (· ∉ gone), a.finished ∪ (gone.map fun w => w.finish outcome).toFinset⟩

def Busy (a : Abs) (task : TaskId) : Prop := (∃ w ∈ a.waiting, w.task = task) ∨ ∃ f ∈ a.finished, f.task = task

def Uses (a : Abs) (slot : Nat) : Prop := (∃ w ∈ a.waiting, w.handle.slot = slot) ∨ ∃ f ∈ a.finished, f.handle.slot = slot

instance instDecidableBusy (a : Abs) (task : TaskId) : Decidable (a.Busy task) := inferInstanceAs (Decidable (_ ∨ _))

def waitError (capacity : Nat) (a : Abs) (key : FutexKey) (task : TaskId) (observed expected : UInt32) (now : UInt64)
    (deadline : Option UInt64) : Option WaitError :=
  if ¬ key.isAligned then some .unalignedAddress
  else if observed ≠ expected then some .valueMismatch
  else if deadline.any (· ≤ now) then some .deadlineExpired
  else if a.Busy task then some .alreadyWaiting
  else if capacity ≤ a.size then some .queueFull
  else none

/-- One call on the abstract table of a capacity. -/
def Step (capacity : Nat) (a : Abs) : Call → Reply → Abs → Prop
  | .wait key task observed expected now deadline, reply, a' =>
    match a.waitError capacity key task observed expected now deadline with
    | some error => reply = .waited (.error error) ∧ a' = a
    -- the handle names a slot nobody uses
    | none => ∃ handle : WaitHandle, handle.slot < capacity ∧ ¬ a.Uses handle.slot ∧ reply = .waited (.ok handle) ∧
        a' = { a with waiting := a.waiting ++ [⟨handle, key, task, deadline⟩] }
  | .wake key maximum, reply, a' =>
    let woken := (matching key a.waiting).take maximum
    if key.isAligned then reply = .woke (.ok woken.length) (woken.map Waiter.callback) ∧ a' = a.leave woken .woken
    else reply = .woke (.error .unalignedAddress) [] ∧ a' = a
  | .requeue source target wakeLimit requeueLimit, reply, a' =>
    let woken := (matching source a.waiting).take wakeLimit
    let moved := ((matching source a.waiting).drop wakeLimit).take requeueLimit
    if ¬ source.isAligned ∨ ¬ target.isAligned then reply = .requeued (.error .unalignedAddress) [] ∧ a' = a
    else if source = target then reply = .requeued (.error .sameKey) [] ∧ a' = a
    else reply = .requeued (.ok (woken.length, moved.length)) (woken.map Waiter.callback) ∧
      a' = { a.leave woken .woken with waiting := retagAll moved target (a.leave woken .woken).waiting }
  | .expire now, reply, a' =>
    reply = .expired (due now a.waiting).length ((due now a.waiting).map Waiter.callback) ∧
      a' = a.leave (due now a.waiting) .timedOut
  | .cancel handle, reply, a' =>
    (∃ w ∈ a.waiting, w.handle = handle ∧ reply = .cancelled (.ok true) ∧ a' = a.leave [w] .cancelled) ∨
      (∃ f ∈ a.finished, f.handle = handle ∧ reply = .cancelled (.ok false) ∧ a' = a) ∨
      ((∀ w ∈ a.waiting, w.handle ≠ handle) ∧ (∀ f ∈ a.finished, f.handle ≠ handle) ∧
        reply = .cancelled (.error .invalidOrStale) ∧ a' = a)
  | .cancelTask task, reply, a' =>
    (∃ w ∈ a.waiting, w.task = task ∧ reply = .cancelledTask (some w.handle) ∧ a' = a.leave [w] .cancelled) ∨
      ((∀ w ∈ a.waiting, w.task ≠ task) ∧ reply = .cancelledTask none ∧ a' = a)
  | .processExit process, reply, a' =>
    a' = ⟨a.waiting.filter fun w => w.task.process ≠ process, a.finished.filter fun f => f.task.process ≠ process⟩ ∧
      reply = .exited (a.size - a'.size)
  | .takeOutcome handle, reply, a' =>
    (∃ w ∈ a.waiting, w.handle = handle ∧ reply = .taken (.ok none) ∧ a' = a) ∨
      (∃ f ∈ a.finished, f.handle = handle ∧ reply = .taken (.ok (some f.outcome)) ∧
        a' = { a with finished := a.finished.erase f }) ∨
      ((∀ w ∈ a.waiting, w.handle ≠ handle) ∧ (∀ f ∈ a.finished, f.handle ≠ handle) ∧
        reply = .taken (.error .invalidOrStale) ∧ a' = a)

inductive Run (capacity : Nat) : Abs → List Call → List Reply → Abs → Prop
  | nil (a : Abs) : Run capacity a [] [] a
  | cons {a a' a'' : Abs} {call : Call} {calls : List Call} {reply : Reply} {replies : List Reply} :
      a.Step capacity call reply a' → Run capacity a' calls replies a'' →
      Run capacity a (call :: calls) (reply :: replies) a''

end Abs

namespace FutexTable

variable {N : Nat} {table : FutexTable N} {queue front rest : List (Fin N)} {i : Fin N}

/-! ## Reading the table -/

theorem waiter_injective (table : FutexTable N) : Function.Injective table.waiter := fun _ _ h =>
  Fin.ext (congrArg (fun w : Waiter => w.handle.slot) h)

variable (h : Queue table queue)
include h

theorem Queue.nodup_waiters : (queue.map table.waiter).Nodup :=
  h.nodup.map table.waiter_injective

theorem mem_abs_waiting {w : Waiter} :
    w ∈ (table.abs queue).waiting ↔ ∃ i, (table.slot i).state = .waiting ∧ w = table.waiter i := by
  simp [abs, h.mem, eq_comm]

omit h

theorem mem_abs_finished {f : Finished} : f ∈ (table.abs queue).finished ↔
    ∃ i, (table.slot i).state = .done f.outcome ∧ f.handle = table.handle i ∧ f.task = (table.slot i).task :=
  mem_finished

variable {handle : WaitHandle}

theorem validate_ok (h : table.validate handle = .ok i) : handle = table.handle i ∧ (table.slot i).state ≠ .free := by
  unfold validate at h
  split at h
  · simp only at h
    split at h
    · cases h
    rename_i hslot hvalid
    cases h
    rw [not_or, not_not] at hvalid
    refine ⟨?_, hvalid.1⟩
    cases handle
    simp only [handle, WaitHandle.mk.injEq, true_and]
    exact hvalid.2.symm
  · cases h

theorem validate_handle (h : (table.slot i).state ≠ .free) : table.validate (table.handle i) = .ok i := by
  have hvalid : ¬ ((table.slot i).state = .free ∨ (table.slot i).generation ≠ (table.handle i).generation) := by
    rintro (hf | hg)
    · exact h hf
    · exact hg rfl
  rw [validate, dif_pos (show (table.handle i).slot < N from i.isLt)]
  exact if_neg hvalid

variable {error : HandleError}

def completed (table : FutexTable N) : Finset (Fin N) := Finset.univ.filter fun i => (table.outcome? i).isSome

theorem outcome?_eq_some {outcome : WaitOutcome} : table.outcome? i = some outcome ↔ (table.slot i).state = .done outcome := by
  unfold outcome?
  cases (table.slot i).state <;> simp

theorem mem_completed : i ∈ table.completed ↔ ∃ outcome, (table.slot i).state = .done outcome := by
  simp [completed, Option.isSome_iff_exists, outcome?_eq_some]

theorem card_finished (table : FutexTable N) : table.finished.card = table.completed.card := by
  have himage : table.finished = table.completed.image fun i =>
      (⟨table.handle i, (table.slot i).task, (table.outcome? i).getD .woken⟩ : Finished) := by
    ext f
    simp only [mem_finished, Finset.mem_image, mem_completed]
    constructor
    · rintro ⟨i, hs, hh, ht⟩
      refine ⟨i, ⟨_, hs⟩, ?_⟩
      rw [outcome?_eq_some.2 hs, ← hh, ← ht]
      rfl
    rintro ⟨i, ⟨outcome, hs⟩, rfl⟩
    refine ⟨i, ?_, rfl, rfl⟩
    rw [outcome?_eq_some.2 hs]
    exact hs
  rw [himage, Finset.card_image_of_injective]
  exact fun i j h => Fin.ext (congrArg (fun f : Finished => f.handle.slot) h)

include h

/-- The counter of occupied slots is the size of the abstract table. -/
theorem Queue.size_eq : table.occupied = (table.abs queue).size := by
  have hsplit : table.occupants = queue.toFinset ∪ table.completed := by
    ext i
    rw [mem_occupants, Finset.mem_union, List.mem_toFinset, h.mem, mem_completed]
    cases (table.slot i).state <;> simp
  have hdisjoint : Disjoint queue.toFinset table.completed := by
    rw [Finset.disjoint_left]
    intro i hi hc
    rw [List.mem_toFinset, h.mem] at hi
    obtain ⟨outcome, hs⟩ := mem_completed.1 hc
    rw [hi] at hs
    cases hs
  rw [h.occupied, hsplit, Finset.card_union_of_disjoint hdisjoint, List.toFinset_card_of_nodup h.nodup, Abs.size,
    ← card_finished]
  simp [abs]

/-- The entries of the abstract table are those of the slots that are not free. -/
theorem Queue.exists_entry (P : WaitHandle → TaskId → Prop) :
    ((∃ w ∈ (table.abs queue).waiting, P w.handle w.task) ∨ ∃ f ∈ (table.abs queue).finished, P f.handle f.task) ↔
      ∃ i, (table.slot i).state ≠ .free ∧ P (table.handle i) (table.slot i).task := by
  simp only [mem_abs_waiting h, mem_abs_finished]
  constructor
  · rintro (⟨_, ⟨i, hi, rfl⟩, hp⟩ | ⟨f, ⟨i, hi, hh, ht⟩, hp⟩)
    · exact ⟨i, by rw [hi]; nofun, hp⟩
    · exact ⟨i, by rw [hi]; nofun, hh ▸ ht ▸ hp⟩
  rintro ⟨i, hi, hp⟩
  cases hs : (table.slot i).state with
  | free => exact absurd hs hi
  | waiting => exact .inl ⟨_, ⟨i, hs, rfl⟩, hp⟩
  | done outcome => exact .inr ⟨⟨table.handle i, (table.slot i).task, outcome⟩, ⟨i, hs, rfl, rfl⟩, hp⟩

theorem Queue.busy_iff (task : TaskId) :
    (table.abs queue).Busy task ↔ ∃ i, (table.slot i).state ≠ .free ∧ (table.slot i).task = task :=
  h.exists_entry fun _ other => other = task

theorem Queue.uses_iff (i : Fin N) : (table.abs queue).Uses i.val ↔ (table.slot i).state ≠ .free := by
  refine (h.exists_entry fun handle _ => handle.slot = i.val).trans ⟨?_, fun hi => ⟨i, hi, rfl⟩⟩
  rintro ⟨j, hj, hslot⟩
  exact Fin.ext hslot ▸ hj

theorem Queue.full_iff : N ≤ (table.abs queue).size ↔ ∀ i, (table.slot i).state ≠ .free := by
  rw [← h.size_eq, h.occupied]
  constructor
  · intro hle i
    have huniv : table.occupants = Finset.univ :=
      Finset.eq_univ_of_card _ (le_antisymm (Finset.card_le_univ _) (by simpa using hle))
    exact mem_occupants.1 (huniv ▸ Finset.mem_univ i)
  intro hall
  have huniv : table.occupants = Finset.univ := Finset.eq_univ_of_forall fun i => mem_occupants.2 (hall i)
  rw [huniv]
  simp

/-! ## Every call is a step -/

/-- A wait is refused for the reason the abstract table gives, or takes a free slot. -/
theorem Queue.wait (key : FutexKey) (task : TaskId) (observed expected : UInt32)
    (now : UInt64) (deadline : Option UInt64) :
    (∃ error, (table.abs queue).waitError N key task observed expected now deadline = some error ∧
      table.wait key task observed expected now deadline = (.error error, table)) ∨
    ∃ i, (table.abs queue).waitError N key task observed expected now deadline = none ∧
      (table.slot i).state = .free ∧ ¬ (table.abs queue).Busy task ∧
      table.wait key task observed expected now deadline =
        (.ok ((table.enqueue i key task deadline).handle i), table.enqueue i key task deadline) := by
  have hany : ((List.finRange N).any fun i => (table.slot i).state ≠ .free ∧ (table.slot i).task = task) = true ↔
      (table.abs queue).Busy task := by
    rw [h.busy_iff]
    simp
  unfold FutexTable.wait Abs.waitError
  simp only [hany]
  split_ifs with _ _ _ hbusy
  iterate 3 exact .inl ⟨_, rfl, rfl⟩
  · have hnone : ((List.finRange N).find? fun i => (table.slot i).state = .free) = none :=
      List.find?_eq_none.2 fun i _ => by simpa using h.full_iff.1 ‹_› i
    rw [hnone]
    exact .inl ⟨_, rfl, rfl⟩
  · cases hfind : (List.finRange N).find? fun i => (table.slot i).state = .free with
    | none =>
      have hall := List.find?_eq_none.1 hfind
      exact absurd (h.full_iff.2 fun i => by simpa using hall i (List.mem_finRange i)) ‹_›
    | some i => exact .inr ⟨i, rfl, by simpa using List.find?_some hfind, hbusy, rfl⟩
  · exact .inl ⟨_, rfl, rfl⟩

/-- A call of the table is a step of the abstract one. -/
def Simulates (table : FutexTable N) (queue : List (Fin N)) (call : Call) : Prop :=
  ∃ reply table' queue', table.step call = some (reply, table') ∧ Queue table' queue' ∧
    (table.abs queue).Step N call reply (table'.abs queue')

theorem simulates_wait (key : FutexKey) (task : TaskId) (observed expected : UInt32)
    (now : UInt64) (deadline : Option UInt64) : Simulates table queue (.wait key task observed expected now deadline) := by
  rcases h.wait key task observed expected now deadline with ⟨error, herror, hwait⟩ | ⟨i, hnone, hfree, hbusy, hwait⟩
  · refine ⟨.waited (.error error), table, queue, ?_, h, ?_⟩
    · simp only [step, hwait]
    · simp [Abs.Step, herror]
  have htask : ∀ j, (table.slot j).state ≠ .free → (table.slot j).task ≠ task := fun j hj ht =>
    hbusy ((h.busy_iff task).2 ⟨j, hj, ht⟩)
  obtain ⟨hqueue, he, hself, hfinished⟩ := @Queue.enqueue N table queue i h hfree key task deadline htask
  refine ⟨.waited (.ok ((table.enqueue i key task deadline).handle i)), _, queue ++ [i], ?_, hqueue, ?_⟩
  · simp only [step, hwait]
  · simp only [Abs.Step, hnone]
    refine ⟨_, i.isLt, fun huses => (h.uses_iff i).1 huses hfree, rfl, ?_⟩
    simp [abs, hself, hfinished, he.map_waiter (h.not_mem (by simp [hfree]))]

omit h

/-- The result of a sweep that ends some waits with one outcome. -/
theorem ended_map (gone : List Waiter) (outcome : WaitOutcome) {σ : Type} (counters : σ) (kept : List Waiter) :
    (Swept.mk counters kept (gone.map fun w => (w, outcome))).called = gone.map Waiter.callback ∧
      (Swept.mk counters kept (gone.map fun w => (w, outcome))).outcomes = gone.map fun w => w.finish outcome := by
  simp [Swept.called, Swept.outcomes]

include h

theorem simulates_wake (key : FutexKey) (maximum : Nat) : Simulates table queue (.wake key maximum) := by
  by_cases haligned : key.isAligned = true
  · let woken := (matching key (table.abs queue).waiting).take maximum
    obtain ⟨table', kept, hsweep, hkept, habs⟩ := sweep_all (wakeJudge key maximum) 0 h
    rw [sweepList_wake 0 h.nodup_waiters, (ended_map ..).1, Nat.zero_add] at hsweep
    rw [sweepList_wake 0 h.nodup_waiters, (ended_map ..).2] at habs
    refine ⟨.woke (.ok woken.length) (woken.map Waiter.callback), table', kept, ?_, hkept, ?_⟩
    · simp only [step, wake, haligned, hsweep]
      rfl
    · simp only [Abs.Step, haligned]
      exact ⟨rfl, habs⟩
  · refine ⟨.woke (.error .unalignedAddress) [], table, queue, ?_, h, ?_⟩
    · simp only [step, wake, haligned]
      rfl
    · simp [Abs.Step, haligned]

theorem simulates_requeue (source target : FutexKey) (wakeLimit requeueLimit : Nat) :
    Simulates table queue (.requeue source target wakeLimit requeueLimit) := by
  by_cases haligned : ¬ source.isAligned = true ∨ ¬ target.isAligned = true
  · refine ⟨.requeued (.error .unalignedAddress) [], table, queue, ?_, h, ?_⟩
    · simp only [step, requeue, if_pos haligned]
      rfl
    · simp only [Abs.Step, if_pos haligned, and_self]
  by_cases hsame : source = target
  · refine ⟨.requeued (.error .sameKey) [], table, queue, ?_, h, ?_⟩
    · simp only [step, requeue, if_neg haligned, if_pos hsame]
      rfl
    · simp only [Abs.Step, if_neg haligned, if_pos hsame, and_self]
  let woken := (matching source (table.abs queue).waiting).take wakeLimit
  let moved := ((matching source (table.abs queue).waiting).drop wakeLimit).take requeueLimit
  obtain ⟨table', kept, hsweep, hkept, habs⟩ := sweep_all (requeueJudge source target wakeLimit requeueLimit) (0, 0) h
  rw [sweepList_requeue 0 0 h.nodup_waiters, (ended_map ..).1, Nat.zero_add, Nat.zero_add] at hsweep
  rw [sweepList_requeue 0 0 h.nodup_waiters, (ended_map ..).2] at habs
  refine ⟨.requeued (.ok (woken.length, moved.length)) (woken.map Waiter.callback), table', kept, ?_, hkept, ?_⟩
  · simp only [step, requeue, if_neg haligned, if_neg hsame, hsweep]
    rfl
  · simp only [Abs.Step, if_neg haligned, if_neg hsame]
    exact ⟨rfl, habs⟩

theorem simulates_expire (now : UInt64) : Simulates table queue (.expire now) := by
  obtain ⟨table', kept, hsweep, hkept, habs⟩ := sweep_all (expireJudge now) 0 h
  rw [sweepList_expire 0 h.nodup_waiters, (ended_map ..).1, Nat.zero_add] at hsweep
  rw [sweepList_expire 0 h.nodup_waiters, (ended_map ..).2] at habs
  refine ⟨.expired (due now (table.abs queue).waiting).length ((due now (table.abs queue).waiting).map Waiter.callback),
    table', kept, ?_, hkept, rfl, habs⟩
  simp only [step, expire, hsweep]
  rfl

/-! ## Handles -/

theorem Queue.split (hi : (table.slot i).state = .waiting) :
    ∃ front rest, queue = front ++ i :: rest := List.append_of_mem ((h.mem i).2 hi)

omit h

theorem filter_ne_self (hi : i ∉ queue) : queue.filter (· ≠ i) = queue :=
  List.filter_eq_self.2 fun j hj => by simpa using fun hji : j = i => hi (hji ▸ hj)

theorem Queue.filter_ne (h : Queue table (front ++ i :: rest)) : (front ++ i :: rest).filter (· ≠ i) = front ++ rest := by
  rw [List.filter_append, List.filter_cons_of_neg (by simp), ← List.filter_append]
  exact filter_ne_self h.fresh_append

/-- The waiters left when the one in slot `i` leaves. -/
theorem Queue.filter_leave (h : Queue table (front ++ i :: rest)) :
    ((front ++ i :: rest).map table.waiter).filter (· ∉ [table.waiter i]) = (front ++ rest).map table.waiter := by
  rw [List.filter_map, ← h.filter_ne]
  refine congrArg (List.map table.waiter) (List.filter_congr fun j _ => ?_)
  simp [table.waiter_injective.eq_iff]

include h

theorem Queue.cancel (hi : (table.slot i).state = .waiting) : ∃ table' queue',
    table.cancel (table.handle i) = some (.ok true, table') ∧ Queue table' queue' ∧
      table'.abs queue' = (table.abs queue).leave [table.waiter i] .cancelled := by
  obtain ⟨front, rest, rfl⟩ := h.split hi
  have hself := slot_unlink table front.getLast? rest.head? i i
  let slot : Slot N := { (table.unlink front.getLast? i rest.head?).slot i with state := .done .cancelled, deadline := none }
  have hdone : slot.state = .done .cancelled := rfl
  obtain ⟨hqueue, he, hfinished⟩ := h.finish rfl hdone (by simp only [slot, hself]) (by simp only [slot, hself])
  refine ⟨_, front ++ rest, ?_, hqueue, ?_⟩
  · rw [cancel, validate_handle (by rw [hi]; nofun)]
    simp only [hi, h.unlinkIndex]
    rfl
  rw [abs, abs, Abs.leave, h.filter_leave, hfinished, he.map_waiter h.fresh_append]
  simp

/-- No waiter and no outcome has a handle that is refused. -/
theorem Queue.refused
    (herror : table.validate handle = .error error) : (∀ w ∈ (table.abs queue).waiting, w.handle ≠ handle) ∧
      ∀ f ∈ (table.abs queue).finished, f.handle ≠ handle := by
  have hno : ¬ ∃ i, (table.slot i).state ≠ .free ∧ table.handle i = handle := by
    rintro ⟨i, hi, rfl⟩
    rw [validate_handle hi] at herror
    cases herror
  rw [← h.exists_entry fun other _ => other = handle, not_or] at hno
  exact ⟨fun w hw hw' => hno.1 ⟨w, hw, hw'⟩, fun f hf hf' => hno.2 ⟨f, hf, hf'⟩⟩

theorem simulates_cancel (handle : WaitHandle) : Simulates table queue (.cancel handle) := by
  cases hvalid : table.validate handle with
  | error error =>
    obtain ⟨hwaiting, hfinished⟩ := h.refused hvalid
    refine ⟨.cancelled (.error error), table, queue, ?_, h, .inr (.inr ⟨hwaiting, hfinished, rfl, rfl⟩)⟩
    simp only [step, cancel, hvalid]
    rfl
  | ok i =>
    obtain ⟨rfl, hstate⟩ := validate_ok hvalid
    cases hs : (table.slot i).state with
    | free => exact absurd hs hstate
    | waiting =>
      obtain ⟨table', queue', hcancel, hqueue, habs⟩ := h.cancel hs
      refine ⟨.cancelled (.ok true), table', queue', ?_, hqueue,
        .inl ⟨table.waiter i, (mem_abs_waiting h).2 ⟨i, hs, rfl⟩, rfl, rfl, habs⟩⟩
      simp only [step, hcancel]
      rfl
    | done outcome =>
      refine ⟨.cancelled (.ok false), table, queue, ?_, h,
        .inr (.inl ⟨⟨table.handle i, (table.slot i).task, outcome⟩, mem_abs_finished.2 ⟨i, hs, rfl, rfl⟩, rfl, rfl, rfl⟩)⟩
      simp only [step, cancel, hvalid, hs]
      rfl

theorem simulates_cancelTask (task : TaskId) : Simulates table queue (.cancelTask task) := by
  cases hfind : (List.finRange N).find? fun i => (table.slot i).state = .waiting ∧ (table.slot i).task = task with
  | none =>
    refine ⟨.cancelledTask none, table, queue, ?_, h, .inr ⟨fun w hw ht => ?_, rfl, rfl⟩⟩
    · simp only [step, cancelTask, hfind]
      rfl
    obtain ⟨i, hi, rfl⟩ := (mem_abs_waiting h).1 hw
    have htask : (table.slot i).task = task := ht
    have := List.find?_eq_none.1 hfind i (List.mem_finRange i)
    simp [hi, htask] at this
  | some i =>
    obtain ⟨hi, ht⟩ : (table.slot i).state = .waiting ∧ (table.slot i).task = task := by
      simpa using List.find?_some hfind
    obtain ⟨table', queue', hcancel, hqueue, habs⟩ := h.cancel hi
    refine ⟨.cancelledTask (some (table.handle i)), table', queue', ?_, hqueue,
      .inl ⟨table.waiter i, (mem_abs_waiting h).2 ⟨i, hi, rfl⟩, ht, rfl, habs⟩⟩
    simp only [step, cancelTask, hfind, hcancel]
    rfl

theorem simulates_takeOutcome (handle : WaitHandle) : Simulates table queue (.takeOutcome handle) := by
  cases hvalid : table.validate handle with
  | error error =>
    obtain ⟨hwaiting, hfinished⟩ := h.refused hvalid
    refine ⟨.taken (.error error), table, queue, ?_, h, .inr (.inr ⟨hwaiting, hfinished, rfl, rfl⟩)⟩
    simp only [step, takeOutcome, hvalid]
  | ok i =>
    obtain ⟨rfl, hstate⟩ := validate_ok hvalid
    cases hs : (table.slot i).state with
    | free => exact absurd hs hstate
    | waiting =>
      refine ⟨.taken (.ok none), table, queue, ?_, h,
        .inl ⟨table.waiter i, (mem_abs_waiting h).2 ⟨i, hs, rfl⟩, rfl, rfl, rfl⟩⟩
      simp only [step, takeOutcome, hvalid, hs]
    | done outcome =>
      obtain ⟨hqueue, he, hfree⟩ := h.release hs
      let f : Finished := ⟨table.handle i, (table.slot i).task, outcome⟩
      have hf : f ∈ (table.abs queue).finished := mem_abs_finished.2 ⟨i, hs, rfl, rfl⟩
      refine ⟨.taken (.ok (some outcome)), table.release i, queue, ?_, hqueue, .inr (.inl ⟨f, hf, rfl, rfl, ?_⟩)⟩
      · simp only [step, takeOutcome, hvalid, hs]
      have herase : (table.finished.filter fun f => f.handle.slot ≠ i.val) = table.finished.erase f := by
        ext g
        rw [Finset.mem_filter, Finset.mem_erase, and_comm]
        refine and_congr_left fun hg => not_congr ⟨fun hslot => ?_, fun hgf => hgf ▸ rfl⟩
        -- a slot has one outcome
        obtain ⟨j, hj, hh, ht⟩ := mem_finished.1 hg
        obtain rfl : j = i := Fin.ext (by rw [← hslot, hh, handle_slot])
        cases g
        simp_all [f]
      rw [abs, he.finished_erase (fun _ => by rw [hfree]; simp), herase, he.map_waiter (h.not_mem (by simp [hs]))]
      rfl

omit h

/-! ## The exit of a process -/

/-- The entries of a process in some slots are dropped. -/
def without (a : Abs) (process : UInt64) (slots : List Nat) : Abs :=
  ⟨a.waiting.filter fun w => ¬ (w.task.process = process ∧ w.handle.slot ∈ slots),
    a.finished.filter fun f => ¬ (f.task.process = process ∧ f.handle.slot ∈ slots)⟩

theorem without_without (a : Abs) (process : UInt64) (slots slots' : List Nat) :
    without (without a process slots) process slots' = without a process (slots ++ slots') := by
  simp only [without, List.filter_filter, Finset.filter_filter, Abs.mk.injEq]
  constructor
  · refine List.filter_congr fun w _ => ?_
    by_cases hp : w.task.process = process <;> simp [hp, Bool.and_comm]
  · refine Finset.filter_congr fun f _ => ?_
    by_cases hp : f.task.process = process <;> simp [hp]

/-- A slot of the process is released. -/
theorem abs_released {table' : FutexTable N} {queue' : List (Fin N)} {process : UInt64} (he : Edits table table' i)
    (hfree : (table'.slot i).state = .free) (hp : (table.slot i).task.process = process)
    (hqueue : queue.filter (· ≠ i) = queue') : table'.abs queue' = without (table.abs queue) process [i.val] := by
  subst hqueue
  refine congrArg₂ Abs.mk ?_ ?_
  · rw [he.map_waiter (by simp), abs, List.filter_map]
    refine congrArg (List.map table.waiter) (List.filter_congr fun j _ => ?_)
    by_cases hji : j = i
    · subst hji
      simp [waiter, hp, handle_slot]
    · have hslot : (table.waiter j).handle.slot ≠ i.val := fun hv => hji (Fin.ext hv)
      simp [hji, hslot]
  · rw [he.finished_erase (fun _ => by rw [hfree]; simp)]
    refine Finset.filter_congr fun f hf => ?_
    obtain ⟨j, hj, hh, ht⟩ := mem_finished.1 hf
    rw [hh, ht]
    by_cases hji : j = i
    · subst hji
      simp [hp]
    · have hslot : (table.handle j).slot ≠ i.val := fun hv => hji (Fin.ext hv)
      simp [hslot]

include h

/-- A slot that holds nothing of the process. -/
theorem Queue.without_of_not {process : UInt64}
    (hi : ¬ ((table.slot i).state ≠ .free ∧ (table.slot i).task.process = process)) :
    without (table.abs queue) process [i.val] = table.abs queue := by
  have hno : ¬ ∃ j, (table.slot j).state ≠ .free ∧
      ((table.slot j).task.process = process ∧ (table.handle j).slot ∈ [i.val]) := by
    rintro ⟨j, hj, hp, hslot⟩
    obtain rfl : j = i := Fin.ext (List.mem_singleton.1 hslot)
    exact hi ⟨hj, hp⟩
  rw [← h.exists_entry fun handle task => task.process = process ∧ handle.slot ∈ [i.val], not_or] at hno
  have hwaiting : ∀ w ∈ (table.abs queue).waiting, ¬ (w.task.process = process ∧ w.handle.slot ∈ [i.val]) :=
    fun w hw hw' => hno.1 ⟨w, hw, hw'⟩
  have hfinished : ∀ f ∈ (table.abs queue).finished, ¬ (f.task.process = process ∧ f.handle.slot ∈ [i.val]) :=
    fun f hf hf' => hno.2 ⟨f, hf, hf'⟩
  rw [without, List.filter_eq_self.2 fun w hw => decide_eq_true (hwaiting w hw), Finset.filter_true_of_mem hfinished]

theorem Queue.exitSlot (process : UInt64) (count : Nat) (i : Fin N) :
    ∃ table' queue' count', exitSlot process table count i = some (table', count') ∧ Queue table' queue' ∧
      table'.abs queue' = without (table.abs queue) process [i.val] ∧
      count' + table'.occupied = count + table.occupied := by
  by_cases hleaves : (table.slot i).state ≠ .free ∧ (table.slot i).task.process = process
  · have hpos := h.occupied_pos hleaves.1
    cases hs : (table.slot i).state with
    | free => exact absurd hs hleaves.1
    | waiting =>
      obtain ⟨front, rest, rfl⟩ := h.split hs
      obtain ⟨hqueue, he, hfree⟩ := h.releaseWaiting rfl
      refine ⟨_, front ++ rest, count + 1, ?_, hqueue, abs_released he hfree hleaves.2 h.filter_ne, ?_⟩
      · rw [exitSlot, if_pos hleaves, if_pos hs, h.unlinkIndex]
        rfl
      · have := (link_unlink_counters table front.getLast? rest.head? i).2
        show count + 1 + ((table.unlink front.getLast? i rest.head?).occupied - 1) = count + table.occupied
        omega
    | done outcome =>
      obtain ⟨hqueue, he, hfree⟩ := h.release hs
      refine ⟨_, queue, count + 1, ?_, hqueue, abs_released he hfree hleaves.2 (filter_ne_self (h.not_mem (by simp [hs]))), ?_⟩
      · rw [FutexTable.exitSlot, if_pos hleaves, if_neg (by simp [hs])]
      · show count + 1 + (table.occupied - 1) = count + table.occupied
        omega
  · refine ⟨table, queue, count, ?_, h, (h.without_of_not hleaves).symm, rfl⟩
    rw [FutexTable.exitSlot, if_neg hleaves]

/-- The loop over some slots drops the entries of the process in them. -/
theorem Queue.exitSlots (process : UInt64) (indices : List (Fin N)) (count : Nat) : ∃ table' queue' count',
      indices.foldlM (fun (s : FutexTable N × Nat) index => FutexTable.exitSlot process s.1 s.2 index) (table, count) =
        some (table', count') ∧ Queue table' queue' ∧
      table'.abs queue' = without (table.abs queue) process (indices.map Fin.val) ∧
      count' + table'.occupied = count + table.occupied := by
  induction indices generalizing table queue count with
  | nil => exact ⟨table, queue, count, rfl, h, (by simp [without]), rfl⟩
  | cons i indices ih =>
    obtain ⟨table₁, queue₁, count₁, hstep, h₁, habs₁, hcount₁⟩ := h.exitSlot process count i
    obtain ⟨table', queue', count', hloop, h', habs', hcount'⟩ := ih h₁ count₁
    refine ⟨table', queue', count', ?_, h', ?_, hcount'.trans hcount₁⟩
    · rw [List.foldlM_cons, hstep]
      exact hloop
    · rw [habs', habs₁, without_without]
      rfl

theorem simulates_processExit (process : UInt64) : Simulates table queue (.processExit process) := by
  obtain ⟨table', queue', count, hloop, h', habs, hcount⟩ := h.exitSlots process (List.finRange N) 0
  have hall : ∀ i : Fin N, i.val ∈ (List.finRange N).map Fin.val := fun i => List.mem_map.2 ⟨i, List.mem_finRange i, rfl⟩
  have hwithout : table'.abs queue' = ⟨(table.abs queue).waiting.filter fun w => w.task.process ≠ process,
      (table.abs queue).finished.filter fun f => f.task.process ≠ process⟩ := by
    rw [habs]
    refine congrArg₂ Abs.mk (List.filter_congr fun w hw => ?_) (Finset.filter_congr fun f hf => ?_)
    · obtain ⟨i, -, rfl⟩ := (mem_abs_waiting h).1 hw
      have hslot : (table.waiter i).handle.slot ∈ (List.finRange N).map Fin.val := hall i
      simp only [hslot, and_true]
    · obtain ⟨i, -, hh, -⟩ := mem_abs_finished.1 hf
      have hslot : f.handle.slot ∈ (List.finRange N).map Fin.val := hh ▸ hall i
      simp only [hslot, and_true]
  refine ⟨.exited count, table', queue', ?_, h', hwithout, ?_⟩
  · simp only [step, processExit, hloop]
    rfl
  · rw [← h.size_eq, ← h'.size_eq]
    congr 1
    omega

theorem simulates (call : Call) : Simulates table queue call := by
  cases call with
  | wait => exact simulates_wait h ..
  | wake => exact simulates_wake h ..
  | requeue => exact simulates_requeue h ..
  | expire now => exact simulates_expire h now
  | cancel => exact simulates_cancel h ..
  | cancelTask => exact simulates_cancelTask h ..
  | processExit => exact simulates_processExit h ..
  | takeOutcome => exact simulates_takeOutcome h ..

/-- Every run of the table is a run of the abstract one. -/
theorem run_simulates (calls : List Call) : ∃ replies table' queue',
    table.run calls = some (replies, table') ∧ Queue table' queue' ∧
      Abs.Run N (table.abs queue) calls replies (table'.abs queue') := by
  induction calls generalizing table queue with
  | nil => exact ⟨[], table, queue, rfl, h, .nil _⟩
  | cons call calls ih =>
    obtain ⟨reply, table₁, queue₁, hstep, h₁, habs₁⟩ := simulates h call
    obtain ⟨replies, table', queue', hrun, h', habs'⟩ := ih h₁
    refine ⟨reply :: replies, table', queue', ?_, h', .cons habs₁ habs'⟩
    simp [run, hstep, hrun]

theorem Queue.exclusive : ∀ w ∈ (table.abs queue).waiting, ∀ f ∈ (table.abs queue).finished, w.handle ≠ f.handle := by
  intro w hw f hf heq
  obtain ⟨i, hi, rfl⟩ := (mem_abs_waiting h).1 hw
  exact slot_ne_of_finished hf (by simp [hi]) (congrArg WaitHandle.slot heq).symm

theorem Queue.waiting_card : table.waiting = (Finset.univ.filter fun i => (table.slot i).state = .waiting).card := by
  have hset : (Finset.univ.filter fun i => (table.slot i).state = .waiting) = queue.toFinset := by
    ext i
    simp [h.mem]
  rw [hset, List.toFinset_card_of_nodup h.nodup, h.waiting]

end FutexTable

/-! ## No waiter is lost or woken twice -/

def Reply.called : Reply → List Callback
  | .woke _ called | .requeued _ called | .expired _ called => called
  | _ => []

/-- What a call may do to the waiters: everyone who waited still waits, has an outcome or belonged to
a process that exits, and every callback is for another waiter, who then has an outcome. -/
structure NoneLost (a : Abs) (call : Call) (reply : Reply) (a' : Abs) : Prop where
  kept : ∀ w ∈ a.waiting, (∃ w' ∈ a'.waiting, w'.handle = w.handle ∧ w'.task = w.task) ∨
    (∃ f ∈ a'.finished, f.handle = w.handle ∧ f.task = w.task) ∨ call = .processExit w.task.process
  called : ∀ c ∈ reply.called, ∃ w ∈ a.waiting, w.callback = c ∧ ∃ f ∈ a'.finished, f.handle = w.handle ∧ f.task = w.task
  once : reply.called.Nodup

theorem noneLost_same {a : Abs} {call : Call} {reply : Reply} (hcalled : reply.called = []) : NoneLost a call reply a where
  kept w hw := .inl ⟨w, hw, rfl, rfl⟩
  called c hc := by rw [hcalled] at hc; cases hc
  once := by rw [hcalled]; exact List.nodup_nil

theorem matching_sublist (key : FutexKey) (ws : List Waiter) : (matching key ws).Sublist ws := List.filter_sublist

theorem due_sublist (now : UInt64) (ws : List Waiter) : (due now ws).Sublist ws := List.filter_sublist

variable {a : Abs} {call : Call} {reply : Reply}

/-- A call that ends the waits of some waiters, with a callback for each or for none, and may give
others another key. -/
theorem noneLost_leave {gone waiting : List Waiter} {outcome : WaitOutcome}
    (hgone : gone.Sublist a.waiting) (hnodup : (a.waiting.map Waiter.handle).Nodup)
    (hcalled : reply.called = gone.map Waiter.callback ∨ reply.called = [])
    (hwaiting : ∀ w ∈ (a.leave gone outcome).waiting, ∃ w' ∈ waiting, w'.handle = w.handle ∧ w'.task = w.task) :
    NoneLost a call reply { a.leave gone outcome with waiting := waiting } := by
  have hended : ∀ w ∈ gone, ∃ f ∈ (a.leave gone outcome).finished, f.handle = w.handle ∧ f.task = w.task := fun w hw =>
    ⟨w.finish outcome, Finset.mem_union_right _ (List.mem_toFinset.2 (List.mem_map.2 ⟨w, hw, rfl⟩)), rfl, rfl⟩
  refine ⟨fun w hw => ?_, fun c hc => ?_, ?_⟩
  · by_cases hg : w ∈ gone
    · exact .inr (.inl (hended w hg))
    · exact .inl (hwaiting w (List.mem_filter.2 ⟨hw, by simpa using hg⟩))
  · rcases hcalled with hcalled | hcalled
    · rw [hcalled] at hc
      obtain ⟨w, hw, rfl⟩ := List.mem_map.1 hc
      exact ⟨w, hgone.subset hw, rfl, hended w hw⟩
    · rw [hcalled] at hc
      cases hc
  · rcases hcalled with hcalled | hcalled
    · rw [hcalled]
      -- two callbacks differ in their handles
      refine List.Nodup.of_map Prod.snd ?_
      rw [List.map_map]
      exact hnodup.sublist (hgone.map Waiter.handle)
    · rw [hcalled]
      exact List.nodup_nil

theorem noneLost_step {capacity : Nat} {a' : Abs} (h : a.Step capacity call reply a')
    (hnodup : (a.waiting.map Waiter.handle).Nodup) : NoneLost a call reply a' := by
  have hsame : ∀ {gone : List Waiter} {outcome : WaitOutcome}, ∀ w ∈ (a.leave gone outcome).waiting,
      ∃ w' ∈ (a.leave gone outcome).waiting, w'.handle = w.handle ∧ w'.task = w.task := fun w hw => ⟨w, hw, rfl, rfl⟩
  cases call with
  | wait key task observed expected now deadline =>
    simp only [Abs.Step] at h
    cases herror : a.waitError capacity key task observed expected now deadline with
    | some error =>
      rw [herror] at h
      obtain ⟨rfl, rfl⟩ := h
      exact noneLost_same rfl
    | none =>
      rw [herror] at h
      obtain ⟨handle, -, -, rfl, rfl⟩ := h
      exact ⟨fun w hw => .inl ⟨w, List.mem_append_left _ hw, rfl, rfl⟩, nofun, List.nodup_nil⟩
  | wake key maximum =>
    simp only [Abs.Step] at h
    split at h
    · obtain ⟨rfl, rfl⟩ := h
      exact noneLost_leave ((List.take_sublist _ _).trans (matching_sublist _ _)) hnodup (.inl rfl) hsame
    · obtain ⟨rfl, rfl⟩ := h
      exact noneLost_same rfl
  | requeue source target wakeLimit requeueLimit =>
    simp only [Abs.Step] at h
    split at h
    · obtain ⟨rfl, rfl⟩ := h
      exact noneLost_same rfl
    split at h
    · obtain ⟨rfl, rfl⟩ := h
      exact noneLost_same rfl
    · obtain ⟨rfl, rfl⟩ := h
      refine noneLost_leave ((List.take_sublist _ _).trans (matching_sublist _ _)) hnodup (.inl rfl) fun w hw => ?_
      refine ⟨_, List.mem_map.2 ⟨w, hw, rfl⟩, ?_, ?_⟩ <;> split <;> rfl
  | expire now =>
    obtain ⟨rfl, rfl⟩ := h
    exact noneLost_leave (due_sublist _ _) hnodup (.inl rfl) hsame
  | cancel handle =>
    rcases h with ⟨w, hw, -, rfl, rfl⟩ | ⟨f, -, -, rfl, rfl⟩ | ⟨-, -, rfl, rfl⟩
    · exact noneLost_leave (List.singleton_sublist.2 hw) hnodup (.inr rfl) hsame
    · exact noneLost_same rfl
    · exact noneLost_same rfl
  | cancelTask task =>
    rcases h with ⟨w, hw, -, rfl, rfl⟩ | ⟨-, rfl, rfl⟩
    · exact noneLost_leave (List.singleton_sublist.2 hw) hnodup (.inr rfl) hsame
    · exact noneLost_same rfl
  | processExit process =>
    obtain ⟨rfl, rfl⟩ := h
    refine ⟨fun w hw => ?_, nofun, List.nodup_nil⟩
    by_cases hp : w.task.process = process
    · exact .inr (.inr (by rw [hp]))
    · exact .inl ⟨w, List.mem_filter.2 ⟨hw, by simpa using hp⟩, rfl, rfl⟩
  | takeOutcome handle =>
    rcases h with ⟨w, hw, -, rfl, rfl⟩ | ⟨f, -, -, rfl, rfl⟩ | ⟨-, -, rfl, rfl⟩
    · exact noneLost_same rfl
    · exact ⟨fun w hw => .inl ⟨w, hw, rfl, rfl⟩, nofun, List.nodup_nil⟩
    · exact noneLost_same rfl

/-! ## The refinement -/

/-- After any calls on a new table the replies are those of the abstract table, the counters are the
numbers of waiting and of occupied slots, no task has two slots, and every further call is a step of
the abstract table that loses no waiter and calls none back twice. -/
theorem table_refines_queue (N : Nat) (calls : List Call) : ∃ replies table a,
    (new N).run calls = some (replies, table) ∧ Abs.Run N ⟨[], ∅⟩ calls replies a ∧
      (table.waiting = a.waiting.length ∧
        table.waiting = (Finset.univ.filter fun i => (table.slot i).state = .waiting).card) ∧
      (table.occupied = a.size ∧ table.occupied = (Finset.univ.filter fun i => (table.slot i).state ≠ .free).card) ∧
      (∀ i j, (table.slot i).state ≠ .free → (table.slot j).state ≠ .free →
        (table.slot i).task = (table.slot j).task → i = j) ∧
      ∀ call, ∃ reply table' a', table.step call = some (reply, table') ∧ a.Step N call reply a' ∧
        NoneLost a call reply a' ∧ ∀ w ∈ a'.waiting, ∀ f ∈ a'.finished, w.handle ≠ f.handle := by
  obtain ⟨replies, table, queue, hrun, h, habs⟩ := run_simulates (@queue_new N) calls
  have hnew : (new N).abs [] = ⟨[], ∅⟩ := by
    refine congrArg₂ Abs.mk rfl (Finset.eq_empty_iff_forall_notMem.2 fun f hf => ?_)
    obtain ⟨i, hi, -⟩ := mem_finished.1 hf
    simp [new, slot, Vector.get, Slot.empty] at hi
  rw [hnew] at habs
  refine ⟨replies, table, table.abs queue, hrun, habs, ⟨?_, h.waiting_card⟩, ⟨h.size_eq, h.occupied⟩, h.tasks, fun call => ?_⟩
  · rw [h.waiting]
    simp [FutexTable.abs]
  obtain ⟨reply, table', queue', hstep, h', hsim⟩ := simulates h call
  have hnodup : ((table.abs queue).waiting.map Waiter.handle).Nodup := by
    rw [FutexTable.abs, List.map_map]
    exact h.nodup.map fun i j hij => Fin.ext (congrArg WaitHandle.slot hij)
  exact ⟨reply, table', _, hstep, hsim, noneLost_step hsim hnodup, h'.exclusive⟩

/-- A waiter that is requeued stays before one that arrived later under the target key. -/
theorem requeued_before_later_arrival :
    let source : FutexKey := ⟨1, 0⟩
    let target : FutexKey := ⟨1, 4⟩
    let first : TaskId := ⟨1, 1⟩
    let second : TaskId := ⟨1, 2⟩
    ((new 2).run [.wait source first 0 0 0 none, .wait target second 0 0 0 none,
      .requeue source target 0 1, .wake target 1]).map (fun r => r.1.map Reply.called) =
        some [[], [], [], [(first, ⟨0, 1⟩)]] := by
  decide

end MakOS.Futex
