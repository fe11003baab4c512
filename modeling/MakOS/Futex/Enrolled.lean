/-
What the scheduler has to know about the futex table: which tasks are enrolled, with which handles, and how
each call changes that. The facts follow from the refinement; a caller of the table needs no slots, links or
queues.
-/
import MakOS.Futex.Refine

namespace MakOS.Futex.FutexTable

variable {N : Nat} {table table' : FutexTable N} {queue : List (Fin N)} {c c' : Callback} {called : List Callback}

/-- The queue is intact. -/
def Sound (table : FutexTable N) : Prop := ∃ queue, Queue table queue

def Enrolled (table : FutexTable N) (c : Callback) : Prop :=
  ∃ i, (table.slot i).state = .waiting ∧ (table.waiter i).callback = c

theorem sound_new (N : Nat) : Sound (new N) := ⟨[], queue_new⟩

theorem not_enrolled_new : ¬ Enrolled (new N) c := by
  rintro ⟨i, hi, -⟩
  simp [new, slot, Vector.get, Slot.empty] at hi

theorem Queue.enrolled_iff (h : Queue table queue) :
    Enrolled table c ↔ c ∈ (table.abs queue).waiting.map Waiter.callback := by
  simp [Enrolled, mem_abs_waiting h]

/-- A handle is for one task. -/
theorem Enrolled.eq_of_handle (h : Enrolled table c) (h' : Enrolled table c') (heq : c.2 = c'.2) : c = c' := by
  obtain ⟨i, -, rfl⟩ := h
  obtain ⟨j, -, rfl⟩ := h'
  rw [show i = j from Fin.ext (congrArg WaitHandle.slot heq)]

structure Ended (table : FutexTable N) (called : List Callback) (table' : FutexTable N) : Prop where
  sound : Sound table'
  nodup : called.Nodup
  mem : ∀ c ∈ called, Enrolled table c
  enrolled : ∀ c, Enrolled table' c ↔ Enrolled table c ∧ c ∉ called

/-- The abstract table leaves out some waiters, and may give others another key. -/
theorem Queue.ended {queue' : List (Fin N)} {gone : List Waiter} (h : Queue table queue) (h' : Queue table' queue')
    (hgone : gone.Sublist (table.abs queue).waiting)
    (hwaiting : (table'.abs queue').waiting.map Waiter.callback =
      ((table.abs queue).waiting.filter (· ∉ gone)).map Waiter.callback) :
    Ended table (gone.map Waiter.callback) table' := by
  -- waiters differ in their handles
  have hinj : ∀ w ∈ (table.abs queue).waiting, ∀ w' ∈ (table.abs queue).waiting, w.callback = w'.callback → w = w' := by
    intro w hw w' hw' heq
    obtain ⟨i, -, rfl⟩ := (mem_abs_waiting h).1 hw
    obtain ⟨j, -, rfl⟩ := (mem_abs_waiting h).1 hw'
    rw [show i = j from Fin.ext (congrArg (fun c : Callback => c.2.slot) heq)]
  refine ⟨⟨queue', h'⟩, ?_, fun c hc => ?_, fun c => ?_⟩
  · exact List.Nodup.map_on (fun w hw w' hw' => hinj w (hgone.subset hw) w' (hgone.subset hw'))
      (h.nodup_waiters.sublist hgone)
  · rw [h.enrolled_iff]
    exact (hgone.map Waiter.callback).subset hc
  rw [h'.enrolled_iff, h.enrolled_iff, hwaiting]
  constructor
  · intro hc
    obtain ⟨w, hw, rfl⟩ := List.mem_map.1 hc
    obtain ⟨hmem, hnot⟩ := List.mem_filter.1 hw
    refine ⟨List.mem_map_of_mem hmem, fun hg => ?_⟩
    obtain ⟨w', hw', heq⟩ := List.mem_map.1 hg
    rw [hinj w' (hgone.subset hw') w hmem heq] at hw'
    simp [hw'] at hnot
  · rintro ⟨hc, hnot⟩
    obtain ⟨w, hw, rfl⟩ := List.mem_map.1 hc
    refine List.mem_map_of_mem (List.mem_filter.2 ⟨hw, ?_⟩)
    simpa using fun hg => hnot (List.mem_map_of_mem hg)

/-! ## The calls -/

theorem wait_enrolled (h : Sound table) (key : FutexKey) (task : TaskId) (observed expected : UInt32) (now : UInt64)
    (deadline : Option UInt64) :
    (∃ error, table.wait key task observed expected now deadline = (.error error, table)) ∨
      ∃ handle table', table.wait key task observed expected now deadline = (.ok handle, table') ∧ Sound table' ∧
        (∀ t, ¬ Enrolled table (t, handle)) ∧ ∀ c, Enrolled table' c ↔ Enrolled table c ∨ c = (task, handle) := by
  obtain ⟨queue, hq⟩ := h
  rcases hq.wait key task observed expected now deadline with ⟨error, -, hwait⟩ | ⟨i, -, hfree, hbusy, hwait⟩
  · exact .inl ⟨error, hwait⟩
  have htask : ∀ j, (table.slot j).state ≠ .free → (table.slot j).task ≠ task := fun j hj ht =>
    hbusy ((hq.busy_iff task).2 ⟨j, hj, ht⟩)
  obtain ⟨hqueue, he, hself, -⟩ := @Queue.enqueue N table queue i hq hfree key task deadline htask
  refine .inr ⟨_, _, hwait, ⟨_, hqueue⟩, ?_, fun c => ?_⟩
  · rintro t ⟨j, hj, heq⟩
    obtain rfl : j = i := Fin.ext (congrArg (fun c : Callback => c.2.slot) heq)
    rw [hfree] at hj
    cases hj
  rw [hqueue.enrolled_iff, hq.enrolled_iff]
  simp only [abs, List.map_append, List.map_cons, List.map_nil, hself, he.map_waiter (hq.not_mem (by simp [hfree])), List.mem_append,
    List.mem_singleton]
  rfl

theorem wake_ended (h : Sound table) (key : FutexKey) (maximum : Nat) : ∃ result table' called,
    table.wake key maximum = some (result, table', called) ∧ Ended table called table' ∧
      ∀ n, result = .ok n → n = called.length := by
  obtain ⟨queue, hq⟩ := h
  obtain ⟨reply, table', queue', hstep, hq', habs⟩ := simulates_wake hq key maximum
  obtain ⟨⟨result, table₁, called⟩, hwake, hreply⟩ := Option.bind_eq_some_iff.1 hstep
  cases hreply
  refine ⟨_, table', _, hwake, ?_⟩
  simp only [Abs.Step] at habs
  split at habs
  · obtain ⟨hreply, hwaiting⟩ := habs
    cases hreply
    refine ⟨hq.ended hq' ((List.take_sublist _ _).trans (matching_sublist _ _)) (by rw [hwaiting]; rfl), ?_⟩
    rintro n ⟨⟩
    rw [List.length_map]
  · obtain ⟨hreply, hsame⟩ := habs
    cases hreply
    refine ⟨hq.ended hq' (List.nil_sublist _) (by rw [hsame]; simp), fun n hn => by cases hn⟩

theorem requeue_ended (h : Sound table) (source target : FutexKey) (wakeLimit requeueLimit : Nat) :
    ∃ result table' called, table.requeue source target wakeLimit requeueLimit = some (result, table', called) ∧
      Ended table called table' ∧ ∀ n m, result = .ok (n, m) → n = called.length := by
  obtain ⟨queue, hq⟩ := h
  obtain ⟨reply, table', queue', hstep, hq', habs⟩ := simulates_requeue hq source target wakeLimit requeueLimit
  obtain ⟨⟨result, table₁, called⟩, hwake, hreply⟩ := Option.bind_eq_some_iff.1 hstep
  cases hreply
  refine ⟨_, table', _, hwake, ?_⟩
  simp only [Abs.Step] at habs
  split at habs
  · obtain ⟨hreply, hsame⟩ := habs
    cases hreply
    exact ⟨hq.ended hq' (List.nil_sublist _) (by rw [hsame]; simp), fun n m hn => by cases hn⟩
  split at habs
  · obtain ⟨hreply, hsame⟩ := habs
    cases hreply
    exact ⟨hq.ended hq' (List.nil_sublist _) (by rw [hsame]; simp), fun n m hn => by cases hn⟩
  obtain ⟨hreply, hwaiting⟩ := habs
  cases hreply
  refine ⟨hq.ended hq' ((List.take_sublist _ _).trans (matching_sublist _ _)) ?_, ?_⟩
  · rw [hwaiting]
    -- another key leaves the callback
    rw [retagAll, List.map_map]
    refine List.map_congr_left fun w _ => ?_
    dsimp only [Function.comp]
    split <;> rfl
  · rintro n m ⟨⟩
    rw [List.length_map]

theorem expire_ended (h : Sound table) (now : UInt64) : ∃ n table' called,
    table.expire now = some (n, table', called) ∧ Ended table called table' := by
  obtain ⟨queue, hq⟩ := h
  obtain ⟨reply, table', queue', hstep, hq', habs⟩ := simulates_expire hq now
  obtain ⟨⟨n, table₁, called⟩, hexpire, hreply⟩ := Option.bind_eq_some_iff.1 hstep
  cases hreply
  refine ⟨_, table', _, hexpire, ?_⟩
  obtain ⟨hreply, hwaiting⟩ := habs
  cases hreply
  exact hq.ended hq' (due_sublist _ _) (by rw [hwaiting]; rfl)

theorem cancel_ended (h : Sound table) (hc : Enrolled table c) : ∃ result table',
    table.cancel c.2 = some (result, table') ∧ Ended table [c] table' := by
  obtain ⟨queue, hq⟩ := h
  obtain ⟨reply, table', queue', hstep, hq', habs⟩ := simulates_cancel hq c.2
  obtain ⟨⟨result, table₁⟩, hcancel, hreply⟩ := Option.bind_eq_some_iff.1 hstep
  cases hreply
  refine ⟨_, table', hcancel, ?_⟩
  obtain ⟨w, hw, rfl⟩ := List.mem_map.1 (hq.enrolled_iff.1 hc)
  rcases habs with ⟨w', hw', hhandle, -, hwaiting⟩ | ⟨f, hf, hhandle, -, -⟩ | ⟨hno, -, -, -⟩
  · have hcall : w'.callback = w.callback := Enrolled.eq_of_handle (hq.enrolled_iff.2 (List.mem_map_of_mem hw')) hc hhandle
    rw [← hcall]
    exact hq.ended hq' (List.singleton_sublist.2 hw') (by rw [hwaiting]; rfl)
  · exact absurd hhandle.symm (hq.exclusive w hw f hf)
  · exact absurd rfl (hno w hw)

theorem cancelTask_none {task : TaskId} (hno : ∀ handle, ¬ Enrolled table (task, handle)) :
    table.cancelTask task = some (none, table) := by
  have hfind : ((List.finRange N).find? fun i => (table.slot i).state = .waiting ∧ (table.slot i).task = task) = none := by
    rw [List.find?_eq_none]
    intro i _ hi
    have hi := of_decide_eq_true hi
    exact hno (table.handle i) ⟨i, hi.1, congrArg (·, table.handle i) hi.2⟩
  rw [cancelTask, hfind]

theorem processExit_ended (h : Sound table) (process : UInt64) : ∃ n table', table.processExit process = some (n, table') ∧
    Sound table' ∧ ∀ c, Enrolled table' c ↔ Enrolled table c ∧ c.1.process ≠ process := by
  obtain ⟨queue, hq⟩ := h
  obtain ⟨reply, table', queue', hstep, hq', habs⟩ := simulates_processExit hq process
  obtain ⟨⟨n, table₁⟩, hexit, hreply⟩ := Option.bind_eq_some_iff.1 hstep
  cases hreply
  refine ⟨_, table', hexit, ⟨queue', hq'⟩, fun c => ?_⟩
  rw [hq'.enrolled_iff, hq.enrolled_iff, habs.1]
  simp only [List.mem_map, List.mem_filter, decide_eq_true_eq]
  constructor
  · rintro ⟨w, ⟨hw, hp⟩, rfl⟩
    exact ⟨⟨w, hw, rfl⟩, hp⟩
  · rintro ⟨⟨w, hw, rfl⟩, hp⟩
    exact ⟨w, ⟨hw, hp⟩, rfl⟩

theorem takeOutcome_enrolled (h : Sound table) (handle : WaitHandle) :
    Sound (table.takeOutcome handle).2 ∧ ∀ c, Enrolled (table.takeOutcome handle).2 c ↔ Enrolled table c := by
  obtain ⟨queue, hq⟩ := h
  obtain ⟨reply, table', queue', hstep, hq', habs⟩ := simulates_takeOutcome hq handle
  have htable : (table.takeOutcome handle).2 = table' := congrArg Prod.snd (Option.some.inj hstep)
  rw [htable]
  refine ⟨⟨queue', hq'⟩, fun c => ?_⟩
  rw [hq'.enrolled_iff, hq.enrolled_iff]
  rcases habs with ⟨_, _, _, _, heq⟩ | ⟨_, _, _, _, heq⟩ | ⟨_, _, _, heq⟩
  · rw [heq]
  · rw [heq]
  · rw [heq]

end MakOS.Futex.FutexTable
