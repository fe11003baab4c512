/-
The table as an abstract list of waiting tasks in arrival order and a set of finished outcomes, and
the invariant behind it: the links visit exactly the waiting slots, each once, the counters are the
true numbers and no task has two slots. Every edit of the links is one of four: a waiter is
appended, a waiter is unlinked, a waiter gets another key, a finished slot is released.
-/
import MakOS.Data.Linked
import MakOS.Futex.Table

namespace MakOS.Futex

open MakOS.Data FutexTable

structure Waiter where
  handle : WaitHandle
  key : FutexKey
  task : TaskId
  deadline : Option UInt64
  deriving DecidableEq, Repr

/-- A task whose wait has ended and whose outcome was not taken yet. -/
structure Finished where
  handle : WaitHandle
  task : TaskId
  outcome : WaitOutcome
  deriving DecidableEq, Repr

structure Abs where
  waiting : List Waiter
  finished : Finset Finished

def Waiter.finish (waiter : Waiter) (outcome : WaitOutcome) : Finished := ⟨waiter.handle, waiter.task, outcome⟩

def Waiter.callback (waiter : Waiter) : Callback := (waiter.task, waiter.handle)

namespace FutexTable

variable {N : Nat} {table table' : FutexTable N} {queue front rest : List (Fin N)} {i j : Fin N}

/-! ## Slots -/

@[simp] theorem slot_setSlot (table : FutexTable N) (i j : Fin N) (slot : Slot N) :
    (table.setSlot i slot).slot j = if i = j then slot else table.slot j := by
  change (table.slots.set i.val slot)[j.val] = if i = j then slot else table.slots[j.val]
  by_cases h : i = j
  · subst h; simp
  · rw [if_neg h]
    exact Vector.getElem_set_ne i.isLt j.isLt fun hv => h (Fin.ext hv)

@[simp] theorem slot_link (table : FutexTable N) (previous next : Option (Fin N)) (j : Fin N) :
    (table.link previous next).slot j =
      { table.slot j with next := if previous = some j then next else (table.slot j).next } := by
  cases previous with
  | none => simp [link, slot]
  | some p =>
    simp only [link]
    by_cases h : p = j
    · subst h; simp
    · simp [h]

theorem unlink_eq (table : FutexTable N) (previous next : Option (Fin N)) (i : Fin N) :
    table.unlink previous i next = if (table.link previous next).tail = some i
      then { table.link previous next with tail := previous } else table.link previous next := rfl

@[simp] theorem slot_unlink (table : FutexTable N) (previous next : Option (Fin N)) (i j : Fin N) :
    (table.unlink previous i next).slot j =
      { table.slot j with next := if previous = some j then next else (table.slot j).next } := by
  rw [← slot_link, unlink_eq]
  split <;> rfl

@[simp] theorem slot_settle (table : FutexTable N) (i j : Fin N) (outcome : WaitOutcome) :
    (table.settle i outcome).slot j =
      if i = j then { table.slot i with state := .done outcome, deadline := none, next := none } else table.slot j :=
  slot_setSlot ..

@[simp] theorem slot_retag (table : FutexTable N) (i j : Fin N) (key : FutexKey) :
    (table.retag i key).slot j = if i = j then { table.slot i with key := key } else table.slot j :=
  slot_setSlot ..

@[simp] theorem slot_release (table : FutexTable N) (i j : Fin N) : (table.release i).slot j =
    if i = j then { Slot.empty N with generation := (table.slot i).generation } else table.slot j :=
  slot_setSlot ..

/-! ## What the slots stand for -/

def waiter (table : FutexTable N) (i : Fin N) : Waiter :=
  ⟨table.handle i, (table.slot i).key, (table.slot i).task, (table.slot i).deadline⟩

def occupants (table : FutexTable N) : Finset (Fin N) := Finset.univ.filter fun i => (table.slot i).state ≠ .free

def outcome? (table : FutexTable N) (i : Fin N) : Option WaitOutcome :=
  match (table.slot i).state with
  | .done outcome => some outcome
  | _ => none

def finished (table : FutexTable N) : Finset Finished :=
  Finset.univ.biUnion fun i =>
    (table.outcome? i).elim ∅ fun outcome => {⟨table.handle i, (table.slot i).task, outcome⟩}

def abs (table : FutexTable N) (queue : List (Fin N)) : Abs := ⟨queue.map table.waiter, table.finished⟩

theorem mem_finished {f : Finished} : f ∈ table.finished ↔
    ∃ i, (table.slot i).state = .done f.outcome ∧ f.handle = table.handle i ∧ f.task = (table.slot i).task := by
  simp only [finished, Finset.mem_biUnion, outcome?]
  constructor
  · rintro ⟨i, hi⟩
    refine ⟨i, ?_⟩
    split at hi
    · rename_i outcome hs
      obtain rfl : f = _ := by simpa using hi
      exact ⟨hs, rfl, rfl⟩
    · simp at hi
  · rintro ⟨i, hs, hh, ht⟩
    refine ⟨i, ?_⟩
    cases f
    simp_all

theorem mem_occupants : i ∈ table.occupants ↔ (table.slot i).state ≠ .free := by simp [occupants]

/-! ## The invariant -/

structure Queue (table : FutexTable N) (queue : List (Fin N)) : Prop where
  path : Path (fun i => (table.slot i).next) table.head queue none
  tail : table.tail = queue.getLast?
  nodup : queue.Nodup
  mem : ∀ i, i ∈ queue ↔ (table.slot i).state = .waiting
  waiting : table.waiting = queue.length
  occupied : table.occupied = table.occupants.card
  tasks : ∀ i j, (table.slot i).state ≠ .free → (table.slot j).state ≠ .free →
    (table.slot i).task = (table.slot j).task → i = j

theorem queue_new : Queue (new N) [] := by
  have hfree : ∀ i, ((new N).slot i).state = .free := fun i => by simp [new, slot, Vector.get, Slot.empty]
  refine ⟨rfl, rfl, List.nodup_nil, fun i => ?_, rfl, ?_, fun i j hi => absurd (hfree i) hi⟩
  · rw [hfree i]
    simp
  rw [eq_comm]
  show (new N).occupants.card = 0
  rw [Finset.card_eq_zero, Finset.eq_empty_iff_forall_notMem]
  exact fun i hi => mem_occupants.1 hi (hfree i)

theorem Queue.length_le (h : Queue table queue) : queue.length ≤ N := by
  have := h.nodup.length_le_card
  simpa using this

theorem Queue.head (h : Queue table queue) : table.head = queue.head? := h.path.start_eq

theorem Queue.next (h : Queue table (front ++ i :: rest)) : (table.slot i).next = rest.head? := by
  obtain ⟨middle, -, hrest⟩ := path_append.1 h.path
  exact hrest.2.start_eq

theorem handle_slot (table : FutexTable N) (i : Fin N) : (table.handle i).slot = i.val := rfl

/-- No outcome is that of a slot that is not finished. -/
theorem slot_ne_of_finished {f : Finished} (hf : f ∈ table.finished) (h : ∀ outcome, (table.slot i).state ≠ .done outcome) :
    f.handle.slot ≠ i.val := by
  obtain ⟨j, hs, hh, -⟩ := mem_finished.1 hf
  rw [hh]
  exact fun hv => h _ (Fin.ext hv ▸ hs)

theorem Queue.not_mem (h : Queue table queue) (hi : (table.slot i).state ≠ .waiting) : i ∉ queue :=
  fun hm => hi ((h.mem i).1 hm)

theorem Queue.occupied_pos (h : Queue table queue) (hi : (table.slot i).state ≠ .free) : 0 < table.occupied := by
  rw [h.occupied]
  exact Finset.card_pos.2 ⟨i, mem_occupants.2 hi⟩

/-! ## Edits of one slot -/

/-- The tables agree apart from slot `i`, the links and the counters. -/
def Edits (table table' : FutexTable N) (i : Fin N) : Prop :=
  ∀ j, j ≠ i → ∃ next, table'.slot j = { table.slot j with next := next }

section Edits

variable (he : Edits table table' i)
include he

theorem Edits.keeps (hj : j ≠ i) : (table'.slot j).state = (table.slot j).state ∧ table'.waiter j = table.waiter j := by
  obtain ⟨next, hnext⟩ := he j hj
  rw [waiter, waiter, handle, handle, hnext]
  exact ⟨rfl, rfl⟩

theorem Edits.map_waiter (hi : i ∉ queue) : queue.map table'.waiter = queue.map table.waiter :=
  List.map_congr_left fun _ hj => (he.keeps fun hji => hi (hji ▸ hj)).2

theorem Edits.occupants : table'.occupants.erase i = table.occupants.erase i := by
  ext j
  rw [Finset.mem_erase, Finset.mem_erase, mem_occupants, mem_occupants]
  exact and_congr_right fun hj => by rw [(he.keeps hj).1]

theorem Edits.mem_finished {f : Finished} : f ∈ table'.finished ↔
    f ∈ table.finished ∧ f.handle.slot ≠ i.val ∨ (table'.slot i).state = .done f.outcome ∧
      f.handle = table'.handle i ∧ f.task = (table'.slot i).task := by
  rw [FutexTable.mem_finished, FutexTable.mem_finished]
  have hkeep : ∀ j, j ≠ i → ((table'.slot j).state = .done f.outcome ∧ f.handle = table'.handle j ∧ f.task = (table'.slot j).task ↔
      (table.slot j).state = .done f.outcome ∧ f.handle = table.handle j ∧ f.task = (table.slot j).task) := fun j hj => by
    obtain ⟨next, hnext⟩ := he j hj
    rw [handle, handle, hnext]
  constructor
  · rintro ⟨j, hf⟩
    by_cases hj : j = i
    · exact .inr (hj ▸ hf)
    · refine .inl ⟨⟨j, (hkeep j hj).1 hf⟩, ?_⟩
      rw [hf.2.1]
      exact fun hv => hj (Fin.ext hv)
  · rintro (⟨⟨j, hf⟩, hne⟩ | hi)
    · refine ⟨j, (hkeep j ?_).2 hf⟩
      rintro rfl
      exact hne (hf.2.1 ▸ rfl)
    · exact ⟨i, hi⟩

/-- A wait ends. -/
theorem Edits.finished_insert {outcome : WaitOutcome} (hwas : (table.slot i).state = .waiting)
    (hstate : (table'.slot i).state = .done outcome) (hhandle : table'.handle i = table.handle i)
    (htask : (table'.slot i).task = (table.slot i).task) :
    table'.finished = insert ((table.waiter i).finish outcome) table.finished := by
  ext f
  rw [Finset.mem_insert, he.mem_finished, and_iff_left_of_imp fun hf => slot_ne_of_finished hf (by simp [hwas]),
    or_comm, hstate, hhandle, htask]
  cases f
  simp [Waiter.finish, waiter]
  tauto

theorem Edits.finished_erase (hnow : ∀ outcome, (table'.slot i).state ≠ .done outcome) :
    table'.finished = table.finished.filter fun f => f.handle.slot ≠ i.val := by
  ext f
  simp [he.mem_finished, hnow]

theorem Edits.finished_keep (hwas : ∀ outcome, (table.slot i).state ≠ .done outcome)
    (hnow : ∀ outcome, (table'.slot i).state ≠ .done outcome) : table'.finished = table.finished := by
  rw [he.finished_erase hnow]
  exact Finset.filter_true_of_mem fun f hf => slot_ne_of_finished hf hwas

end Edits

/-- Slot `i` counts if it is not free. -/
theorem card_occupants (table : FutexTable N) (i : Fin N) : table.occupants.card =
    (table.occupants.erase i).card + if (table.slot i).state = .free then 0 else 1 := by
  split
  · rename_i hfree
    rw [Finset.erase_eq_of_notMem fun hm => mem_occupants.1 hm hfree, Nat.add_zero]
  · rename_i hused
    exact (Finset.card_erase_add_one (mem_occupants.2 hused)).symm

/-- What an edit of slot `i` has to keep. -/
theorem Queue.edit {queue' : List (Fin N)} (h : Queue table queue) (he : Edits table table' i)
    (hpath : Path (fun j => (table'.slot j).next) table'.head queue' none) (htail : table'.tail = queue'.getLast?)
    (hnodup : queue'.Nodup) (hmem : ∀ j, j ≠ i → (j ∈ queue' ↔ j ∈ queue))
    (hself : i ∈ queue' ↔ (table'.slot i).state = .waiting) (hwaiting : table'.waiting = queue'.length)
    (hoccupied : table'.occupied + (if (table.slot i).state = .free then 0 else 1) =
      table.occupied + if (table'.slot i).state = .free then 0 else 1)
    (htask : (table'.slot i).state ≠ .free → ∀ j, j ≠ i → (table.slot j).state ≠ .free →
      (table.slot j).task ≠ (table'.slot i).task) : Queue table' queue' := by
  have hother : ∀ j, j ≠ i → (table'.slot i).state ≠ .free → (table'.slot j).state ≠ .free →
      (table'.slot j).task ≠ (table'.slot i).task := fun j hj hi hs ht =>
    htask hi j hj ((he.keeps hj).1 ▸ hs) ((congrArg Waiter.task (he.keeps hj).2).symm.trans ht)
  refine ⟨hpath, htail, hnodup, fun j => ?_, hwaiting, ?_, fun j k hj hk hjk => ?_⟩
  · by_cases hj : j = i
    · rw [hj, hself]
    · rw [hmem j hj, (he.keeps hj).1, h.mem]
  · have hcard := card_occupants table i
    have hcard' := card_occupants table' i
    rw [he.occupants] at hcard'
    rw [h.occupied] at hoccupied
    omega
  · by_contra hne
    rcases eq_or_ne j i with rfl | hji
    · exact hother k (Ne.symm hne) hj hk hjk.symm
    rcases eq_or_ne k i with rfl | hki
    · exact hother j hji hk hj hjk
    · have hj' := he.keeps hji
      have hk' := he.keeps hki
      refine hne (h.tasks j k (hj'.1 ▸ hj) (hk'.1 ▸ hk) ?_)
      exact (congrArg Waiter.task hj'.2).symm.trans (hjk.trans (congrArg Waiter.task hk'.2))

theorem Queue.task_ne (h : Queue table queue) (hi : (table.slot i).state ≠ .free) (hj : j ≠ i)
    (hs : (table.slot j).state ≠ .free) : (table.slot j).task ≠ (table.slot i).task := fun ht => hj (h.tasks j i hs hi ht)

/-! ## Redirecting a link -/

/-- The nodes of the front end where their last node, or the head, is made to lead. -/
theorem path_link {stop : Option (Fin N)} (stop' : Option (Fin N)) (h : Path (fun i => (table.slot i).next) table.head front stop)
    (hnodup : front.Nodup) :
    Path (fun j => ((table.link front.getLast? stop').slot j).next) (table.link front.getLast? stop').head front stop' := by
  rcases List.eq_nil_or_concat' front with rfl | ⟨before, last, rfl⟩
  · rfl
  rw [List.getLast?_concat]
  have hfresh : last ∉ before := by
    have := List.nodup_append.1 hnodup
    exact fun hm => this.2.2 last hm last (by simp) rfl
  exact h.redirect hfresh (by simp) fun x hx => by simp [Ne.symm hx]

variable (h : Queue table (front ++ i :: rest))
include h

theorem Queue.unlink_path : Path (fun j => ((table.unlink front.getLast? i rest.head?).slot j).next)
      (table.unlink front.getLast? i rest.head?).head (front ++ rest) none := by
  obtain ⟨middle, hfront, hi, hrest⟩ := path_append.1 h.path
  obtain ⟨hnodup, hnodup', hdisjoint⟩ := List.nodup_append.1 h.nodup
  have hhead : (table.unlink front.getLast? i rest.head?).head = (table.link front.getLast? rest.head?).head := by
    rw [unlink_eq]
    split <;> rfl
  rw [hhead]
  refine path_append.2 ⟨rest.head?, ?_, ?_⟩
  · have := path_link rest.head? hfront hnodup
    simpa only [slot_link, slot_unlink] using this
  rw [← hrest.start_eq]
  refine hrest.congr fun j hj => ?_
  have hne : front.getLast? ≠ some j := fun hl =>
    hdisjoint j (List.mem_of_getLast? hl) j (List.mem_cons_of_mem _ hj) rfl
  rw [slot_unlink, if_neg hne]

theorem Queue.unlink_tail : (table.unlink front.getLast? i rest.head?).tail = (front ++ rest).getLast? := by
  have htail : (table.link front.getLast? rest.head?).tail = table.tail := by
    unfold link
    split <;> rfl
  rw [unlink_eq, htail, h.tail]
  rcases List.eq_nil_or_concat' rest with rfl | ⟨before, last, rfl⟩
  · simp
  have hne : last ≠ i := by
    rintro rfl
    have := (List.nodup_append.1 h.nodup).2.1
    simp at this
  rw [show front ++ i :: (before ++ [last]) = (front ++ i :: before) ++ [last] by simp, List.getLast?_concat,
    show front ++ (before ++ [last]) = (front ++ before) ++ [last] by simp, List.getLast?_concat,
    if_neg (by simpa using hne), htail, h.tail,
    show front ++ i :: (before ++ [last]) = (front ++ i :: before) ++ [last] by simp, List.getLast?_concat]

omit h

theorem link_unlink_counters (table : FutexTable N) (previous next : Option (Fin N)) (i : Fin N) :
    (table.unlink previous i next).waiting = table.waiting ∧ (table.unlink previous i next).occupied = table.occupied := by
  rw [unlink_eq]
  cases previous <;> split <;> exact ⟨rfl, rfl⟩

/-- A slot is overwritten and the counters are set. -/
def overwrite (table : FutexTable N) (i : Fin N) (slot : Slot N) (waiting occupied : Nat) : FutexTable N :=
  { table.setSlot i slot with waiting, occupied }

/-! ## The four edits -/

theorem Queue.fresh (h : Queue table (front ++ i :: rest)) : i ∉ front ∧ i ∉ rest := by
  obtain ⟨-, hnodup, hdisjoint⟩ := List.nodup_append.1 h.nodup
  exact ⟨fun hm => hdisjoint i hm i (by simp) rfl, (List.nodup_cons.1 hnodup).1⟩

theorem Queue.fresh_append (h : Queue table (front ++ i :: rest)) : i ∉ front ++ rest := fun hm =>
  (List.mem_append.1 hm).elim h.fresh.1 h.fresh.2

/-- A waiter leaves the queue: it is unlinked and its slot overwritten. -/
theorem Queue.leave (h : Queue table (front ++ i :: rest)) {table' : FutexTable N} {slot : Slot N} {occupied : Nat}
    (htable : table' = (table.unlink front.getLast? i rest.head?).overwrite i slot
      ((table.unlink front.getLast? i rest.head?).waiting - 1) occupied)
    (hstate : slot.state ≠ .waiting) (htask : slot.state ≠ .free → slot.task = (table.slot i).task)
    (hoccupied : occupied + 1 = table.occupied + if slot.state = .free then 0 else 1) :
    Queue table' (front ++ rest) ∧ Edits table table' i ∧ table'.slot i = slot := by
  have hslot : ∀ j, table'.slot j = if i = j then slot else (table.unlink front.getLast? i rest.head?).slot j := fun j => by
    rw [htable]
    exact slot_setSlot ..
  have hself : table'.slot i = slot := (hslot i).trans (if_pos rfl)
  have hne : ∀ j, j ≠ i → table'.slot j = (table.unlink front.getLast? i rest.head?).slot j := fun j hj =>
    (hslot j).trans (if_neg (Ne.symm hj))
  have he : Edits table table' i := fun j hj => ⟨_, (hne j hj).trans (slot_unlink ..)⟩
  have hwas : (table.slot i).state = .waiting := (h.mem i).1 (by simp)
  have hfresh := h.fresh_append
  refine ⟨h.edit he ?_ ?_ (h.nodup.sublist (by simp)) (fun j hj => by simp [hj]) ?_ ?_ ?_ ?_, he, hself⟩
  · rw [show table'.head = (table.unlink front.getLast? i rest.head?).head by rw [htable]; rfl]
    refine h.unlink_path.congr fun j hj => ?_
    rw [hne j fun hji => hfresh (hji ▸ hj)]
  · rw [← h.unlink_tail, htable]
    rfl
  · rw [hself]
    exact ⟨fun hm => absurd hm hfresh, fun hw => absurd hw hstate⟩
  · have hw := (link_unlink_counters table front.getLast? rest.head? i).1
    rw [htable, overwrite, hw, h.waiting]
    simp
  · rw [hself, hwas, htable]
    exact hoccupied
  · rw [hself]
    intro hused j hj hs
    rw [htask hused]
    exact h.task_ne (by rw [hwas]; nofun) hj hs

/-- A waiter leaves the queue with an outcome. -/
theorem Queue.finish (h : Queue table (front ++ i :: rest)) {table' : FutexTable N} {slot : Slot N} {outcome : WaitOutcome}
    (htable : table' = (table.unlink front.getLast? i rest.head?).overwrite i slot
      ((table.unlink front.getLast? i rest.head?).waiting - 1) (table.unlink front.getLast? i rest.head?).occupied)
    (hstate : slot.state = .done outcome) (hgeneration : slot.generation = (table.slot i).generation)
    (htask : slot.task = (table.slot i).task) : Queue table' (front ++ rest) ∧ Edits table table' i ∧
      table'.finished = insert ((table.waiter i).finish outcome) table.finished := by
  have ho := (link_unlink_counters table front.getLast? rest.head? i).2
  obtain ⟨hqueue, he, hself⟩ := h.leave htable (by rw [hstate]; nofun) (fun _ => htask) (by rw [ho, hstate]; rfl)
  refine ⟨hqueue, he, he.finished_insert ((h.mem i).1 (by simp)) (hself ▸ hstate) ?_ (hself ▸ htask)⟩
  rw [handle, handle, hself, hgeneration]

/-- What a sweep does to a waiter that ends. -/
theorem Queue.settle (h : Queue table (front ++ i :: rest)) (outcome : WaitOutcome) :
    Queue ((table.unlink front.getLast? i rest.head?).settle i outcome) (front ++ rest) ∧
      Edits table ((table.unlink front.getLast? i rest.head?).settle i outcome) i ∧
      ((table.unlink front.getLast? i rest.head?).settle i outcome).finished =
        insert ((table.waiter i).finish outcome) table.finished := by
  refine h.finish rfl rfl ?_ ?_
  · rw [slot_unlink]
  · rw [slot_unlink]

theorem Queue.releaseWaiting (h : Queue table (front ++ i :: rest)) {table' : FutexTable N}
    (htable : table' = { table.unlink front.getLast? i rest.head? with
      waiting := (table.unlink front.getLast? i rest.head?).waiting - 1 }.release i) :
    Queue table' (front ++ rest) ∧ Edits table table' i ∧ (table'.slot i).state = .free := by
  have ho := (link_unlink_counters table front.getLast? rest.head? i).2
  have hpos := h.occupied_pos (i := i) (by rw [(h.mem i).1 (by simp)]; nofun)
  obtain ⟨hqueue, he, hself⟩ := h.leave htable nofun (fun hn => absurd rfl hn) (Nat.sub_add_cancel (ho ▸ hpos) |>.trans ho)
  exact ⟨hqueue, he, hself ▸ rfl⟩

theorem Queue.retag (h : Queue table queue) (hi : i ∈ queue) (key : FutexKey) :
    Queue (table.retag i key) queue ∧ Edits table (table.retag i key) i ∧
      (table.retag i key).waiter i = { table.waiter i with key := key } ∧ (table.retag i key).finished = table.finished := by
  have hself : (table.retag i key).slot i = { table.slot i with key := key } := (slot_retag ..).trans (if_pos rfl)
  have he : Edits table (table.retag i key) i := fun j hj => ⟨_, (slot_retag ..).trans (if_neg (Ne.symm hj))⟩
  refine ⟨h.edit he (h.path.congr fun j _ => ?_) h.tail h.nodup (fun _ _ => .rfl) ?_ h.waiting ?_ ?_, he, ?_, ?_⟩
  · rw [slot_retag]
    split
    · rename_i hij
      rw [hij]
    · rfl
  · rw [hself]
    exact h.mem i
  · rw [hself]
    rfl
  · rw [hself]
    exact fun hi j hj hs => h.task_ne hi hj hs
  · rw [waiter, handle, hself]
    rfl
  · have hwaiting := (h.mem i).1 hi
    exact he.finished_keep (by simp [hwaiting]) (by simp [hself, hwaiting])

theorem Queue.release (h : Queue table queue) {outcome : WaitOutcome} (hdone : (table.slot i).state = .done outcome) :
    Queue (table.release i) queue ∧ Edits table (table.release i) i ∧ ((table.release i).slot i).state = .free := by
  have hself : ((table.release i).slot i).state = .free := by rw [slot_release, if_pos rfl]; rfl
  have hslot : ∀ j, j ≠ i → (table.release i).slot j = table.slot j := fun j hj => (slot_release ..).trans (if_neg (Ne.symm hj))
  have he : Edits table (table.release i) i := fun j hj => ⟨_, hslot j hj⟩
  have hout := h.not_mem (i := i) (by rw [hdone]; nofun)
  have hpos := h.occupied_pos (i := i) (by rw [hdone]; nofun)
  refine ⟨h.edit he (h.path.congr fun j hj => ?_) h.tail h.nodup (fun _ _ => .rfl) ?_ h.waiting ?_ ?_, he, hself⟩
  · rw [hslot j fun hji => hout (hji ▸ hj)]
  · rw [hself]
    exact ⟨fun hm => absurd hm hout, nofun⟩
  · rw [hself, hdone]
    exact Nat.sub_add_cancel hpos
  · exact fun hn => absurd hself hn

theorem slot_enqueue (j : Fin N) (key : FutexKey) (task : TaskId) (deadline : Option UInt64) (htail : table.tail ≠ some i) :
    (table.enqueue i key task deadline).slot j = if i = j then ⟨(table.slot i).generation + 1, .waiting, key, task, deadline, none⟩
      else { table.slot j with next := if table.tail = some j then some i else (table.slot j).next } := by
  change ((table.setSlot i _).link table.tail (some i)).slot j = _
  by_cases hj : i = j
  · subst hj
    simp [htail]
  · simp [hj]

theorem Queue.enqueue (h : Queue table queue) (hfree : (table.slot i).state = .free) {key : FutexKey} {task : TaskId}
    {deadline : Option UInt64} (htask : ∀ j, (table.slot j).state ≠ .free → (table.slot j).task ≠ task) :
    Queue (table.enqueue i key task deadline) (queue ++ [i]) ∧ Edits table (table.enqueue i key task deadline) i ∧
      (table.enqueue i key task deadline).waiter i =
        ⟨(table.enqueue i key task deadline).handle i, key, task, deadline⟩ ∧
      (table.enqueue i key task deadline).finished = table.finished := by
  have hout := h.not_mem (i := i) (by rw [hfree]; nofun)
  have htail : table.tail ≠ some i := fun ht => hout (List.mem_of_getLast? (h.tail ▸ ht))
  have hslot := fun j => @slot_enqueue N table i j key task deadline htail
  generalize htable' : table.enqueue i key task deadline = table' at hslot
  have hself := (hslot i).trans (if_pos rfl)
  have he : Edits table table' i := fun j hj => ⟨_, (hslot j).trans (if_neg (Ne.symm hj))⟩
  have hcounts : table'.head = (table.link table.tail (some i)).head ∧ table'.waiting = table.waiting + 1 ∧
      table'.occupied = table.occupied + 1 := by
    rw [← htable']
    cases ht : table.tail <;> simp [FutexTable.enqueue, link, setSlot, ht]
  refine ⟨h.edit he ?_ ?_ ?_ (fun j hj => by simp [hj]) (by simp [hself]) ?_ ?_ ?_, he, ?_, ?_⟩
  · have hpath := path_link (some i) h.path h.nodup
    rw [← h.tail] at hpath
    rw [hcounts.1]
    refine path_append.2 ⟨some i, hpath.congr fun j hj => ?_, rfl, congrArg Slot.next hself⟩
    rw [slot_link, hslot, if_neg fun hij : i = j => hout (hij ▸ hj)]
  · rw [← htable', List.getLast?_concat]
    rfl
  · exact List.nodup_append.2 ⟨h.nodup, List.nodup_singleton i, fun j hj k hk hjk => hout (List.mem_singleton.1 hk ▸ hjk ▸ hj)⟩
  · rw [hcounts.2.1, List.length_append, h.waiting]
    rfl
  · rw [hself, hfree, hcounts.2.2]
    rfl
  · rw [hself]
    exact fun _ j _ hs => htask j hs
  · rw [waiter, hself]
  · exact he.finished_keep (by simp [hfree]) (by simp [hself])

end FutexTable

end MakOS.Futex
