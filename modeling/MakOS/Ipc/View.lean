/-
What the processes can tell of the state: the messages queued at an endpoint, the listeners, the
services, the handles. Reference counts and free slots are not part of it. Every elementary change of
the state is described here by what it does to the queues and to the listeners.
-/
import MakOS.Ipc.Sweep

namespace MakOS.Ipc

open Data

variable {H O : Nat}

def heldBy (queue : List QueuedMessage) : List ObjectRef := queue.filterMap fun message => message.transfer.map (·.object)

theorem mem_heldBy {queue : List QueuedMessage} {ref : ObjectRef} :
    ref ∈ heldBy queue ↔ ∃ message ∈ queue, ∃ transfer, message.transfer = some transfer ∧ transfer.object = ref := by
  simp [heldBy]

namespace IpcCore

variable {core core' : IpcCore H O} {s : Nat} {ref ref' : ObjectRef} {o x : ObjectSlot} {f : ObjectSlot → ObjectSlot}
  {queue queue' : List QueuedMessage}

/-- The messages that wait at a live endpoint. -/
def Queues (core : IpcCore H O) (ref : ObjectRef) (queue : List QueuedMessage) : Prop :=
  ∃ object channel, core.Names ref object ∧ object.kind = .channel channel ∧ channel.queue.toList = queue

theorem Queues.unique (h : core.Queues ref queue) (h' : core.Queues ref queue') : queue' = queue := by
  obtain ⟨o, c, hn, hk, rfl⟩ := h
  obtain ⟨o', c', hn', hk', rfl⟩ := h'
  rw [hn.unique hn', hk] at hk'
  cases hk'
  rfl

theorem Queues.live (h : core.Queues ref queue) : core.Live ref := by
  obtain ⟨o, -, hn, -, -⟩ := h
  exact ⟨o, hn⟩

variable {slot : Nat}

theorem Listens.live (h : core.Listens ref slot) : core.Live ref := by
  obtain ⟨o, hn, -⟩ := h
  exact ⟨o, hn⟩

theorem live_iff : core.Live ref ↔ (∃ queue, core.Queues ref queue) ∨ ∃ slot, core.Listens ref slot := by
  constructor
  · rintro ⟨o, hn⟩
    cases hk : o.kind with
    | free =>
      have := hn.live
      rw [hk] at this
      cases this
    | channel c => exact .inl ⟨_, o, c, hn, hk, rfl⟩
    | service slot => exact .inr ⟨slot, o, hn, hk⟩
  · rintro (⟨queue, h⟩ | ⟨slot, h⟩)
    · exact h.live
    · exact h.live

theorem mem_children (hn : core.Names ref o) : ref' ∈ core.children o ↔
    (∃ queue, core.Queues ref queue ∧ ref' ∈ heldBy queue) ∨
      ∃ slot entry, core.Listens ref slot ∧ core.services[slot]? = some entry ∧ ref' ∈ entry.held := by
  constructor
  · intro h
    unfold children at h
    split at h
    · exact absurd h List.not_mem_nil
    · rename_i c hk
      exact .inl ⟨_, ⟨o, c, hn, hk, rfl⟩, h⟩
    rename_i slot hk
    unfold heldByService at h
    split at h
    · rename_i entry hs
      exact .inr ⟨slot, entry, ⟨o, hn, hk⟩, hs, h⟩
    · exact absurd h List.not_mem_nil
  · rintro (⟨_, ⟨o', c, hn', hk, rfl⟩, h⟩ | ⟨slot, entry, ⟨o', hn', hk⟩, hs, h⟩)
    · rw [hn.unique hn'] at hk
      simp only [children, hk]
      exact h
    · rw [hn.unique hn'] at hk
      simp only [children, hk, heldByService, hs]
      exact h

/-! ## Reachability in these terms -/

theorem Sound.reaches_handle (h : Sound core []) {handle : HandleSlot} (hs : core.handles[s]? = some handle)
    (hocc : handle.occupied = true) : core.Reaches handle.object :=
  .handle hs hocc (h.books.live_handle hs (by simp [HandleSlot.held, hocc]))

theorem Sound.reaches_queue (h : Sound core []) (hp : core.Reaches ref) (hq : core.Queues ref queue)
    (hr : ref' ∈ heldBy queue) : core.Reaches ref' := by
  obtain ⟨o, c, hn, hk, rfl⟩ := hq
  refine hp.child hn ((mem_children hn).2 (.inl ⟨_, ⟨o, c, hn, hk, rfl⟩, hr⟩)) (h.books.live_object hn.slot ?_)
  simp only [ObjectSlot.held, hk]
  exact hr

theorem Sound.reaches_pending (h : Sound core []) (hp : core.Reaches ref) {entry : ServiceEntry}
    (hl : core.Listens ref slot) (hs : core.services[slot]? = some entry) (hr : ref' ∈ entry.held) : core.Reaches ref' := by
  obtain ⟨o, hn, hk⟩ := hl
  exact hp.child hn ((mem_children hn).2 (.inr ⟨slot, entry, ⟨o, hn, hk⟩, hs, hr⟩)) (h.books.live_service hs hr)

/-- Nothing leaks in a state that keeps the handles, still reaches what a reached object named and reaches what is
new in it, if nothing leaked before. -/
theorem Sound.tidy (h : Sound core' []) (ht : Tidy core)
    (handles : ∀ (slot : Nat) (handle : HandleSlot), core.handles[slot]? = some handle → handle.occupied = true →
      core'.handles[slot]? = some handle)
    (queues : ∀ parent queue ref, core.Queues parent queue → ref ∈ heldBy queue →
      core'.Reaches ref ∨ ∃ queue', core'.Queues parent queue' ∧ ref ∈ heldBy queue')
    (listens : ∀ parent slot, core.Listens parent slot → core'.Listens parent slot)
    (services : ∀ (slot : Nat) (entry : ServiceEntry) ref, core.services[slot]? = some entry → ref ∈ entry.held →
      core'.Reaches ref ∨ ∃ entry', core'.services[slot]? = some entry' ∧ ref ∈ entry'.held)
    (newQueue : (∀ ref, core.Live ref → core'.Reaches ref) → ∀ ref queue, core'.Queues ref queue → core'.Reaches ref)
    (newListens : (∀ ref, core.Live ref → core'.Reaches ref) → ∀ ref slot, core'.Listens ref slot → core'.Reaches ref) :
    Tidy core' := by
  have hold : ∀ ref, core.Live ref → core'.Reaches ref := by
    intro ref hl
    refine (ht ref hl).mono (fun slot handle hs hocc _ => h.reaches_handle (handles slot handle hs hocc) hocc)
      fun parent o r hp hn hc _ => ?_
    rcases (mem_children hn).1 hc with ⟨queue, hq, hr⟩ | ⟨slot, entry, hl, hs, hr⟩
    · exact (queues parent queue r hq hr).elim id fun ⟨_, hq, hr⟩ => h.reaches_queue hp hq hr
    · exact (services slot entry r hs hr).elim id fun ⟨_, hs, hr⟩ => h.reaches_pending hp (listens parent slot hl) hs hr
  intro ref hl
  rcases live_iff.1 hl with ⟨queue, hq⟩ | ⟨slot, hl⟩
  · exact newQueue hold ref queue hq
  · exact newListens hold ref slot hl

/-! ## Elementary changes -/

/-- The same messages wait at the same endpoints, and the same objects listen. -/
structure SameObjects (core core' : IpcCore H O) : Prop where
  queues : ∀ ref queue, core'.Queues ref queue ↔ core.Queues ref queue
  listens : ∀ ref slot, core'.Listens ref slot ↔ core.Listens ref slot

variable {core'' : IpcCore H O}

theorem SameObjects.trans (h : SameObjects core core') (h' : SameObjects core' core'') : SameObjects core core'' :=
  ⟨fun ref queue => (h'.queues ref queue).trans (h.queues ref queue),
    fun ref slot => (h'.listens ref slot).trans (h.listens ref slot)⟩

theorem SameObjects.live (h : SameObjects core core') : core'.Live ref ↔ core.Live ref := by
  rw [live_iff, live_iff]
  simp [h.queues, h.listens]

theorem sameObjects_updateHandle (handle : HandleSlot) : SameObjects core (core.updateHandle s handle) :=
  ⟨fun _ _ => by simp only [Queues, names_updateHandle], fun _ _ => by simp only [Listens, names_updateHandle]⟩

theorem sameObjects_updateService (core : IpcCore H O) (s : Nat) (entry : ServiceEntry) : SameObjects core (core.updateService s entry) :=
  ⟨fun _ _ => by simp only [Queues, names_updateService], fun _ _ => by simp only [Listens, names_updateService]⟩

/-- Only the reference count of an object changes. -/
theorem sameObjects_references (hs : core.objects[s]? = some o) (n : ObjectSlot → Nat) :
    SameObjects core (core.updateObject s fun slot => { slot with references := n slot }) where
  listens _ _ := listens_updateObject hs (sameShape_references o _)
  queues ref queue := by
    simp only [Queues, exists_and_left]
    exact exists_names_updateObject hs rfl rfl Iff.rfl

/-- Only the queue of one endpoint changes. -/
theorem queues_updateQueue (hn : core.Names ref o) (c : ChannelObject) (q : MessageQueue) :
    (core.updateObject ref.slot fun slot => { slot with kind := .channel { c with queue := q } }).Queues ref' queue ↔
      if ref' = ref then queue = q.toList else core.Queues ref' queue := by
  unfold Queues
  simp only [names_updateNamed (f := fun slot => { slot with kind := .channel { c with queue := q } }) hn rfl]
  by_cases e : ref' = ref
  · simp only [e]
    constructor
    · rintro ⟨x, d, hx, hk, rfl⟩
      obtain ⟨-, rfl, -⟩ := hx.resolve_right fun h => h.1 rfl
      cases hk
      rfl
    · rintro rfl
      exact ⟨_, _, .inl ⟨trivial, rfl, rfl⟩, rfl, rfl⟩
  · simp [e]

theorem listens_updateQueue (hn : core.Names ref o) {c : ChannelObject} (hk : o.kind = .channel c) (q : MessageQueue) :
    (core.updateObject ref.slot fun slot => { slot with kind := .channel { c with queue := q } }).Listens ref' slot ↔
      core.Listens ref' slot := listens_updateObject hn.slot (sameShape_queue hk q)

/-! ## What dies -/

/-- Nothing new, and whatever is left is as it was. -/
structure Shrinks (core core' : IpcCore H O) : Prop where
  handles : ∀ (slot : Nat) handle, core'.handles[slot]? = some handle → handle.occupied = true →
    core.handles[slot]? = some handle
  queues : ∀ ref queue, core'.Queues ref queue → core.Queues ref queue
  listens : ∀ ref slot, core'.Listens ref slot → core.Listens ref slot
  services : ∀ (slot : Nat) entry, core'.services[slot]? = some entry → entry.occupied = true →
    core.services[slot]? = some entry

theorem Shrinks.refl (core : IpcCore H O) : Shrinks core core :=
  ⟨fun _ _ h _ => h, fun _ _ h => h, fun _ _ h => h, fun _ _ h _ => h⟩

theorem Shrinks.trans (h : Shrinks core core') (h' : Shrinks core' core'') : Shrinks core core'' :=
  ⟨fun slot handle hs hocc => h.handles slot handle (h'.handles slot handle hs hocc) hocc, fun ref queue hq => h.queues ref queue (h'.queues ref queue hq),
    fun ref slot hl => h.listens ref slot (h'.listens ref slot hl),
    fun slot entry hs hocc => h.services slot entry (h'.services slot entry hs hocc) hocc⟩

theorem SameObjects.shrinks (h : SameObjects core core') (hh : core'.handles = core.handles)
    (hs : core'.services = core.services) : Shrinks core core' :=
  ⟨fun _ _ he _ => hh ▸ he, fun ref queue => (h.queues ref queue).1, fun ref slot => (h.listens ref slot).1,
    fun _ _ he _ => hs ▸ he⟩

theorem shrinks_freeObject (hn : core.Names ref o) : Shrinks core (core.freeObject ref.slot) where
  handles slot handle hs _ := by
    unfold freeObject at hs
    rwa [handles_updateObject] at hs
  queues r queue := by
    rintro ⟨x, c, hx, hk, hq⟩
    exact ⟨x, c, ((names_freeObject hn).1 hx).2, hk, hq⟩
  listens r slot hl := ((listens_freeObject hn).1 hl).2
  services slot entry hs _ := by
    unfold freeObject at hs
    rwa [services_updateObject] at hs

theorem shrinks_dropPeer (core : IpcCore H O) (ref : ObjectRef) (peer : Option ObjectRef) :
    Shrinks core (core.dropPeer ref peer) := by
  unfold dropPeer
  split
  · exact .refl core
  split
  · exact .refl core
  rename_i x hx
  have hn := resolveObject_ok.1 hx
  split
  · rename_i c hk
    split
    · refine ⟨fun slot handle hs _ => ?_, ?_, fun r slot hl => (listens_unpeer hn hk).1 hl, fun slot entry hs _ => ?_⟩
      · rwa [handles_updateObject] at hs
      · rintro r queue ⟨y, d, hy, hyk, hq⟩
        rcases (names_unpeer hn).1 hy with ⟨rfl, rfl⟩ | ⟨-, hy⟩
        · cases hyk
          exact ⟨x, c, hn, hk, hq⟩
        · exact ⟨y, d, hy, hyk, hq⟩
      · rwa [services_updateObject] at hs
    · exact .refl core
  · exact .refl core

theorem shrinks_removeService (core : IpcCore H O) (slot : Nat) : Shrinks core (core.removeService slot).1 := by
  unfold removeService
  split
  · exact .refl core
  split
  · have hsame := sameObjects_updateService core slot .empty
    refine ⟨fun _ _ h _ => h, fun r queue => (hsame.queues r queue).1, fun r i => (hsame.listens r i).1, fun i entry hs hocc => ?_⟩
    rcases setIfInBounds_cases hs with ⟨-, rfl⟩ | hs
    · cases hocc
    · exact hs
  · exact .refl core

theorem shrinks_releaseStep (core : IpcCore H O) (ref : ObjectRef) : Shrinks core (core.releaseStep ref).1 := by
  unfold releaseStep
  split
  · exact .refl core
  rename_i o ho
  have hn := resolveObject_ok.1 ho
  split
  · exact .refl core
  split
  · exact (sameObjects_references hn.slot _).shrinks handles_updateObject services_updateObject
  split
  · exact shrinks_freeObject hn
  · exact (shrinks_freeObject hn).trans (shrinks_removeService _ _)
  · exact (shrinks_freeObject hn).trans (shrinks_dropPeer _ _ _)

theorem shrinks_releaseAll (core : IpcCore H O) (work : List ObjectRef) : Shrinks core (core.releaseAll work) := by
  fun_induction IpcCore.releaseAll core work with
  | case1 core => exact .refl core
  | case2 core ref rest ih => exact (shrinks_releaseStep core ref).trans ih

theorem shrinks_collect (core : IpcCore H O) : Shrinks core core.collectUnreachableObjects where
  handles slot handle hs _ := by rwa [collect_handles] at hs
  queues ref queue := by
    rintro ⟨x, c', hx, hk, rfl⟩
    obtain ⟨-, o, hn, rfl⟩ := names_collect.1 hx
    rw [ObjectSlot.kind_counted, settle_channel] at hk
    obtain ⟨c, hk, rfl⟩ := hk
    exact ⟨o, c, hn, hk, rfl⟩
  listens ref slot hl := (listens_collect.1 hl).2
  services slot entry hs hocc := ((service_collect hocc).1 hs).1

end IpcCore

end MakOS.Ipc
