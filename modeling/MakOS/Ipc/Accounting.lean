/-
The books of typed IPC: what names an object, and the invariant that its reference count is exact.
`Sound core work` allows for references that an operation in progress has in hand: `work` is the list
of those, counted with the handles, the queued transfers and the waiting endpoints. Each elementary
change of the state is one lemma about `Sound`.
-/
import MakOS.Ipc.Operations

namespace MakOS.Ipc

open Data ObjectSlot

variable {H O : Nat}

namespace IpcCore

variable {core : IpcCore H O} {s : Nat} {ref ref' : ObjectRef} {o x : ObjectSlot} {f : ObjectSlot → ObjectSlot}
  {work work' : List ObjectRef}

/-! ## References -/

/-- Everything that names an object, in the order the collector counts it. -/
def references (core : IpcCore H O) : List ObjectRef :=
  core.handleReferences ++ core.pendingReferences ++ core.queueReferences

theorem mem_handleReferences : ref ∈ core.handleReferences ↔
    ∃ (i : Nat) (handle : HandleSlot), core.handles[i]? = some handle ∧ handle.occupied = true ∧ handle.object = ref := by
  rw [handleReferences, mem_toList_flatMap]
  refine exists_congr fun i => exists_congr fun handle => and_congr_right fun _ => ?_
  unfold HandleSlot.held
  split
  · rename_i h
    rw [List.mem_singleton, h]
    exact ⟨fun e => ⟨rfl, e.symm⟩, fun e => e.2.symm⟩
  · rename_i h
    simp [h]

theorem mem_pendingReferences : ref ∈ core.pendingReferences ↔
    ∃ (i : Nat) (entry : ServiceEntry), core.services[i]? = some entry ∧ ref ∈ entry.held := mem_toList_flatMap

theorem mem_queueReferences : ref ∈ core.queueReferences ↔
    ∃ (i : Nat) (object : ObjectSlot), core.objects[i]? = some object ∧ ref ∈ object.held := mem_toList_flatMap

theorem count_updateObject (hs : core.objects[s]? = some o) (f : ObjectSlot → ObjectSlot) (ref : ObjectRef) :
    (core.updateObject s f).references.count ref + o.held.count ref = core.references.count ref + (f o).held.count ref := by
  have hq := count_setIfInBounds (f := held) hs (f o) ref
  simp only [references, List.count_append, handleReferences, pendingReferences, queueReferences, updateObject, hs] at hq ⊢
  omega

variable {handle : HandleSlot}

theorem count_updateHandle (hs : core.handles[s]? = some handle) (handle' : HandleSlot)
    (ref : ObjectRef) : (core.updateHandle s handle').references.count ref + handle.held.count ref =
      core.references.count ref + handle'.held.count ref := by
  have hq := count_setIfInBounds (f := HandleSlot.held) hs handle' ref
  simp only [references, List.count_append, handleReferences, pendingReferences, queueReferences, updateHandle] at hq ⊢
  omega

variable {entry : ServiceEntry}

theorem count_updateService (hs : core.services[s]? = some entry) (entry' : ServiceEntry)
    (ref : ObjectRef) : (core.updateService s entry').references.count ref + entry.held.count ref =
      core.references.count ref + entry'.held.count ref := by
  have hq := count_setIfInBounds (f := ServiceEntry.held) hs entry' ref
  simp only [references, List.count_append, handleReferences, pendingReferences, queueReferences, updateService] at hq ⊢
  omega

/-! ## Names after an update -/

variable (hs : core.objects[s]? = some o)
include hs

theorem names_updateObject : (core.updateObject s f).Names ref x ↔
    if ref.slot = s then x = f o ∧ (f o).generation = ref.generation ∧ (f o).kind.isFree = false
    else core.Names ref x := by
  constructor
  · rintro ⟨hslot, hg, hk⟩
    rw [objects_updateObject] at hslot
    split
    · rename_i e
      rw [if_pos e, e, hs, Option.map_some, Option.some.injEq] at hslot
      subst hslot
      exact ⟨rfl, hg, hk⟩
    · rename_i e
      rw [if_neg e] at hslot
      exact ⟨hslot, hg, hk⟩
  · split
    · rename_i e
      rintro ⟨rfl, hg, hk⟩
      refine ⟨?_, hg, hk⟩
      rw [objects_updateObject, if_pos e, e, hs, Option.map_some]
    · rename_i e
      rintro ⟨hslot, hg, hk⟩
      exact ⟨by rw [objects_updateObject, if_neg e]; exact hslot, hg, hk⟩

/-- An update that keeps the generation, frees nothing and keeps a property of the object keeps which references name an
object with the property. -/
theorem exists_names_updateObject (hg : (f o).generation = o.generation)
    (hk : (f o).kind.isFree = o.kind.isFree) {p : ObjectSlot → Prop} (hp : p (f o) ↔ p o) :
    (∃ x, (core.updateObject s f).Names ref x ∧ p x) ↔ ∃ x, core.Names ref x ∧ p x := by
  simp only [names_updateObject hs]
  constructor
  · rintro ⟨x, hx, hpx⟩
    split at hx
    · rename_i e
      obtain ⟨rfl, hgen, hfree⟩ := hx
      exact ⟨o, ⟨e ▸ hs, hg ▸ hgen, hk ▸ hfree⟩, hp.1 hpx⟩
    · exact ⟨x, hx, hpx⟩
  · rintro ⟨x, hx, hpx⟩
    by_cases e : ref.slot = s
    · obtain rfl : x = o := Option.some.inj (hx.slot.symm.trans (e ▸ hs))
      exact ⟨f x, by rw [if_pos e]; exact ⟨rfl, hg ▸ hx.generation, hk ▸ hx.live⟩, hp.2 hpx⟩
    · exact ⟨x, by rw [if_neg e]; exact hx, hpx⟩

omit hs

/-- A named object that keeps its generation keeps its name, if it is not freed. -/
theorem names_updateNamed (hn : core.Names ref o) (hg : (f o).generation = o.generation) :
    (core.updateObject ref.slot f).Names ref' x ↔
      ref' = ref ∧ x = f o ∧ (f o).kind.isFree = false ∨ ref' ≠ ref ∧ core.Names ref' x := by
  rw [names_updateObject hn.slot]
  constructor
  · intro h
    split at h
    · rename_i hslot
      obtain ⟨rfl, hgeneration, hlive⟩ := h
      exact .inl ⟨ObjectRef.ext hslot (hgeneration.symm.trans (hg.trans hn.generation)), rfl, hlive⟩
    · rename_i hslot
      exact .inr ⟨fun e => hslot (e ▸ rfl), h⟩
  · rintro (⟨rfl, rfl, hlive⟩ | ⟨hne, h⟩)
    · rw [if_pos rfl]
      exact ⟨rfl, hg.trans hn.generation, hlive⟩
    · rw [if_neg fun e => hne (Live.eq_of_slot ⟨x, h⟩ ⟨o, hn⟩ e)]
      exact h

@[simp] theorem names_updateHandle : (core.updateHandle s handle).Names ref x ↔ core.Names ref x :=
  ⟨fun ⟨h, hg, hk⟩ => ⟨h, hg, hk⟩, fun ⟨h, hg, hk⟩ => ⟨h, hg, hk⟩⟩

@[simp] theorem names_updateService : (core.updateService s entry).Names ref x ↔ core.Names ref x :=
  ⟨fun ⟨h, hg, hk⟩ => ⟨h, hg, hk⟩, fun ⟨h, hg, hk⟩ => ⟨h, hg, hk⟩⟩

/-! ## The invariant -/

def Paired (core : IpcCore H O) (ref peer : ObjectRef) : Prop :=
  ∃ object channel, core.Names ref object ∧ object.kind = .channel channel ∧ channel.peer = some peer

def Listens (core : IpcCore H O) (ref : ObjectRef) (registrySlot : Nat) : Prop :=
  ∃ object, core.Names ref object ∧ object.kind = .service registrySlot

def Published (core : IpcCore H O) (registrySlot : Nat) : Prop :=
  ∃ entry, core.services[registrySlot]? = some entry ∧ entry.occupied = true

/-- Reference counts are exact, and whatever is named is live. -/
structure Books (core : IpcCore H O) (work : List ObjectRef) : Prop where
  exact : ∀ ref object, core.Names ref object → object.references = core.references.count ref + work.count ref
  live : ∀ ref, ref ∈ core.references ∨ ref ∈ work → core.Live ref

/-- The count that the table has for a reference; zero if it names nothing. -/
def tally (core : IpcCore H O) (ref : ObjectRef) : Nat :=
  match core.resolveObject ref with
  | .ok object => object.references
  | .error _ => 0

theorem tally_of_names (hn : core.Names ref o) : core.tally ref = o.references := by
  rw [tally, resolveObject_ok.2 hn]

theorem tally_of_not_live (h : ¬ core.Live ref) : core.tally ref = 0 := by
  unfold tally
  split
  · rename_i object hobject
    exact absurd ⟨object, resolveObject_ok.1 hobject⟩ h
  · rfl

theorem tally_congr {core' : IpcCore H O} (h : ∀ x, core'.Names ref x ↔ core.Names ref x) : core'.tally ref = core.tally ref := by
  by_cases hl : core.Live ref
  · obtain ⟨x, hx⟩ := hl
    rw [tally_of_names hx, tally_of_names ((h x).2 hx)]
  · rw [tally_of_not_live hl, tally_of_not_live fun ⟨x, hx⟩ => hl ⟨x, (h x).1 hx⟩]

/-- The books are one equation for each reference. -/
theorem books_iff : Books core work ↔ ∀ ref, core.references.count ref + work.count ref = core.tally ref := by
  constructor
  · intro h ref
    by_cases hl : core.Live ref
    · obtain ⟨o, hn⟩ := hl
      rw [tally_of_names hn, h.exact ref o hn]
    · rw [tally_of_not_live hl, List.count_eq_zero.2 fun hr => hl (h.live ref (.inl hr)),
        List.count_eq_zero.2 fun hr => hl (h.live ref (.inr hr))]
  · refine fun h => ⟨fun ref o hn => by rw [h ref, tally_of_names hn], fun ref hr => ?_⟩
    by_contra hl
    have hzero := h ref
    rw [tally_of_not_live hl] at hzero
    rw [← List.count_pos_iff, ← List.count_pos_iff] at hr
    omega

/-- Peers are mutual, and the registry slots in use are those with a listener, which is the only one. -/
structure Shaped (core : IpcCore H O) : Prop where
  peers : ∀ ref peer, core.Paired ref peer → core.Paired peer ref
  published : ∀ ref slot, core.Listens ref slot → core.Published slot
  listener : ∀ slot, core.Published slot → ∃ ref, core.Listens ref slot
  unique : ∀ ref ref' slot, core.Listens ref slot → core.Listens ref' slot → ref' = ref

structure Sound (core : IpcCore H O) (work : List ObjectRef) : Prop where
  books : Books core work
  shaped : Shaped core

/-- An update of an object that keeps what kind of object it is and whose peer it is. -/
structure SameShape (o o' : ObjectSlot) : Prop where
  generation : o'.generation = o.generation
  free : o'.kind.isFree = o.kind.isFree
  peer : ∀ peer, (∃ channel, o'.kind = .channel channel ∧ channel.peer = some peer) ↔
    ∃ channel, o.kind = .channel channel ∧ channel.peer = some peer
  service : ∀ slot, o'.kind = .service slot ↔ o.kind = .service slot

variable {ref : ObjectRef}

include hs

theorem paired_updateObject (h : SameShape o (f o)) {peer : ObjectRef} :
    (core.updateObject s f).Paired ref peer ↔ core.Paired ref peer := by
  simp only [Paired, exists_and_left]
  exact exists_names_updateObject hs h.generation h.free (h.peer peer)

variable {slot : Nat}

theorem listens_updateObject (h : SameShape o (f o)) :
    (core.updateObject s f).Listens ref slot ↔ core.Listens ref slot :=
  exists_names_updateObject hs h.generation h.free (h.service slot)

omit hs

theorem Published.updateObject : (core.updateObject s f).Published slot ↔ core.Published slot := by
  unfold Published
  rw [services_updateObject]

/-- The two states have the same pairs, listeners and registry slots in use. -/
structure Alike (core core' : IpcCore H O) : Prop where
  paired : ∀ ref peer, core'.Paired ref peer ↔ core.Paired ref peer
  listens : ∀ ref slot, core'.Listens ref slot ↔ core.Listens ref slot
  published : ∀ slot, core'.Published slot ↔ core.Published slot

/-- The same listeners and registry slots in use, and mutual peers -/
theorem Shaped.of {core' : IpcCore H O} (h : Shaped core) (hpeers : ∀ ref peer, core'.Paired ref peer → core'.Paired peer ref)
    (hlistens : ∀ ref slot, core'.Listens ref slot ↔ core.Listens ref slot)
    (hpublished : ∀ slot, core'.Published slot ↔ core.Published slot) : Shaped core' := by
  refine ⟨hpeers, ?_, ?_, ?_⟩
  all_goals simp only [hlistens, hpublished]
  · exact h.published
  · exact h.listener
  · exact h.unique

theorem Shaped.alike {core' : IpcCore H O} (h : Shaped core) (ha : Alike core core') : Shaped core' := by
  refine h.of (fun ref peer hp => ?_) ha.listens ha.published
  rw [ha.paired] at hp ⊢
  exact h.peers ref peer hp

theorem alike_updateObject (hs : core.objects[s]? = some o) (h : SameShape o (f o)) :
    Alike core (core.updateObject s f) where
  paired _ _ := paired_updateObject hs h
  listens _ _ := listens_updateObject hs h
  published _ := Published.updateObject

theorem alike_updateHandle (handle : HandleSlot) : Alike core (core.updateHandle s handle) where
  paired _ _ := by simp only [Paired, names_updateHandle]
  listens _ _ := by simp only [Listens, names_updateHandle]
  published _ := Iff.rfl

theorem published_updateService {entry' : ServiceEntry} (hs : core.services[s]? = some entry) :
    (core.updateService s entry').Published slot ↔ if slot = s then entry'.occupied = true else core.Published slot := by
  obtain ⟨hlt, rfl⟩ := Vector.getElem?_eq_some_iff.1 hs
  unfold Published IpcCore.updateService
  by_cases e : slot = s
  · subst e
    simp [hlt]
  · simp [e, Ne.symm e]

theorem alike_updateService {entry entry' : ServiceEntry} (hs : core.services[s]? = some entry)
    (hocc : entry'.occupied = entry.occupied) : Alike core (core.updateService s entry') where
  paired _ _ := by simp only [Paired, names_updateService]
  listens _ _ := by simp only [Listens, names_updateService]
  published slot := by
    rw [published_updateService hs]
    split
    · rename_i e
      subst e
      rw [hocc]
      exact ⟨fun ho => ⟨entry, hs, ho⟩, fun ⟨entry', hs', ho⟩ => Option.some.inj (hs'.symm.trans hs) ▸ ho⟩
    · rfl

/-! ## The books after an update -/

theorem tally_updateObject (hn : core.Names ref o) (hg : (f o).generation = o.generation)
    (hfree : (f o).kind.isFree = true → (f o).references = 0) :
    (core.updateObject ref.slot f).tally ref' = if ref' = ref then (f o).references else core.tally ref' := by
  by_cases e : ref' = ref
  · subst e
    rw [if_pos rfl]
    cases hk : (f o).kind.isFree with
    | false => exact tally_of_names ((names_updateNamed hn hg).2 (.inl ⟨rfl, rfl, hk⟩))
    | true =>
      rw [hfree hk]
      refine tally_of_not_live fun ⟨x, hx⟩ => ?_
      simp [names_updateNamed hn hg, hk] at hx
  · rw [if_neg e]
    exact tally_congr fun x => by simp [names_updateNamed hn hg, e]

/-- An update of one object that balances the books. -/
theorem Books.updateObject (h : Books core work) (hn : core.Names ref o) (hg : (f o).generation = o.generation)
    (hfree : (f o).kind.isFree = true → (f o).references = 0)
    (hbalance : ∀ r, (f o).held.count r + work'.count r + (if r = ref then o.references else 0) =
      o.held.count r + work.count r + if r = ref then (f o).references else 0) : Books (core.updateObject ref.slot f) work' := by
  refine books_iff.2 fun r => ?_
  have hcount := count_updateObject hn.slot f r
  have hold := books_iff.1 h r
  have hb := hbalance r
  rw [tally_updateObject hn hg hfree]
  by_cases e : r = ref
  · subst e
    rw [tally_of_names hn] at hold
    rw [if_pos rfl, if_pos rfl] at hb
    rw [if_pos rfl]
    omega
  · rw [if_neg e, if_neg e] at hb
    rw [if_neg e]
    omega

/-- A change of one entry of another table that balances the books. -/
theorem Books.exchange (h : Books core work) {core' : IpcCore H O} {removed added : List ObjectRef}
    (hnames : ∀ ref x, core'.Names ref x ↔ core.Names ref x)
    (hcount : ∀ ref, core'.references.count ref + removed.count ref = core.references.count ref + added.count ref)
    (hbalance : ∀ ref, added.count ref + work'.count ref = removed.count ref + work.count ref) : Books core' work' := by
  refine books_iff.2 fun ref => ?_
  have hold := books_iff.1 h ref
  have hc := hcount ref
  have hb := hbalance ref
  rw [tally_congr (hnames ref)]
  omega

theorem Books.updateHandle (h : Books core work) {handle handle' : HandleSlot} (hs : core.handles[s]? = some handle)
    (hbalance : ∀ ref, handle'.held.count ref + work'.count ref = handle.held.count ref + work.count ref) :
    Books (core.updateHandle s handle') work' :=
  h.exchange (fun _ _ => names_updateHandle) (count_updateHandle hs handle') hbalance

theorem Books.updateService (h : Books core work) {entry entry' : ServiceEntry} (hs : core.services[s]? = some entry)
    (hbalance : ∀ ref, entry'.held.count ref + work'.count ref = entry.held.count ref + work.count ref) :
    Books (core.updateService s entry') work' :=
  h.exchange (fun _ _ => names_updateService) (count_updateService hs entry') hbalance

theorem Books.live_object (h : Books core work) (hs : core.objects[s]? = some o) (hr : ref ∈ o.held) : core.Live ref := by
  refine h.live ref (.inl ?_)
  simp only [references, List.mem_append, mem_queueReferences]
  exact .inr ⟨s, o, hs, hr⟩

theorem Books.live_handle (h : Books core work) (hs : core.handles[s]? = some handle)
    (hr : ref ∈ handle.held) : core.Live ref := by
  refine h.live ref (.inl ?_)
  simp only [references, List.mem_append]
  exact .inl (.inl (mem_toList_flatMap.2 ⟨s, handle, hs, hr⟩))

theorem Books.live_service (h : Books core work) (hs : core.services[s]? = some entry)
    (hr : ref ∈ entry.held) : core.Live ref := by
  refine h.live ref (.inl ?_)
  simp only [references, List.mem_append, mem_pendingReferences]
  exact .inl (.inr ⟨s, entry, hs, hr⟩)

/-! ## One reference more, one reference less -/

theorem sameShape_references (o : ObjectSlot) (n : Nat) : SameShape o { o with references := n } :=
  ⟨rfl, rfl, fun _ => Iff.rfl, fun _ => Iff.rfl⟩

/-- A count that changes with the references in hand. -/
theorem Sound.recount (h : Sound core work) (hn : core.Names ref o) (n : ObjectSlot → Nat)
    (hcount : ∀ r, work'.count r + (if r = ref then o.references else 0) = work.count r + if r = ref then n o else 0) :
    Sound (core.updateObject ref.slot fun slot => { slot with references := n slot }) work' where
  books := by
    refine h.books.updateObject hn rfl (fun hfree => absurd hfree (by simp [hn.live])) fun r => ?_
    have := hcount r
    simp only [held]
    omega
  shaped := h.shaped.alike (alike_updateObject hn.slot (sameShape_references o _))

/-- Another reference, in hand. -/
theorem Sound.retain (h : Sound core work) (hn : core.Names ref o) :
    Sound (core.updateObject ref.slot fun slot => { slot with references := slot.references + 1 }) (ref :: work) := by
  refine h.recount hn _ fun r => ?_
  by_cases e : r = ref
  · subst e
    simp
    omega
  · simp [e, Ne.symm e]

/-- A reference in hand given back, not the last one. -/
theorem Sound.unretain (h : Sound core (ref :: work)) (hn : core.Names ref o) :
    Sound (core.updateObject ref.slot fun slot => { slot with references := slot.references - 1 }) work := by
  have hpos : 0 < o.references := by
    rw [h.books.exact ref o hn, List.count_cons_self]
    omega
  refine h.recount hn _ fun r => ?_
  by_cases e : r = ref
  · subst e
    simp
    omega
  · simp [e, Ne.symm e]

/-! ## References that change hands -/

/-- The reference in hand goes into a free handle slot. -/
theorem Sound.occupy (h : Sound core (ref :: work)) {handle : HandleSlot} (hs : core.handles[s]? = some handle)
    (hfree : handle.occupied = false) (generation : UInt64) (owner : Identity) (rights : Rights) :
    Sound (core.updateHandle s ⟨generation, true, owner, ref, rights⟩) work where
  books := by
    refine h.books.updateHandle hs fun r => ?_
    simp only [HandleSlot.held, hfree, if_true, Bool.false_eq_true, if_false, List.count_cons]
    omega
  shaped := h.shaped.alike (alike_updateHandle _)

/-- The reference of a handle slot is taken in hand. -/
theorem Sound.vacate (h : Sound core work) {handle : HandleSlot} (hs : core.handles[s]? = some handle)
    (hocc : handle.occupied = true) (rights : Rights) :
    Sound (core.updateHandle s { handle with occupied := false, rights }) (handle.object :: work) where
  books := by
    refine h.books.updateHandle hs fun r => ?_
    simp only [HandleSlot.held, hocc, if_true, Bool.false_eq_true, if_false, List.count_cons]
    omega
  shaped := h.shaped.alike (alike_updateHandle _)

theorem sameShape_queue {c : ChannelObject} (hk : o.kind = .channel c) (queue : MessageQueue) :
    SameShape o { o with kind := .channel { c with queue } } where
  generation := rfl
  free := by rw [hk]; rfl
  peer := by simp [hk]
  service := by simp [hk]

theorem count_held_cons (queued : QueuedMessage) (rest : List QueuedMessage) (ref : ObjectRef) :
    ((queued :: rest).filterMap fun message => message.transfer.map (·.object)).count ref =
      queued.held.count ref + (rest.filterMap fun message => message.transfer.map (·.object)).count ref := by
  unfold QueuedMessage.held
  cases h : queued.transfer with
  | none => simp [h]
  | some transfer => simp [h, List.count_cons, Nat.add_comm]

include hs

theorem names_channel {c : ChannelObject} (hk : o.kind = .channel c) : core.Names ⟨s, o.generation⟩ o :=
  ⟨hs, rfl, by rw [hk]; rfl⟩

/-- What a message carries goes into the queue with it. -/
theorem Sound.pushMessage {queued : QueuedMessage} (h : Sound core (queued.held ++ work)) {c : ChannelObject} (hk : o.kind = .channel c) {queue : MessageQueue}
    (hq : c.queue.push queued = some queue) :
    Sound (core.updateObject s fun slot => { slot with kind := .channel { c with queue } }) work where
  books := by
    have hlist := Ring.push_some hq
    refine h.books.updateObject (names_channel hs hk) rfl (fun hfree => by cases hfree) fun r => ?_
    simp only [held, hk, ChannelObject.held, hlist, List.filterMap_append, List.count_append]
    have := count_held_cons queued [] r
    simp only [List.filterMap_nil, List.count_nil] at this
    omega
  shaped := h.shaped.alike (alike_updateObject hs (sameShape_queue hk queue))

/-- What a message carries is in hand once the message is taken from the queue. -/
theorem Sound.popMessage (h : Sound core work) {c : ChannelObject}
    (hk : o.kind = .channel c) {queued : QueuedMessage} {queue : MessageQueue}
    (hq : c.queue.pop .empty = some (queued, queue)) :
    Sound (core.updateObject s fun slot => { slot with kind := .channel { c with queue } })
      (queued.held ++ work) where
  books := by
    have hlist := Ring.pop_some hq
    have hheld : o.held = (queued :: queue.toList).filterMap fun message => message.transfer.map (·.object) := by
      simp [held, hk, ChannelObject.held, hlist]
    refine h.books.updateObject (names_channel hs hk) rfl (fun hfree => by cases hfree) fun r => ?_
    rw [hheld, count_held_cons queued queue.toList r]
    simp only [held, ChannelObject.held, List.count_append]
    omega
  shaped := h.shaped.alike (alike_updateObject hs (sameShape_queue hk queue))

omit hs

/-- The endpoint in hand waits for the provider. -/
theorem Sound.pushPending {connection : PendingConnection} (h : Sound core (connection.endpoint :: work))
    {entry : ServiceEntry} (hs : core.services[s]? = some entry) (hocc : entry.occupied = true) {pending : PendingQueue}
    (hq : entry.pending.push connection = some pending) : Sound (core.updateService s { entry with pending }) work where
  books := by
    have hlist := Ring.push_some hq
    refine h.books.updateService hs fun r => ?_
    simp only [ServiceEntry.held, hocc, if_true, hlist, List.map_append, List.map_cons, List.map_nil, List.count_append,
      List.count_cons, List.count_nil]
    omega
  shaped := h.shaped.alike (alike_updateService hs rfl)

/-- The oldest waiting endpoint is taken in hand. -/
theorem Sound.popPending (h : Sound core work) {entry : ServiceEntry} (hs : core.services[s]? = some entry)
    (hocc : entry.occupied = true) {connection : PendingConnection} {pending : PendingQueue}
    (hq : entry.pending.pop .empty = some (connection, pending)) :
    Sound (core.updateService s { entry with pending }) (connection.endpoint :: work) where
  books := by
    have hlist := Ring.pop_some hq
    refine h.books.updateService hs fun r => ?_
    simp only [ServiceEntry.held, hocc, if_true, hlist, List.map_cons, List.count_cons]
    omega
  shaped := h.shaped.alike (alike_updateService hs rfl)

end IpcCore

end MakOS.Ipc
