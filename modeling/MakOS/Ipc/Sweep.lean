/-
What the collector leaves. Whatever is not reachable is gone, every channel's peer is gone with it, and
the references are counted afresh. From exact books it leaves exact books without a leak; where there
was no leak either it changes nothing at all.
-/
import MakOS.Ipc.Reach

namespace MakOS.Ipc

open Data ObjectSlot

/-- A slot with some more references counted, if it is in use. -/
def ObjectSlot.counted (o : ObjectSlot) (n : Nat) : ObjectSlot :=
  if o.kind.isFree then o else { o with references := o.references + n }

namespace ObjectSlot

variable (o : ObjectSlot) (m n : Nat)

@[simp] theorem kind_counted : (o.counted n).kind = o.kind := by
  unfold counted
  split <;> rfl

@[simp] theorem generation_counted : (o.counted n).generation = o.generation := by
  unfold counted
  split <;> rfl

theorem counted_counted : (o.counted m).counted n = o.counted (m + n) := by
  unfold counted
  split
  · rfl
  · simp [Nat.add_assoc]

@[simp] theorem held_counted : (o.counted n).held = o.held := by
  simp [held]

end ObjectSlot

namespace IpcCore

variable {H O : Nat} {core : IpcCore H O} {ref ref' : ObjectRef} {o x : ObjectSlot} {i : Nat}

/-! ## Sweeping -/

/-- The state after the unmarked objects are freed. -/
def swept (core : IpcCore H O) : IpcCore H O := core.sweep core.marks

theorem objects_swept : core.swept.objects[i]? =
    (core.objects[i]?).map fun o => if core.marks[i]? = some true ∨ o.kind.isFree = true then o else { o with references := 0, kind := .free } := by
  simp [swept, sweep]

theorem names_swept : core.swept.Names ref x ↔ core.Names ref x ∧ core.Reaches ref := by
  constructor
  · rintro ⟨hs, hg, hk⟩
    rw [objects_swept] at hs
    obtain ⟨o, ho, rfl⟩ := Option.map_eq_some_iff.1 hs
    split at hk
    · rename_i hspare
      rw [if_pos hspare] at hg ⊢
      have hn : core.Names ref o := ⟨ho, hg, hk⟩
      rcases hspare with hm | hf
      · exact ⟨hn, (marks_iff ⟨o, hn⟩).1 hm⟩
      · rw [hk] at hf
        cases hf
    · cases hk
  · rintro ⟨hn, hr⟩
    refine ⟨?_, hn.generation, hn.live⟩
    rw [objects_swept, hn.slot, Option.map_some, if_pos (.inl ((marks_iff ⟨x, hn⟩).2 hr))]

theorem live_swept : core.swept.Live ref ↔ core.Reaches ref := by
  constructor
  · rintro ⟨x, hx⟩
    exact (names_swept.1 hx).2
  · intro hr
    obtain ⟨x, hx⟩ := hr.live
    exact ⟨x, names_swept.2 ⟨hx, hr⟩⟩

variable {slot : Nat}

theorem mem_unmarkedServices :
    slot ∈ core.unmarkedServices core.marks ↔ ∃ ref, core.Listens ref slot ∧ ¬ core.Reaches ref := by
  simp only [unmarkedServices, List.mem_filterMap, List.mem_range]
  constructor
  · rintro ⟨i, hi, h⟩
    split at h
    · cases h
    rename_i hm
    obtain ⟨o, ho, hr⟩ := Option.bind_eq_some_iff.1 h
    have hk : o.kind = .service slot := by
      unfold registrySlot? at hr
      split at hr
      · cases hr
        assumption
      · cases hr
    have hn : core.Names ⟨i, o.generation⟩ o := ⟨ho, rfl, by rw [hk]; rfl⟩
    exact ⟨⟨i, o.generation⟩, ⟨o, hn, hk⟩, fun hreach => hm ((marks_iff ⟨o, hn⟩).2 hreach)⟩
  · rintro ⟨ref, ⟨o, hn, hk⟩, hr⟩
    obtain ⟨hlt, -⟩ := Vector.getElem?_eq_some_iff.1 hn.slot
    refine ⟨ref.slot, hlt, ?_⟩
    rw [if_neg fun hm => hr ((marks_iff ⟨o, hn⟩).1 hm), hn.slot]
    simp [registrySlot?, hk]

theorem services_swept : core.swept.services[slot]? =
    (core.services[slot]?).map fun entry => if slot ∈ core.unmarkedServices core.marks then .empty else entry := by
  simp [swept, sweep]

/-! ## Counting afresh -/

theorem countReference_handles (core : IpcCore H O) (ref : ObjectRef) : (core.countReference ref).handles = core.handles := by
  unfold countReference
  split
  · exact handles_updateObject
  · rfl

theorem countReference_services (core : IpcCore H O) (ref : ObjectRef) :
    (core.countReference ref).services = core.services := by
  unfold countReference
  split
  · exact services_updateObject
  · rfl

theorem countReference_objects (core : IpcCore H O) (ref : ObjectRef) : (core.countReference ref).objects[i]? =
    (core.objects[i]?).map fun o => o.counted (if ref = ⟨i, o.generation⟩ then 1 else 0) := by
  cases ho : core.objects[i]? with
  | none =>
    unfold countReference
    split
    · rw [objects_updateObject, ho]
      simp
    · simp [ho]
  | some o =>
    by_cases hself : core.Live ref ∧ ref.slot = i
    · obtain ⟨⟨x, hx⟩, rfl⟩ := hself
      obtain rfl : x = o := Option.some.inj (hx.slot.symm.trans ho)
      have hlive := objectRefIsLive_iff.2 ⟨x, hx⟩
      have hgen := hx.generation
      simp only [countReference, hlive, if_true, objects_updateObject, ho, Option.map_some, counted, hx.live,
        Bool.false_eq_true, if_false, hgen]
    · have hsame : (core.countReference ref).objects[i]? = some o := by
        unfold countReference
        split
        · rename_i hl
          rw [objects_updateObject, if_neg fun e => hself ⟨objectRefIsLive_iff.1 hl, e.symm⟩]
          exact ho
        · exact ho
      rw [hsame]
      by_cases hfree : o.kind.isFree = true
      · simp [counted, hfree]
      -- the reference does not name the object in this slot
      have hne : ref ≠ ⟨i, o.generation⟩ := by
        rintro rfl
        exact hself ⟨⟨o, ho, rfl, by simpa using hfree⟩, rfl⟩
      simp [counted, hne]

theorem foldl_countReference (refs : List ObjectRef) (core : IpcCore H O) :
    (refs.foldl countReference core).objects[i]? =
      (core.objects[i]?).map fun o => o.counted (refs.count ⟨i, o.generation⟩) := by
  induction refs generalizing core with
  | nil =>
    have h0 : ∀ o : ObjectSlot, o.counted 0 = o := by
      intro o
      unfold counted
      split <;> rfl
    simp [h0]
  | cons ref refs ih =>
    rw [List.foldl_cons, ih, countReference_objects, Option.map_map]
    refine congrArg (Option.map · core.objects[i]?) (funext fun o => ?_)
    simp only [Function.comp_apply, generation_counted, counted_counted, List.count_cons, beq_iff_eq]
    rw [Nat.add_comm]

theorem foldl_countReference_handles (refs : List ObjectRef) (core : IpcCore H O) :
    (refs.foldl countReference core).handles = core.handles := by
  induction refs generalizing core with
  | nil => rfl
  | cons ref refs ih => rw [List.foldl_cons, ih, countReference_handles]

theorem foldl_countReference_services (refs : List ObjectRef) (core : IpcCore H O) :
    (refs.foldl countReference core).services = core.services := by
  induction refs generalizing core with
  | nil => rfl
  | cons ref refs ih => rw [List.foldl_cons, ih, countReference_services]

/-! ## What is left -/

variable {core' : IpcCore H O}

theorem references_congr (hh : core'.handles = core.handles) (hs : core'.services = core.services)
    (ho : ∀ i : Nat, (core'.objects[i]?).map held = (core.objects[i]?).map held) :
    core'.references = core.references := by
  have hq : core'.queueReferences = core.queueReferences := by
    refine congrArg List.flatten (List.ext_getElem? fun i => ?_)
    rw [List.getElem?_map, List.getElem?_map, Vector.getElem?_toList, Vector.getElem?_toList]
    exact ho i
  simp [references, handleReferences, pendingReferences, hh, hs, hq]

theorem generation_settle (core : IpcCore H O) (o : ObjectSlot) : (core.settle o).generation = o.generation := by
  unfold settle
  split <;> rfl

theorem isFree_settle (core : IpcCore H O) (o : ObjectSlot) : (core.settle o).kind.isFree = o.kind.isFree := by
  unfold settle
  split
  · rfl
  · rfl
  · rename_i hk
    rw [hk]
    rfl

theorem held_settle (core : IpcCore H O) (o : ObjectSlot) : (core.settle o).held = o.held := by
  unfold settle
  split
  · rfl
  · simp [held]
  · rename_i hk
    simp [held, hk, ChannelObject.held]

theorem references_settle (core : IpcCore H O) (hk : o.kind.isFree = false) : (core.settle o).references = 0 := by
  unfold settle
  split
  · rename_i h
    rw [h] at hk
    cases hk
  · rfl
  · rfl

theorem settle_service (core : IpcCore H O) : (core.settle o).kind = .service slot ↔ o.kind = .service slot := by
  unfold settle
  split
  · rfl
  · rfl
  · rename_i hk
    simp [hk]

theorem settle_channel (core : IpcCore H O) {c' : ChannelObject} : (core.settle o).kind = .channel c' ↔
    ∃ c, o.kind = .channel c ∧ c' = { c with peer := c.peer.filter core.objectRefIsLive } := by
  unfold settle
  split
  · rename_i hk
    simp [hk]
  · rename_i hk
    simp [hk]
  · rename_i hk
    simp only [hk, ObjectKind.channel.injEq, exists_eq_left']
    exact eq_comm

def counts (core : IpcCore H O) : List ObjectRef := core.swept.settleAll.references

theorem collect_objects : core.collectUnreachableObjects.objects[i]? = (core.swept.objects[i]?).map fun o =>
    (core.swept.settle o).counted (core.counts.count ⟨i, o.generation⟩) := by
  have hsettled : core.swept.settleAll.objects[i]? = (core.swept.objects[i]?).map core.swept.settle := by
    simp [settleAll]
  refine (foldl_countReference core.counts core.swept.settleAll).trans ?_
  rw [hsettled, Option.map_map]
  refine congrArg (Option.map · core.swept.objects[i]?) (funext fun o => ?_)
  rw [Function.comp_apply, generation_settle]

theorem collect_handles : core.collectUnreachableObjects.handles = core.handles :=
  foldl_countReference_handles core.counts core.swept.settleAll

theorem collect_services : core.collectUnreachableObjects.services = core.swept.services :=
  foldl_countReference_services core.counts core.swept.settleAll

theorem collect_references : core.collectUnreachableObjects.references = core.counts := by
  refine references_congr ?_ ?_ fun i => ?_
  · exact foldl_countReference_handles core.counts core.swept.settleAll
  · exact foldl_countReference_services core.counts core.swept.settleAll
  have := foldl_countReference (i := i) core.counts core.swept.settleAll
  refine (congrArg (Option.map held) this).trans ?_
  rw [Option.map_map]
  refine congrArg (Option.map · core.swept.settleAll.objects[i]?) (funext fun o => ?_)
  exact held_counted o _

/-- What is left of an object: its references are counted afresh, and a peer that is gone is dropped. -/
theorem names_collect : core.collectUnreachableObjects.Names ref x ↔ core.Reaches ref ∧ ∃ o, core.Names ref o ∧
    x = (core.swept.settle o).counted (core.counts.count ref) := by
  constructor
  · rintro ⟨hs, hg, hk⟩
    rw [collect_objects] at hs
    obtain ⟨o, ho, rfl⟩ := Option.map_eq_some_iff.1 hs
    rw [generation_counted, generation_settle] at hg
    rw [kind_counted, isFree_settle] at hk
    have hn := names_swept.1 ⟨ho, hg, hk⟩
    refine ⟨hn.2, o, hn.1, ?_⟩
    rw [hg]
  · rintro ⟨hr, o, hn, rfl⟩
    have hn' := names_swept.2 ⟨hn, hr⟩
    refine ⟨?_, ?_, ?_⟩
    · rw [collect_objects, hn'.slot, Option.map_some, hn.generation]
    · rw [generation_counted, generation_settle]
      exact hn.generation
    · rw [kind_counted, isFree_settle]
      exact hn.live

theorem live_collect : core.collectUnreachableObjects.Live ref ↔ core.Reaches ref := by
  constructor
  · rintro ⟨x, hx⟩
    exact (names_collect.1 hx).1
  · intro hr
    obtain ⟨o, ho⟩ := hr.live
    exact ⟨_, names_collect.2 ⟨hr, o, ho, rfl⟩⟩

theorem paired_collect {peer : ObjectRef} : core.collectUnreachableObjects.Paired ref peer ↔
    core.Reaches ref ∧ core.Reaches peer ∧ core.Paired ref peer := by
  constructor
  · rintro ⟨x, c', hx, hk, hp⟩
    obtain ⟨hr, o, hn, rfl⟩ := names_collect.1 hx
    rw [kind_counted, settle_channel] at hk
    obtain ⟨c, hk, rfl⟩ := hk
    obtain ⟨hp, hlive⟩ := Option.filter_eq_some_iff.1 hp
    exact ⟨hr, live_swept.1 (objectRefIsLive_iff.1 hlive), o, c, hn, hk, hp⟩
  · rintro ⟨hr, hpeer, o, c, hn, hk, hp⟩
    refine ⟨_, { c with peer := c.peer.filter core.swept.objectRefIsLive }, names_collect.2 ⟨hr, o, hn, rfl⟩, ?_, ?_⟩
    · rw [kind_counted, settle_channel]
      exact ⟨c, hk, rfl⟩
    · exact Option.filter_eq_some_iff.2 ⟨hp, objectRefIsLive_iff.2 (live_swept.2 hpeer)⟩

theorem listens_collect : core.collectUnreachableObjects.Listens ref slot ↔
    core.Reaches ref ∧ core.Listens ref slot := by
  simp [Listens, names_collect, settle_service, and_assoc]

/-- A registry slot that stays in use keeps its entry. -/
theorem service_collect {entry : ServiceEntry} (hocc : entry.occupied = true) :
    core.collectUnreachableObjects.services[slot]? = some entry ↔
      core.services[slot]? = some entry ∧ ∀ ref, core.Listens ref slot → core.Reaches ref := by
  rw [collect_services, services_swept]
  constructor
  · intro h
    obtain ⟨entry', he, h⟩ := Option.map_eq_some_iff.1 h
    split at h
    · subst h
      cases hocc
    rename_i hnot
    subst h
    refine ⟨he, fun ref hl => ?_⟩
    by_contra hr
    exact hnot (mem_unmarkedServices.2 ⟨ref, hl, hr⟩)
  · rintro ⟨he, hall⟩
    rw [he, Option.map_some, if_neg]
    intro hm
    obtain ⟨ref, hl, hr⟩ := mem_unmarkedServices.1 hm
    exact hr (hall ref hl)

theorem published_collect : core.collectUnreachableObjects.Published slot ↔
    core.Published slot ∧ ∀ ref, core.Listens ref slot → core.Reaches ref := by
  constructor
  · rintro ⟨entry, hs, hocc⟩
    obtain ⟨he, hall⟩ := (service_collect hocc).1 hs
    exact ⟨⟨entry, he, hocc⟩, hall⟩
  · rintro ⟨⟨entry, he, hocc⟩, hall⟩
    exact ⟨entry, (service_collect hocc).2 ⟨he, hall⟩, hocc⟩

/-! ## The collector keeps the books -/

theorem Shaped.collect (h : Shaped core) : Shaped core.collectUnreachableObjects where
  peers := by
    intro ref peer hp
    rw [paired_collect] at hp ⊢
    exact ⟨hp.2.1, hp.1, h.peers ref peer hp.2.2⟩
  published := by
    intro ref slot hl
    obtain ⟨hr, hl⟩ := listens_collect.1 hl
    refine published_collect.2 ⟨h.published ref slot hl, fun ref' hl' => ?_⟩
    rwa [h.unique ref ref' slot hl hl']
  listener := by
    intro slot hp
    obtain ⟨hp, hall⟩ := published_collect.1 hp
    obtain ⟨ref, hl⟩ := h.listener slot hp
    exact ⟨ref, listens_collect.2 ⟨hall ref hl, hl⟩⟩
  unique := by
    intro ref ref' slot hl hl'
    exact h.unique ref ref' slot (listens_collect.1 hl).2 (listens_collect.1 hl').2

/-- Whatever is still named is reachable. -/
theorem reaches_of_counted {work : List ObjectRef} (h : Sound core work)
    (hr : ref ∈ core.collectUnreachableObjects.references) : core.Reaches ref := by
  simp only [references, List.mem_append, mem_handleReferences, mem_pendingReferences, mem_queueReferences] at hr
  rcases hr with (⟨i, handle, hs, hocc, rfl⟩ | ⟨i, entry, hs, hr⟩) | ⟨i, x, hs, hr⟩
  · rw [collect_handles] at hs
    exact .handle hs hocc (h.books.live_handle hs (by simp [HandleSlot.held, hocc]))
  · have hocc : entry.occupied = true := by
      by_contra hnot
      simp [ServiceEntry.held, hnot] at hr
    obtain ⟨hs, hall⟩ := (service_collect hocc).1 hs
    obtain ⟨parent, hl⟩ := h.shaped.listener i ⟨entry, hs, hocc⟩
    obtain ⟨o, hn, hk⟩ := hl
    refine (hall parent ⟨o, hn, hk⟩).child hn ?_ (h.books.live_service hs hr)
    simpa only [children, hk, heldByService, hs] using hr
  · rw [collect_objects] at hs
    obtain ⟨o, ho, rfl⟩ := Option.map_eq_some_iff.1 hs
    rw [held_counted, held_settle] at hr
    have hk : o.kind.isFree = false := by
      by_contra hnot
      have hfree : o.kind = .free := by
        cases hkind : o.kind <;> simp_all
      simp [held, hfree] at hr
    obtain ⟨hn, hreach⟩ := names_swept.1 (⟨ho, rfl, hk⟩ : core.swept.Names ⟨i, o.generation⟩ o)
    refine hreach.child hn ?_ (h.books.live_object hn.slot hr)
    unfold children
    unfold held at hr
    split at hr
    · rename_i hkind
      simpa only [hkind] using hr
    · exact absurd hr List.not_mem_nil

theorem Sound.collect (h : Sound core []) : Sound core.collectUnreachableObjects [] where
  books := by
    refine ⟨fun ref x hx => ?_, fun ref hr => ?_⟩
    · obtain ⟨-, o, hn, rfl⟩ := names_collect.1 hx
      rw [collect_references, counted, isFree_settle, hn.live]
      simp [references_settle _ hn.live]
    · rcases hr with hr | hr
      · exact live_collect.2 (reaches_of_counted h hr)
      · exact absurd hr List.not_mem_nil
  shaped := h.shaped.collect

theorem tidy_collect (h : Shaped core) : Tidy core.collectUnreachableObjects := by
  intro ref hl
  have hr := live_collect.1 hl
  clear hl
  induction hr with
  | handle hs hocc hl =>
    exact .handle (by rw [collect_handles]; exact hs) hocc (live_collect.2 (.handle hs hocc hl))
  | child hp hn hc hl ih =>
    rename_i parent ref o
    refine ih.child (names_collect.2 ⟨hp, o, hn, rfl⟩) ?_ (live_collect.2 (hp.child hn hc hl))
    unfold children at hc ⊢
    rw [kind_counted]
    split at hc
    · exact absurd hc List.not_mem_nil
    · rename_i c hk
      rw [(settle_channel core.swept).2 ⟨c, hk, rfl⟩]
      exact hc
    rename_i slot hk
    rw [(settle_service core.swept).2 hk]
    obtain ⟨entry, hs, hocc⟩ := h.published parent slot ⟨o, hn, hk⟩
    have hkeep : core.collectUnreachableObjects.services[slot]? = some entry :=
      (service_collect hocc).2 ⟨hs, fun ref' hl' => h.unique parent ref' slot ⟨o, hn, hk⟩ hl' ▸ hp⟩
    simpa only [heldByService, hs, hkeep] using hc

/-! ## Where nothing leaks the collector changes nothing -/

theorem ext_getElem? (hh : core'.handles = core.handles)
    (ho : ∀ i : Nat, core'.objects[i]? = core.objects[i]?) (hs : ∀ i : Nat, core'.services[i]? = core.services[i]?) :
    core' = core := by
  cases core
  cases core'
  simp only [IpcCore.mk.injEq]
  exact ⟨hh, vector_ext ho, vector_ext hs⟩

theorem swept_eq (ht : Tidy core) : core.swept = core := by
  refine ext_getElem? rfl (fun i => ?_) (fun i => ?_)
  · rw [objects_swept]
    cases ho : core.objects[i]? with
    | none => rfl
    | some o =>
      rw [Option.map_some, if_pos]
      by_cases hk : o.kind.isFree = true
      · exact .inr hk
      · have hn : core.Names ⟨i, o.generation⟩ o := ⟨ho, rfl, by simpa using hk⟩
        exact .inl ((marks_iff ⟨o, hn⟩).2 (ht _ ⟨o, hn⟩))
  · rw [services_swept]
    cases hs : core.services[i]? with
    | none => rfl
    | some entry =>
      rw [Option.map_some, if_neg]
      intro hm
      obtain ⟨ref, ⟨o, hn, -⟩, hr⟩ := mem_unmarkedServices.1 hm
      exact hr (ht ref ⟨o, hn⟩)

theorem counts_eq (ht : Tidy core) : core.counts = core.references := by
  unfold counts
  rw [swept_eq ht]
  refine references_congr rfl rfl fun i => ?_
  simp only [settleAll, Vector.getElem?_map, Option.map_map]
  exact congrArg (Option.map · core.objects[i]?) (funext fun o => held_settle core o)

/-- With exact counts and mutual peers, counting afresh gives each object back as it was. -/
theorem settle_counted (h : Sound core []) (hn : core.Names ref o) :
    (core.settle o).counted (core.references.count ref) = o := by
  have hrefs := h.books.exact ref o hn
  unfold counted
  unfold settle
  cases hk : o.kind with
  | free =>
    have := hn.live
    rw [hk] at this
    cases this
  | service slot =>
    cases o
    simp_all
  | channel c =>
    have hpeer : c.peer.filter core.objectRefIsLive = c.peer := by
      cases hp : c.peer with
      | none => rfl
      | some peer =>
        obtain ⟨x, c', hx, -, -⟩ := h.shaped.peers ref peer ⟨o, c, hn, hk, hp⟩
        rw [Option.filter_some, if_pos (objectRefIsLive_iff.2 ⟨x, hx⟩)]
    cases o
    simp_all

theorem collect_eq (h : Sound core []) (ht : Tidy core) : core.collectUnreachableObjects = core := by
  refine ext_getElem? collect_handles (fun i => ?_) (fun i => ?_)
  · rw [collect_objects, swept_eq ht, counts_eq ht]
    cases ho : core.objects[i]? with
    | none => rfl
    | some o =>
      rw [Option.map_some]
      by_cases hk : o.kind.isFree = true
      · have hfree : o.kind = .free := by
          cases hkind : o.kind <;> simp_all
        have hsettle : core.settle o = o := by simp only [settle, hfree]
        rw [hsettle, counted, if_pos hk]
      · rw [settle_counted h (⟨ho, rfl, by simpa using hk⟩ : core.Names ⟨i, o.generation⟩ o)]
  · rw [collect_services, swept_eq ht]

end IpcCore

end MakOS.Ipc
