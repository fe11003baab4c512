/-
What each call of typed IPC does, in the terms of `View`: one constructor of `Effect` for each kind of
call. A call that fails does nothing; one that succeeds has its effect and keeps the books.
-/
import MakOS.Ipc.Allocate

namespace MakOS.Ipc

open Data Data.Act

variable {H O : Nat}

structure Gains (handles : Vector HandleSlot H) (handle : Handle) (owner : Identity) (ref : ObjectRef) (rights : Rights)
    (handles' : Vector HandleSlot H) : Prop where
  slot : ∃ old, handles[handle.slot]? = some old ∧ old.occupied = false ∧ handle.generation = nextGeneration old.generation
  eq : handles' = handles.setIfInBounds handle.slot ⟨handle.generation, true, owner, ref, rights⟩

namespace Gains

variable {handles handles' : Vector HandleSlot H} {handle : Handle} {owner : Identity} {ref : ObjectRef} {rights : Rights}
  (h : Gains handles handle owner ref rights handles')

include h

theorem getElem? (slot : Nat) : handles'[slot]? =
    if slot = handle.slot then some ⟨handle.generation, true, owner, ref, rights⟩ else handles[slot]? := by
  obtain ⟨old, hold, -, -⟩ := h.slot
  obtain ⟨hlt, -⟩ := Vector.getElem?_eq_some_iff.1 hold
  rw [h.eq]
  by_cases e : slot = handle.slot
  · subst e
    simp [hlt]
  · simp [e, Ne.symm e]

theorem new : handles'[handle.slot]? = some ⟨handle.generation, true, owner, ref, rights⟩ := by
  rw [h.getElem?, if_pos rfl]

variable {slot : Nat} {held : HandleSlot}

theorem keeps (hs : handles[slot]? = some held) (hocc : held.occupied = true) : handles'[slot]? = some held := by
  rw [h.getElem?, if_neg]
  · exact hs
  rintro rfl
  obtain ⟨old, hold, hfree, -⟩ := h.slot
  rw [Option.some.inj (hs.symm.trans hold), hfree] at hocc
  cases hocc

theorem cases (hs : handles'[slot]? = some held) :
    handle.slot = slot ∧ ⟨handle.generation, true, owner, ref, rights⟩ = held ∨ handles[slot]? = some held :=
  setIfInBounds_cases (h.eq ▸ hs)

end Gains

namespace IpcCore

variable {core core' : IpcCore H O}

theorem Installs.gains {handle : Handle} {owner : Identity} {ref : ObjectRef} {rights : Rights}
    (h : Installs core handle owner ref rights core') : Gains core.handles handle owner ref rights core'.handles :=
  ⟨h.slot, by rw [h.eq]; rfl⟩

/-- The states between calls: exact books, and nothing leaks. -/
structure Good (core : IpcCore H O) : Prop where
  sound : Sound core []
  tidy : Tidy core

end IpcCore

open IpcCore

/-! ## Effects -/

/-- What the queue is given for a requested transfer: a handle the sender holds and may transfer, with
rights it has. -/
inductive Places (core : IpcCore H O) (sender : Identity) : Option Transfer → Option QueuedTransfer → Prop
  | nothing : Places core sender none none
  | handle {request : Transfer} {source : HandleSlot} (holds : core.Holds sender request.handle source)
      (mayTransfer : source.rights.contains .transfer = true) (subset : source.rights.contains request.rights = true) :
      Places core sender (some request) (some ⟨source.object, request.rights⟩)

/-- What the receiver is given for a queued transfer. -/
inductive Adopts (handles : Vector HandleSlot H) (receiver : Identity) :
    Option QueuedTransfer → Option Handle → Vector HandleSlot H → Prop
  | nothing : Adopts handles receiver none none handles
  | handle {transfer : QueuedTransfer} {handle : Handle} {handles' : Vector HandleSlot H}
      (gains : Gains handles handle receiver transfer.object transfer.rights handles') :
      Adopts handles receiver (some transfer) (some handle) handles'

/-- The calls that only give things back. -/
def Call.givesBack : Call → Bool
  | .close _ _ | .unpublish _ _ | .cleanupIdentity _ | .cleanupPid _ => true
  | _ => false

inductive Effect (core core' : IpcCore H O) : Call → Reply → Prop
  | createChannel {leftOwner rightOwner : Identity} {leftRights rightRights : Rights} {left right : ObjectRef}
      {leftHandle rightHandle : Handle} {handles : Vector HandleSlot H}
      (leftNew : ¬ core.Live left) (rightNew : ¬ core.Live right) (apart : left ≠ right)
      (leftGain : Gains core.handles leftHandle leftOwner left leftRights handles)
      (rightGain : Gains handles rightHandle rightOwner right rightRights core'.handles)
      (services : core'.services = core.services)
      (queues : ∀ ref queue, core'.Queues ref queue ↔ (ref = left ∨ ref = right) ∧ queue = [] ∨ core.Queues ref queue)
      (listens : ∀ ref slot, core'.Listens ref slot ↔ core.Listens ref slot) :
      Effect core core' (.createChannel leftOwner leftRights rightOwner rightRights) (.channel leftHandle rightHandle)
  | publish {provider : Identity} {name : List UInt8} {ref : ObjectRef} {listener : Handle} {slot : Nat}
      {entry : ServiceEntry} (new : ¬ core.Live ref) (service : core.services[slot]? = some entry)
      (unused : entry.occupied = false) (gain : Gains core.handles listener provider ref .accept core'.handles)
      (services : core'.services = core.services.setIfInBounds slot ⟨true, name, provider, .empty⟩)
      (queues : ∀ r queue, core'.Queues r queue ↔ core.Queues r queue)
      (listens : ∀ r i, core'.Listens r i ↔ r = ref ∧ i = slot ∨ core.Listens r i) :
      Effect core core' (.publish provider name) (.handle listener)
  | connect {client : Identity} {name : List UInt8} {left right : ObjectRef} {handle : Handle} {slot : Nat}
      {entry : ServiceEntry} {pending : PendingQueue} (leftNew : ¬ core.Live left) (rightNew : ¬ core.Live right)
      (service : core.services[slot]? = some entry) (matched : entry.nameMatches name = true)
      (push : entry.pending.push ⟨right, .channelAll⟩ = some pending)
      (gain : Gains core.handles handle client left .channelAll core'.handles)
      (services : core'.services = core.services.setIfInBounds slot { entry with pending })
      (queues : ∀ ref queue, core'.Queues ref queue ↔ (ref = left ∨ ref = right) ∧ queue = [] ∨ core.Queues ref queue)
      (listens : ∀ ref slot, core'.Listens ref slot ↔ core.Listens ref slot) :
      Effect core core' (.connect client name) (.handle handle)
  | accept {provider : Identity} {listener handle : Handle} {held : HandleSlot} {slot : Nat} {entry : ServiceEntry}
      {connection : PendingConnection} {pending : PendingQueue} (holds : core.Holds provider listener held)
      (listening : core.Listens held.object slot) (service : core.services[slot]? = some entry)
      (occupied : entry.occupied = true) (pop : entry.pending.pop .empty = some (connection, pending))
      (gain : Gains core.handles handle provider connection.endpoint connection.rights core'.handles)
      (services : core'.services = core.services.setIfInBounds slot { entry with pending })
      (queues : ∀ ref queue, core'.Queues ref queue ↔ core.Queues ref queue)
      (listens : ∀ ref slot, core'.Listens ref slot ↔ core.Listens ref slot) :
      Effect core core' (.accept provider listener) (.handle handle)
  | send {sender : Identity} {endpoint : Handle} {message : WireMessage} {transfer : Option Transfer} {held : HandleSlot}
      {peer : ObjectRef} {queue : List QueuedMessage} {queued : Option QueuedTransfer}
      (holds : core.Holds sender endpoint held) (paired : core.Paired held.object peer)
      (before : core.Queues peer queue) (places : Places core sender transfer queued)
      (handles : core'.handles = core.handles) (services : core'.services = core.services)
      (queues : ∀ ref q, core'.Queues ref q ↔
        if ref = peer then q = queue ++ [⟨message.stampSender sender, queued⟩] else core.Queues ref q)
      (listens : ∀ ref slot, core'.Listens ref slot ↔ core.Listens ref slot) :
      Effect core core' (.send sender endpoint message transfer) .done
  | receive {receiver : Identity} {endpoint : Handle} {held : HandleSlot} {queued : QueuedMessage}
      {rest : List QueuedMessage} {transferred : Option Handle} (holds : core.Holds receiver endpoint held)
      (before : core.Queues held.object (queued :: rest))
      (adopts : Adopts core.handles receiver queued.transfer transferred core'.handles)
      (services : core'.services = core.services)
      (queues : ∀ ref q, core'.Queues ref q ↔ if ref = held.object then q = rest else core.Queues ref q)
      (listens : ∀ ref slot, core'.Listens ref slot ↔ core.Listens ref slot) :
      Effect core core' (.receive receiver endpoint) (.received ⟨queued.message, transferred⟩)
  | giveBack {call : Call} {reply : Reply} (kind : call.givesBack = true) (shrinks : Shrinks core core') :
      Effect core core' call reply

/-! ## Looking for room -/

section Room

variable {core : IpcCore H O} {α : Type} {n : Nat} {f : Unit → Op H O α}

/-- Between calls there is nothing to collect. -/
theorem ensureFreeObjects_good (h : Good core) (n : Nat) :
    ensureFreeObjects n core = (if n ≤ core.freeObjectCount then .ok () else .error .objectTableFull, core) := by
  unfold ensureFreeObjects
  simp [collect_eq h.sound h.tidy]

theorem meets_ensure {Q : α → IpcCore H O → Prop} (h : Good core) (hf : n ≤ core.freeObjectCount → Meets core (f ()) Q) :
    Meets core (ensureFreeObjects n >>= f) Q := by
  refine meets_bind ?_ fun u hu => hf ?_
  · rw [ensureFreeObjects_good h]
  rw [ensureFreeObjects_good h] at hu
  split at hu
  · assumption
  · cases hu

end Room

section Calls

variable {core core' : IpcCore H O}

variable {ref : ObjectRef}

theorem names_retained {ref' : ObjectRef} {x : ObjectSlot} (hl : core.Live ref) (hn : core.Names ref' x)
    (hne : ref' ≠ ref) : (core.retained ref).Names ref' x := by
  obtain ⟨o, ho⟩ := hl
  exact (names_updateNamed ho rfl).2 (.inr ⟨hne, hn⟩)

theorem freeHandleCount_retained : (core.retained ref).freeHandleCount = core.freeHandleCount := by
  simp [freeHandleCount]

/-! ## Creating a channel -/

theorem createChannel_meets (h : Good core) (leftOwner rightOwner : Identity) (leftRights rightRights : Rights) :
    Meets core (createChannel leftOwner leftRights rightOwner rightRights) fun handles core' => Sound core' [] ∧
      Effect core core' (.createChannel leftOwner leftRights rightOwner rightRights) (.channel handles.1 handles.2) := by
  refine meets_look fun _ _ => meets_look fun _ _ => meets_ensure h fun hobjects => meets_guard fun hhandles => ?_
  rw [decide_eq_true_eq] at hhandles
  obtain ⟨left, right, core₁, h₁, hp⟩ := allocatePair_spec hobjects
  have hcount : core₁.freeHandleCount = core.freeHandleCount := by simp only [freeHandleCount, hp.handles]
  have hleft := (hp.names left _).2 (.inl ⟨rfl, rfl⟩)
  have hl : core₁.Live left := ⟨_, hleft⟩
  have hright := (hp.names right _).2 (.inr (.inl ⟨rfl, rfl⟩))
  obtain ⟨lh, core₂, h₂, hi⟩ := installHandle_retain leftOwner leftRights
    (by omega : 0 < core₁.freeHandleCount) hleft (by norm_num)
  have hcount₂ := hi.freeHandleCount
  rw [freeHandleCount_retained] at hcount₂
  have hright₂ := hi.names.2 (names_retained hl hright (Ne.symm hp.apart))
  have hr : core₂.Live right := ⟨_, hright₂⟩
  obtain ⟨rh, core₃, h₃, hj⟩ := installHandle_retain rightOwner rightRights
    (by omega : 0 < core₂.freeHandleCount) hright₂ (by norm_num)
  refine meets_of_ok ((bind_of_ok h₁).trans ((bind_of_ok h₂).trans ((bind_of_ok h₃).trans rfl))) ?_
  have hsame : SameObjects core₁ core₃ :=
    ((sameObjects_retained hl).trans hi.sameObjects).trans ((sameObjects_retained hr).trans hj.sameObjects)
  have hleft := hi.gains
  have hright := hj.gains
  rw [handles_retained] at hleft hright
  rw [hp.handles] at hleft
  refine ⟨hj.sound ((hi.sound ((hp.sound h.sound).retained hl)).retained hr),
    .createChannel hp.leftNew hp.rightNew hp.apart hleft hright ?_ (fun ref queue => ?_) (fun ref slot => ?_)⟩
  · rw [hj.services, services_retained, hi.services, services_retained, hp.services]
  · rw [hsame.queues, hp.queues]
  · rw [hsame.listens, hp.listens]

/-! ## Publishing -/

variable {slot : Nat}

theorem freeService_ok (h : freeService core = .ok slot) :
    ∃ entry, core.services[slot]? = some entry ∧ entry.occupied = false := by
  unfold freeService at h
  split at h
  · rename_i i hi
    cases h
    obtain ⟨entry, hentry, hfree⟩ := findIdx?_toList hi
    exact ⟨entry, hentry, by simpa using hfree⟩
  · cases h

variable {r : ObjectRef}

theorem listens_allocates {i : Nat} (ha : Allocates core (.service slot) ref core') :
    core'.Listens r i ↔ r = ref ∧ i = slot ∨ core.Listens r i := by
  simp [Listens, ha.names rfl, or_and_right, exists_or, eq_comm]

theorem queues_allocates {queue : List QueuedMessage}
    (ha : Allocates core (.service slot) ref core') : core'.Queues r queue ↔ core.Queues r queue := by
  simp [Queues, ha.names rfl, or_and_right, exists_or]

theorem paired_allocates {peer : ObjectRef} (ha : Allocates core (.service slot) ref core') :
    core'.Paired r peer ↔ core.Paired r peer := by
  simp [Paired, ha.names rfl, or_and_right, exists_or]

variable {entry : ServiceEntry}

/-- A new listener together with its entry in the registry. -/
theorem sound_listener (h : Sound core []) (name : List UInt8)
    (provider : Identity) (ha : Allocates core (.service slot) ref core') (hs : core.services[slot]? = some entry)
    (hfree : entry.occupied = false) : Sound (core'.updateService slot ⟨true, name, provider, .empty⟩) [] := by
  have hs' : core'.services[slot]? = some entry := by rw [ha.services]; exact hs
  have hunused : ¬ core.Published slot := by
    rintro ⟨entry', he, hocc⟩
    rw [Option.some.inj (he.symm.trans hs), hfree] at hocc
    cases hocc
  generalize hcore : core'.updateService slot ⟨true, name, provider, .empty⟩ = published
  have hpublished : ∀ i, published.Published i ↔ i = slot ∨ core.Published i := by
    intro i
    have hold : core'.Published i ↔ core.Published i := by
      unfold Published
      rw [ha.services]
    rw [← hcore, published_updateService hs', hold]
    by_cases e : i = slot
    · simp [e]
    · simp [e]
  have hlistens : ∀ r i, published.Listens r i ↔ r = ref ∧ i = slot ∨ core.Listens r i := fun r i =>
    hcore ▸ ((sameObjects_updateService _ _ _).listens r i).trans (listens_allocates ha)
  have hpaired : ∀ r p, published.Paired r p ↔ core.Paired r p := by
    intro r p
    rw [← hcore, ← paired_allocates ha]
    simp [Paired]
  refine ⟨?_, fun r p hp => ?_, fun r i hl => ?_, fun i hp => ?_, fun r r' i hl hl' => ?_⟩
  · exact hcore ▸ (ha.books h.books rfl rfl).updateService hs' fun r => by simp [ServiceEntry.held, hfree, PendingQueue.empty]
  · rw [hpaired] at hp ⊢
    exact h.shaped.peers r p hp
  · rw [hpublished]
    rcases (hlistens r i).1 hl with ⟨-, e⟩ | hl
    · exact .inl e
    · exact .inr (h.shaped.published r i hl)
  · rcases (hpublished i).1 hp with rfl | hp
    · exact ⟨ref, (hlistens ref i).2 (.inl ⟨rfl, rfl⟩)⟩
    · obtain ⟨r, hl⟩ := h.shaped.listener i hp
      exact ⟨r, (hlistens r i).2 (.inr hl)⟩
  · rcases (hlistens r i).1 hl with ⟨rfl, rfl⟩ | hold
    · rcases (hlistens r' i).1 hl' with ⟨rfl, -⟩ | hold'
      · rfl
      · exact absurd (h.shaped.published r' i hold') hunused
    · rcases (hlistens r' i).1 hl' with ⟨-, rfl⟩ | hold'
      · exact absurd (h.shaped.published r i hold) hunused
      · exact h.shaped.unique r r' i hold hold'

theorem retained_updateService (core : IpcCore H O) (ref : ObjectRef) (slot : Nat) (entry : ServiceEntry) :
    (core.retained ref).updateService slot entry = (core.updateService slot entry).retained ref := by
  simp only [retained, updateObject, objects_updateService]
  split <;> rfl

theorem publish_meets (h : Good core) (provider : Identity) (name : List UInt8) :
    Meets core (publish provider name) fun listener core' => Sound core' [] ∧
      Effect core core' (.publish provider name) (.handle listener) := by
  refine meets_look fun _ _ => meets_guard fun _ => meets_look fun slot hslot => meets_ensure h fun hobjects =>
    meets_guard fun hhandles => ?_
  rw [bne_iff_ne] at hhandles
  obtain ⟨ref, core₁, h₁, ha⟩ := allocateObject_spec (.service slot) (by omega : 0 < core.freeObjectCount)
  have hcount : core₁.freeHandleCount = core.freeHandleCount := by simp only [freeHandleCount, ha.handles]
  have hnew := (ha.names rfl).2 (.inl ⟨rfl, rfl⟩)
  have hl : core₁.Live ref := ⟨_, hnew⟩
  obtain ⟨listener, core₂, h₂, hi⟩ := installHandle_retain provider .accept
    (by omega : 0 < core₁.freeHandleCount) hnew (by norm_num)
  obtain ⟨entry, hs, hfree⟩ := freeService_ok hslot
  refine meets_of_ok ((bind_of_ok h₁).trans ((bind_of_ok h₂).trans rfl)) ?_
  have hsame := ((sameObjects_retained hl).trans hi.sameObjects).trans
    (sameObjects_updateService _ slot ⟨true, name, provider, .empty⟩)
  have hgain := hi.gains
  rw [handles_retained, ha.handles] at hgain
  refine ⟨?_, .publish (ha.not_live rfl) hs hfree hgain ?_ (fun r queue => ?_) (fun r i => ?_)⟩
  · -- the entry is made last, but might as well be made first
    have hnew := sound_listener h.sound name provider ha hs hfree
    refine @Installs.sound _ _ _ _ ref [] listener provider .accept ⟨?_, ?_⟩
      (hnew.retained ((sameObjects_updateService _ _ _).live.2 hl))
    · obtain ⟨old, hold, hrest⟩ := hi.slot
      rw [handles_retained] at hold
      exact ⟨old, by rw [handles_retained]; exact hold, hrest⟩
    · rw [hi.eq, ← retained_updateService]
      rfl
  · show core₂.services.setIfInBounds slot _ = _
    rw [hi.services, services_retained, ha.services]
  · exact (hsame.queues r queue).trans (queues_allocates ha)
  · exact (hsame.listens r i).trans (listens_allocates ha)

/-! ## Connecting and accepting -/

variable {provider : Identity} {name : List UInt8}

theorem lookupService_ok (h : lookupService name core = .ok (slot, entry)) :
    core.services[slot]? = some entry ∧ entry.nameMatches name = true := by
  unfold lookupService at h
  split at h
  · cases h
  rename_i i hi
  split at h
  · cases h
  rename_i e he
  cases h
  obtain ⟨x, hx, hm⟩ := findIdx?_toList hi
  obtain rfl : entry = x := Option.some.inj (he.symm.trans hx)
  exact ⟨he, hm⟩

theorem occupied_of_nameMatches (h : entry.nameMatches name = true) : entry.occupied = true := by
  exact (Bool.and_eq_true_iff.1 h).1

variable {client : Identity} {u : Unit}

theorem checkRoute_ok (h : checkRoute client entry = .ok u) : entry.pending.length < servicePendingCapacity := by
  unfold checkRoute at h
  split at h
  · cases h
  split at h
  · cases h
  · rename_i hne
    exact lt_of_le_of_ne entry.pending.fits hne

theorem pushPending_spec (connection : PendingConnection)
    (hs : core.services[slot]? = some entry) (hroom : entry.pending.length < servicePendingCapacity) :
    ∃ pending, entry.pending.push connection = some pending ∧
      pushPending slot connection core = (.ok (), core.updateService slot { entry with pending }) := by
  obtain ⟨pending, hp⟩ := Option.isSome_iff_exists.1 ((Ring.push_isSome (x := connection)).2 hroom)
  unfold pushPending
  simp [hs, hp]

theorem connect_meets (h : Good core) (client : Identity) (name : List UInt8) :
    Meets core (connect client name) fun handle core' => Sound core' [] ∧
      Effect core core' (.connect client name) (.handle handle) := by
  refine meets_look fun _ _ => meets_look fun found hfound => ?_
  obtain ⟨slot, entry⟩ := found
  refine meets_look fun _ hroute => meets_ensure h fun hobjects => meets_guard fun hhandles => ?_
  rw [bne_iff_ne] at hhandles
  obtain ⟨hs, hm⟩ := lookupService_ok hfound
  obtain ⟨left, right, core₁, h₁, hp⟩ := allocatePair_spec hobjects
  have hcount : core₁.freeHandleCount = core.freeHandleCount := by simp only [freeHandleCount, hp.handles]
  have hleft := (hp.names left _).2 (.inl ⟨rfl, rfl⟩)
  have hl : core₁.Live left := ⟨_, hleft⟩
  have hright := (hp.names right _).2 (.inr (.inl ⟨rfl, rfl⟩))
  obtain ⟨handle, core₂, h₂, hi⟩ := installHandle_retain client .channelAll
    (by omega : 0 < core₁.freeHandleCount) hleft (by norm_num)
  have hright₂ := hi.names.2 (names_retained hl hright (Ne.symm hp.apart))
  have h₃ := retainObject_succeeds hright₂ (by norm_num)
  have hr : core₂.Live right := ⟨_, hright₂⟩
  have hservices : (core₂.retained right).services = core.services := by
    rw [services_retained, hi.services, services_retained, hp.services]
  have hs₃ : (core₂.retained right).services[slot]? = some entry := by
    rw [hservices]
    exact hs
  obtain ⟨pending, hpush, h₄⟩ := pushPending_spec ⟨right, .channelAll⟩ hs₃ (checkRoute_ok hroute)
  refine meets_of_ok ((bind_of_ok h₁).trans ((bind_of_ok h₂).trans ((bind_of_ok h₃).trans ((bind_of_ok h₄).trans rfl)))) ?_
  have hsame : SameObjects core₁ ((core₂.retained right).updateService slot { entry with pending }) :=
    ((sameObjects_retained hl).trans hi.sameObjects).trans ((sameObjects_retained hr).trans (sameObjects_updateService _ _ _))
  have hgain := hi.gains
  rw [handles_retained, hp.handles] at hgain
  have hsound : Sound (core₂.retained right) [right] := (hi.sound ((hp.sound h.sound).retained hl)).retained hr
  refine ⟨hsound.pushPending hs₃ (occupied_of_nameMatches hm) hpush,
    .connect hp.leftNew hp.rightNew hs hm hpush ?_ ?_ (fun ref queue => ?_) (fun ref i => ?_)⟩
  · rw [handles_updateService, handles_retained]
    exact hgain
  · show (core₂.retained right).services.setIfInBounds slot { entry with pending } = _
    rw [hservices]
  · exact (hsame.queues ref queue).trans hp.queues
  · exact (hsame.listens ref i).trans hp.listens

theorem listenerSlot_ok (h : listenerSlot ref core = .ok slot) : core.Listens ref slot := by
  obtain ⟨o, hn, h⟩ := resolveObject_bind h
  split at h
  · rename_i hk
    cases h
    exact ⟨o, hn, hk⟩
  · cases h

theorem popPending_spec (hs : core.services[slot]? = some entry) (hne : entry.pending.length ≠ 0) :
    ∃ connection pending, entry.pending.pop .empty = some (connection, pending) ∧
      popPending slot core = (.ok connection, core.updateService slot { entry with pending }) := by
  cases hp : entry.pending.pop .empty with
  | none => exact absurd (by rw [← Ring.length_toList, Ring.pop_eq_none.1 hp, List.length_nil]) hne
  | some r =>
    obtain ⟨connection, pending⟩ := r
    unfold popPending
    simp [hs, hp]

theorem checkPending_ok (h : checkPending provider slot core = .ok u) :
    ∃ entry, core.services[slot]? = some entry ∧ entry.provider = provider ∧ entry.pending.length ≠ 0 := by
  unfold checkPending at h
  split at h
  · cases h
  rename_i entry hs
  split at h
  · cases h
  rename_i hp
  split at h
  · cases h
  · rename_i hne
    exact ⟨entry, hs, not_not.1 hp, hne⟩

/-- The entry of a listener's service. -/
theorem occupied_of_listens (h : Shaped core)
    (hl : core.Listens ref slot) (hs : core.services[slot]? = some entry) : entry.occupied = true := by
  obtain ⟨entry', hs', hocc⟩ := h.published ref slot hl
  rw [Option.some.inj (hs.symm.trans hs')]
  exact hocc

theorem accept_meets (h : Good core) (provider : Identity) (listener : Handle) :
    Meets core (accept provider listener) fun handle core' => Sound core' [] ∧
      Effect core core' (.accept provider listener) (.handle handle) := by
  refine meets_look fun held hheld => meets_look fun _ _ => meets_look fun slot hslot =>
    meets_look fun _ hcheck => meets_guard fun hhandles => ?_
  rw [bne_iff_ne] at hhandles
  obtain ⟨entry, hs, -, hne⟩ := checkPending_ok hcheck
  obtain ⟨connection, pending, hpop, h₁⟩ := popPending_spec hs hne
  have hl := listenerSlot_ok hslot
  have hocc := occupied_of_listens h.sound.shaped hl hs
  have hsound := h.sound.popPending hs hocc hpop
  obtain ⟨handle, core₂, h₂, hi⟩ := installHandle_adopt provider connection.rights
    (by simp only [freeHandleCount, handles_updateService] at *; omega)
    (hsound.books.live connection.endpoint (.inr List.mem_cons_self))
  refine meets_of_ok ((bind_of_ok h₁).trans h₂) ?_
  have hsame : SameObjects core core₂ := (sameObjects_updateService _ _ _).trans hi.sameObjects
  refine ⟨hi.sound hsound, .accept (resolveHandle_ok.1 hheld) hl hs hocc hpop hi.gains ?_ hsame.queues hsame.listens⟩
  rw [hi.services]
  rfl

end Calls

end MakOS.Ipc
