/-
Messages, closing, and then every call at once: from a state with exact books and no leak, a call that
fails leaves the state alone, and a call that succeeds has its effect and leaves such a state.
-/
import MakOS.Ipc.Effect

namespace MakOS.Ipc

open Data Data.Act IpcCore

variable {H O : Nat} {core core' : IpcCore H O}

/-! ## Sending -/

def Endpoint (core : IpcCore H O) (ref : ObjectRef) (channel : ChannelObject) : Prop :=
  ∃ object, core.Names ref object ∧ object.kind = .channel channel

variable {ref : ObjectRef} {c : ChannelObject}

theorem Endpoint.queues (h : Endpoint core ref c) : core.Queues ref c.queue.toList := by
  obtain ⟨o, hn, hk⟩ := h
  exact ⟨o, c, hn, hk, rfl⟩

variable {peer : ObjectRef}

theorem peerOf_ok (h : peerOf ref core = .ok peer) : core.Paired ref peer := by
  obtain ⟨o, hn, h⟩ := resolveObject_bind h
  split at h
  · rename_i c hk
    split at h
    · rename_i p hp
      cases h
      exact ⟨o, c, hn, hk, hp⟩
    · cases h
  · cases h

variable {u : Unit}

theorem checkRoom_ok (h : checkRoom ref core = .ok u) : ∃ c, Endpoint core ref c ∧ c.queue.length < channelQueueCapacity := by
  obtain ⟨o, hn, h⟩ := resolveObject_bind h
  split at h
  · rename_i c hk
    split at h
    · cases h
    · rename_i hne
      exact ⟨c, ⟨o, hn, hk⟩, lt_of_le_of_ne c.queue.fits hne⟩
  · cases h

theorem requireRight_ok {held required : Rights} (h : requireRight held required = .ok u) :
    held.contains required = true := by
  unfold requireRight at h
  split at h
  · assumption
  · cases h

variable {sender : Identity}

theorem checkTransfer_ok {request : Transfer} (h : checkTransfer sender request core = .ok ref) :
    core.Live ref ∧ Places core sender (some request) (some ⟨ref, request.rights⟩) := by
  unfold checkTransfer at h
  split at h
  · cases h
  obtain ⟨source, hs, h⟩ := Bytes.except_bind_ok h
  obtain ⟨u, ht, h⟩ := Bytes.except_bind_ok h
  split at h
  · cases h
  rename_i hsub
  obtain ⟨o, hn, h⟩ := resolveObject_bind h
  split at h
  · split at h
    · cases h
    · cases h
      refine ⟨⟨o, hn⟩, .handle (resolveHandle_ok.1 hs) (requireRight_ok ht) ?_⟩
      simpa using hsub
  · cases h

/-- A prepared transfer holds a reference of its own. -/
structure Prepares (core : IpcCore H O) (sender : Identity) (transfer : Option Transfer)
    (queued : Option QueuedTransfer) (core' : IpcCore H O) : Prop where
  places : Places core sender transfer queued
  sound : Sound core [] → Sound core' (QueuedMessage.held ⟨.empty, queued⟩)
  sameObjects : SameObjects core core'
  endpoint : ∀ ref c, Endpoint core ref c → Endpoint core' ref c
  handles : core'.handles = core.handles
  services : core'.services = core.services

theorem prepareTransfer_meets (sender : Identity) (transfer : Option Transfer) :
    Meets core (prepareTransfer sender transfer) (Prepares core sender transfer) := by
  cases transfer with
  | none => exact ⟨.nothing, fun hs => hs, ⟨fun _ _ => Iff.rfl, fun _ _ => Iff.rfl⟩, fun _ _ hc => hc, rfl, rfl⟩
  | some request =>
    refine meets_look fun ref href => (retainObject_meets ref).bind fun u core' h => ⟨_, core', rfl, ?_⟩
    obtain ⟨hl, hplaces⟩ := checkTransfer_ok href
    obtain ⟨-, rfl⟩ := h
    refine ⟨hplaces, fun hs => hs.retained hl, sameObjects_retained hl, ?_, handles_retained, services_retained⟩
    rintro r c ⟨o, hn, hk⟩
    by_cases e : r = ref
    · subst e
      refine ⟨{ o with references := o.references + 1 }, (names_updateObject hn.slot).2 ?_, hk⟩
      rw [if_pos rfl]
      exact ⟨rfl, hn.generation, hn.live⟩
    · exact ⟨o, names_retained hl hn e, hk⟩

variable {queued : QueuedMessage}

theorem enqueue_spec (queued : QueuedMessage) (hc : Endpoint core peer c) (hroom : c.queue.length < channelQueueCapacity) :
    ∃ queue, c.queue.push queued = some queue ∧ enqueue peer queued core =
      (.ok (), core.updateObject peer.slot fun slot => { slot with kind := .channel { c with queue } }) := by
  obtain ⟨o, hn, hk⟩ := hc
  obtain ⟨queue, hq⟩ := Option.isSome_iff_exists.1 ((Ring.push_isSome (x := queued)).2 hroom)
  unfold enqueue pushMessage
  simp [hn.slot, hk, hq]

theorem send_meets (hsound : Sound core []) (sender : Identity) (endpoint : Handle) (message : WireMessage)
    (transfer : Option Transfer) : Meets core (send sender endpoint message transfer) fun _ core' =>
      Sound core' [] ∧ Effect core core' (.send sender endpoint message transfer) .done := by
  refine meets_guard fun _ => meets_look fun held hheld => meets_look fun _ _ => meets_look fun peer hpeer =>
    meets_look fun _ hroom => (prepareTransfer_meets sender transfer).bind fun queued core₁ hp => ?_
  obtain ⟨c, hc, hlen⟩ := checkRoom_ok hroom
  have hc₁ := hp.endpoint peer c hc
  obtain ⟨queue, hq, h₂⟩ := enqueue_spec ⟨message.stampSender sender, queued⟩ hc₁ hlen
  obtain ⟨o, hn, hk⟩ := hc₁
  have hlist := Ring.push_some hq
  refine ⟨(), _, h₂, ?_, .send (resolveHandle_ok.1 hheld) (peerOf_ok hpeer) hc.queues hp.places ?_ ?_ (fun ref q => ?_)
    (fun ref i => ?_)⟩
  · have hready : Sound core₁ (QueuedMessage.held ⟨message.stampSender sender, queued⟩ ++ []) := by
      rw [List.append_nil]
      exact hp.sound hsound
    exact hready.pushMessage hn.slot hk hq
  · rw [handles_updateObject, hp.handles]
  · rw [services_updateObject, hp.services]
  · rw [queues_updateQueue hn c queue, hlist, hp.sameObjects.queues]
  · rw [listens_updateQueue hn hk queue, hp.sameObjects.listens]

/-! ## Receiving -/

theorem frontMessage_ok (h : frontMessage ref core = .ok queued) :
    ∃ c, Endpoint core ref c ∧ c.queue.front = some queued := by
  obtain ⟨o, hn, h⟩ := resolveObject_bind h
  split at h
  · rename_i c hk
    split at h
    · rename_i queued' hq
      cases h
      exact ⟨c, ⟨o, hn, hk⟩, hq⟩
    · cases h
  · cases h

theorem popMessage_spec (hc : Endpoint core ref c) (hfront : c.queue.front = some queued) :
    ∃ queue, c.queue.pop .empty = some (queued, queue) ∧ popMessage ref core =
      (.ok queued, core.updateObject ref.slot fun slot => { slot with kind := .channel { c with queue } }) := by
  obtain ⟨o, hn, hk⟩ := hc
  rw [Ring.front_eq] at hfront
  cases hp : c.queue.pop .empty with
  | none =>
    rw [Ring.pop_eq_none.1 hp] at hfront
    cases hfront
  | some r =>
    obtain ⟨queued', queue⟩ := r
    rw [Ring.pop_some hp] at hfront
    cases hfront
    unfold popMessage
    simp [hn.slot, hk, hp]

variable {receiver : Identity} {transferred : Option Handle}

theorem adopt_spec (receiver : Identity) {transfer : Option QueuedTransfer}
    (hroom : transfer.isSome = true → 0 < core.freeHandleCount) (hs : Sound core (QueuedMessage.held ⟨.empty, transfer⟩)) :
    ∃ transferred core', adopt receiver transfer core = (.ok transferred, core') ∧
      Adopts core.handles receiver transfer transferred core'.handles ∧ SameObjects core core' ∧
      core'.services = core.services ∧ Sound core' [] := by
  cases transfer with
  | none => exact ⟨none, core, rfl, .nothing, ⟨fun _ _ => Iff.rfl, fun _ _ => Iff.rfl⟩, rfl, hs⟩
  | some transfer =>
    obtain ⟨handle, core₁, h₁, hi⟩ := installHandle_adopt receiver transfer.rights (hroom rfl)
      (hs.books.live transfer.object (.inr List.mem_cons_self))
    exact ⟨some handle, core₁, (bind_of_ok h₁).trans rfl, .handle hi.gains, hi.sameObjects, hi.services, hi.sound hs⟩

theorem receive_meets (hsound : Sound core []) (receiver : Identity) (endpoint : Handle) :
    Meets core (receive receiver endpoint) fun received core' =>
      Sound core' [] ∧ Effect core core' (.receive receiver endpoint) (.received received) := by
  refine meets_look fun held hheld => meets_look fun _ _ => meets_look fun front hfront => meets_guard fun hroom => ?_
  obtain ⟨c, hc, hf⟩ := frontMessage_ok hfront
  obtain ⟨queue, hq, h₁⟩ := popMessage_spec hc hf
  have hqueues := hc.queues
  rw [Ring.pop_some hq] at hqueues
  obtain ⟨o, hn, hk⟩ := hc
  have hpopped := hsound.popMessage hn.slot hk hq
  rw [List.append_nil] at hpopped
  have hfree : front.transfer.isSome = true → core.freeHandleCount ≠ 0 := by
    intro hsome
    simpa [hsome] using hroom
  obtain ⟨transferred, core₂, h₂, hadopts, hsame, hservices, hadopted⟩ := adopt_spec receiver (fun hsome => by
    simp only [freeHandleCount, handles_updateObject]
    exact Nat.pos_of_ne_zero (hfree hsome)) hpopped
  refine meets_of_ok ((bind_of_ok h₁).trans ((bind_of_ok h₂).trans rfl)) ?_
  rw [handles_updateObject] at hadopts
  refine ⟨hadopted, .receive (resolveHandle_ok.1 hheld) hqueues hadopts ?_ (fun ref q => ?_) (fun ref i => ?_)⟩
  · rw [hservices, services_updateObject]
  · rw [hsame.queues, queues_updateQueue hn c queue]
  · rw [hsame.listens, listens_updateQueue hn hk queue]

/-! ## Closing -/

theorem shrinks_vacate {slot : Nat} {handle : HandleSlot} (hfree : handle.occupied = false) :
    Shrinks core (core.updateHandle slot handle) where
  handles i held hs hocc := by
    rcases setIfInBounds_cases hs with ⟨-, rfl⟩ | hs
    · rw [hfree] at hocc
      cases hocc
    · exact hs
  queues ref queue := ((sameObjects_updateHandle handle).queues ref queue).1
  listens ref i := ((sameObjects_updateHandle handle).listens ref i).1
  services _ _ hs _ := hs

/-- Closing a handle leaves exact books and no leak, whatever cycles its object was part of. -/
theorem close_meets (hsound : Sound core []) (owner : Identity) (handle : Handle) :
    Meets core (close owner handle) fun _ core' => Good core' ∧ Shrinks core core' := by
  refine meets_look fun held hheld => meets_of_ok rfl ?_
  have hholds := resolveHandle_ok.1 hheld
  have hreleased := (hsound.vacate hholds.slot hholds.occupied .none).releaseObject
  refine ⟨⟨hreleased.collect, tidy_collect hreleased.shaped⟩, ?_⟩
  exact ((shrinks_vacate rfl).trans (shrinks_releaseAll _ _)).trans (shrinks_collect _)

theorem cleanupSlot_spec (select : Identity → Bool) (state : IpcCore H O × Nat) (slot : Nat) (h : Good state.1) :
    Good (cleanupSlot select state slot).1 ∧ Shrinks state.1 (cleanupSlot select state slot).1 := by
  unfold cleanupSlot
  split
  · exact ⟨h, .refl _⟩
  split
  · rename_i handle _ _
    split
    · rename_i core₁ hclose
      exact (close_meets h.sound handle.owner ⟨slot, handle.generation⟩).ok hclose
    rename_i e core₁ hclose
    obtain rfl : core₁ = state.1 :=
      (close_meets h.sound handle.owner ⟨slot, handle.generation⟩).atomicAt e core₁ hclose
    exact ⟨h, .refl _⟩
  · exact ⟨h, .refl _⟩

theorem cleanup_spec (select : Identity → Bool) (h : Good core) :
    Good (cleanup select core).2 ∧ Shrinks core (cleanup select core).2 := by
  have hfold : ∀ (slots : List Nat) (state : IpcCore H O × Nat), Good state.1 →
      Good (slots.foldl (cleanupSlot select) state).1 ∧ Shrinks state.1 (slots.foldl (cleanupSlot select) state).1 := by
    intro slots
    induction slots with
    | nil => exact fun state hs => ⟨hs, .refl _⟩
    | cons slot slots ih =>
      intro state hs
      obtain ⟨hgood, hshrinks⟩ := cleanupSlot_spec select state slot hs
      obtain ⟨hgood', hshrinks'⟩ := ih _ hgood
      exact ⟨hgood', hshrinks.trans hshrinks'⟩
  exact hfold (List.range H) (core, 0) h

/-! ## Nothing leaks -/

variable {slot : Nat}

theorem Adopts.keeps {handles handles' : Vector HandleSlot H} {transfer : Option QueuedTransfer} (h : Adopts handles receiver transfer transferred handles')
    {held : HandleSlot} (hs : handles[slot]? = some held) (hocc : held.occupied = true) : handles'[slot]? = some held := by
  cases h with
  | nothing => exact hs
  | handle gains => exact gains.keeps hs hocc

variable {entry : ServiceEntry} {connection : PendingConnection} {pending : PendingQueue}

theorem mem_held_push (hocc : entry.occupied = true) (h : entry.pending.push connection = some pending) :
    ref ∈ ServiceEntry.held { entry with pending } ↔ ref ∈ entry.held ∨ ref = connection.endpoint := by
  simp [ServiceEntry.held, hocc, Ring.push_some h]

theorem mem_held_pop (hocc : entry.occupied = true) (h : entry.pending.pop .empty = some (connection, pending)) :
    ref ∈ entry.held ↔ ref = connection.endpoint ∨ ref ∈ ServiceEntry.held { entry with pending } := by
  simp [ServiceEntry.held, hocc, Ring.pop_some h]

theorem services_set {i : Nat} {entry' e : ServiceEntry} (service : core.services[slot]? = some entry)
    (services : core'.services = core.services.setIfInBounds slot entry') (hs : core.services[i]? = some e) :
    i = slot ∧ e = entry ∧ core'.services[i]? = some entry' ∨ i ≠ slot ∧ core'.services[i]? = some e := by
  obtain ⟨hlt, -⟩ := Vector.getElem?_eq_some_iff.1 service
  rw [services]
  by_cases he : i = slot
  · subst he
    refine .inl ⟨rfl, Option.some.inj (hs.symm.trans service), ?_⟩
    simp [hlt]
  · refine .inr ⟨he, ?_⟩
    simp only [Vector.getElem?_setIfInBounds, Ne.symm he]
    exact hs

/-- A message more or less in one queue makes nothing live. -/
theorem live_of_queues {queue queue' q : List QueuedMessage} (before : core.Queues peer queue)
    (hq : if ref = peer then q = queue' else core.Queues ref q) : core.Live ref := by
  split at hq
  · rename_i e
    rw [e]
    exact before.live
  · exact hq.live

variable {call : Call} {reply : Reply}

/-- Whatever a call other than a giving back adds is reachable, and it cuts nothing off. -/
theorem Effect.tidy (he : Effect core core' call reply) (hcall : call.givesBack = false)
    (hsound : Sound core' []) (htidy : Tidy core) : Tidy core' := by
  cases he with
  | createChannel _ _ _ leftGain rightGain services queues listens =>
    refine hsound.tidy htidy (fun _ _ hs hocc => rightGain.keeps (leftGain.keeps hs hocc) hocc)
      (fun parent queue _ hq hr => .inr ⟨queue, (queues parent queue).2 (.inr hq), hr⟩) (fun parent slot => (listens parent slot).2)
      (fun _ _ _ hs hr => .inr ⟨_, services ▸ hs, hr⟩) (fun hold ref queue hq => ?_)
      fun hold ref slot hl => hold _ ((listens ref slot).1 hl).live
    rcases (queues ref queue).1 hq with ⟨rfl | rfl, -⟩ | hq
    · exact hsound.reaches_handle (rightGain.keeps leftGain.new rfl) rfl
    · exact hsound.reaches_handle rightGain.new rfl
    · exact hold _ hq.live
  | publish _ service unused gain services queues listens =>
    refine hsound.tidy htidy (fun _ _ => gain.keeps) (fun parent queue _ hq hr => .inr ⟨queue, (queues parent queue).2 hq, hr⟩)
      (fun parent slot hl => (listens parent slot).2 (.inr hl)) (fun slot e ref hs hr => ?_)
      (fun hold ref queue hq => hold _ ((queues ref queue).1 hq).live) fun hold ref slot hl => ?_
    · rcases services_set service services hs with ⟨-, rfl, -⟩ | ⟨-, hs⟩
      · -- nothing waits at a slot that is not in use
        simp [ServiceEntry.held, unused] at hr
      · exact .inr ⟨_, hs, hr⟩
    · rcases (listens ref slot).1 hl with ⟨rfl, -⟩ | hl
      · exact hsound.reaches_handle gain.new rfl
      · exact hold _ hl.live
  | connect leftNew rightNew service matched push gain services queues listens =>
    rename_i left right handle slot entry pending
    have hocc := occupied_of_nameMatches matched
    have hservice : core'.services[slot]? = some { entry with pending } := by
      rcases services_set service services service with ⟨-, -, h⟩ | ⟨h, -⟩
      · exact h
      · exact absurd rfl h
    refine hsound.tidy htidy (fun _ _ => gain.keeps)
      (fun parent queue _ hq hr => .inr ⟨queue, (queues parent queue).2 (.inr hq), hr⟩) (fun parent slot => (listens parent slot).2)
      (fun i e ref hs hr => ?_) (fun hold ref queue hq => ?_) fun hold ref slot hl => hold _ ((listens ref slot).1 hl).live
    · rcases services_set service services hs with ⟨rfl, rfl, hs⟩ | ⟨-, hs⟩
      · exact .inr ⟨_, hs, (mem_held_push hocc push).2 (.inl hr)⟩
      · exact .inr ⟨_, hs, hr⟩
    rcases (queues ref queue).1 hq with ⟨rfl | rfl, -⟩ | hq
    · exact hsound.reaches_handle gain.new rfl
    · -- the server's end waits at the service, whose listener was reachable before
      obtain ⟨listener, hlistens⟩ := hsound.shaped.listener slot ⟨_, hservice, hocc⟩
      have hreach := hold _ ((listens listener slot).1 hlistens).live
      exact hsound.reaches_pending hreach hlistens hservice ((mem_held_push hocc push).2 (.inr rfl))
    · exact hold _ hq.live
  | accept _ _ service occupied pop gain services queues listens =>
    refine hsound.tidy htidy (fun _ _ => gain.keeps) (fun parent queue _ hq hr => .inr ⟨queue, (queues parent queue).2 hq, hr⟩)
      (fun parent slot => (listens parent slot).2) (fun slot e ref hs hr => ?_)
      (fun hold ref queue hq => hold _ ((queues ref queue).1 hq).live)
      fun hold ref slot hl => hold _ ((listens ref slot).1 hl).live
    rcases services_set service services hs with ⟨rfl, rfl, hs⟩ | ⟨-, hs⟩
    · rcases (mem_held_pop occupied pop).1 hr with rfl | hr
      · exact .inl (hsound.reaches_handle gain.new rfl)
      · exact .inr ⟨_, hs, hr⟩
    · exact .inr ⟨_, hs, hr⟩
  | @send _ _ _ _ _ peer _ _ _ _ before _ handles services queues listens =>
    refine hsound.tidy htidy (fun _ _ hs _ => handles ▸ hs) (fun parent q ref hq hr => ?_)
      (fun parent slot => (listens parent slot).2) (fun _ _ _ hs hr => .inr ⟨_, services ▸ hs, hr⟩)
      (fun hold ref queue hq => hold _ (live_of_queues before ((queues ref queue).1 hq)))
      fun hold ref slot hl => hold _ ((listens ref slot).1 hl).live
    by_cases e : parent = peer
    · subst e
      rw [before.unique hq] at hr
      refine .inr ⟨_, (queues parent _).2 (by rw [if_pos rfl]), ?_⟩
      simp only [heldBy, List.filterMap_append, List.mem_append]
      exact .inl hr
    · exact .inr ⟨q, (queues parent q).2 (by rw [if_neg e]; exact hq), hr⟩
  | @receive _ _ held _ _ _ _ before adopts services queues listens =>
    refine hsound.tidy htidy (fun _ _ => adopts.keeps) (fun parent q ref hq hr => ?_)
      (fun parent slot => (listens parent slot).2) (fun _ _ _ hs hr => .inr ⟨_, services ▸ hs, hr⟩)
      (fun hold ref queue hq => hold _ (live_of_queues before ((queues ref queue).1 hq)))
      fun hold ref slot hl => hold _ ((listens ref slot).1 hl).live
    by_cases e : parent = held.object
    · subst e
      rw [before.unique hq] at hr
      obtain ⟨message, hm, transfer, ht, rfl⟩ := mem_heldBy.1 hr
      rcases List.mem_cons.1 hm with rfl | hm
      · -- what came with the message is now in a handle
        rw [ht] at adopts
        cases adopts with
        | handle gains => exact .inl (hsound.reaches_handle gains.new rfl)
      · exact .inr ⟨_, (queues held.object _).2 (by rw [if_pos rfl]), mem_heldBy.2 ⟨message, hm, transfer, ht, rfl⟩⟩
    · exact .inr ⟨q, (queues parent q).2 (by rw [if_neg e]; exact hq), hr⟩
  | giveBack kind shrinks =>
    rw [kind] at hcall
    cases hcall

/-! ## Every call -/

theorem act_meets (h : Good core) (call : Call) :
    Meets core call.act fun reply core' => Good core' ∧ Effect core core' call reply := by
  have grows {core' : IpcCore H O} {reply : Reply} (hcall : call.givesBack = false)
      (he : Sound core' [] ∧ Effect core core' call reply) : Good core' ∧ Effect core core' call reply :=
    ⟨⟨he.1, he.2.tidy hcall he.1 h.tidy⟩, he.2⟩
  cases call with
  | createChannel leftOwner leftRights rightOwner rightRights =>
    exact (createChannel_meets h leftOwner rightOwner leftRights rightRights).bind fun _ _ he => ⟨_, _, rfl, grows rfl he⟩
  | publish provider name => exact (publish_meets h provider name).bind fun _ _ he => ⟨_, _, rfl, grows rfl he⟩
  | connect client name => exact (connect_meets h client name).bind fun _ _ he => ⟨_, _, rfl, grows rfl he⟩
  | accept provider listener => exact (accept_meets h provider listener).bind fun _ _ he => ⟨_, _, rfl, grows rfl he⟩
  | unpublish provider listener =>
    exact (meets_look fun _ _ => meets_look fun _ _ => meets_look fun _ _ => close_meets h.sound provider listener).bind fun _ _ he => ⟨_, _, rfl, he.1, .giveBack rfl he.2⟩
  | send sender endpoint message transfer =>
    exact (send_meets h.sound sender endpoint message transfer).bind fun _ _ he => ⟨_, _, rfl, grows rfl he⟩
  | receive receiver endpoint =>
    exact (receive_meets h.sound receiver endpoint).bind fun _ _ he => ⟨_, _, rfl, grows rfl he⟩
  | close owner handle => exact (close_meets h.sound owner handle).bind fun _ _ he => ⟨_, _, rfl, he.1, .giveBack rfl he.2⟩
  | cleanupIdentity owner =>
    obtain ⟨hgood, hshrinks⟩ := cleanup_spec (· == owner) h
    exact meets_of_ok rfl ⟨hgood, .giveBack rfl hshrinks⟩
  | cleanupPid pid =>
    obtain ⟨hgood, hshrinks⟩ := cleanup_spec (·.pid == pid) h
    exact meets_of_ok rfl ⟨hgood, .giveBack rfl hshrinks⟩

theorem act_atomic (h : Good core) (call : Call) : AtomicAt core call.act := (act_meets h call).atomicAt

theorem act_ok (h : Good core) (hok : call.act core = (.ok reply, core')) : Good core' ∧ Effect core core' call reply :=
  (act_meets h call).ok hok

end MakOS.Ipc
