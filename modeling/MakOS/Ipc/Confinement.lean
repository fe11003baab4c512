/-
Capabilities are confined. How a process came to hold a handle is spelled out over the whole history of
calls: it was named as an owner of a new channel, it published, connected or accepted, or it received a
handle that some process with a transferable handle to the same object put into the message. Along the
way rights only shrink, down from those the object was created with.
-/
import MakOS.Ipc.Safety

namespace MakOS.Ipc

open Data Data.Act IpcCore

section History

variable (H O : Nat)

def after : List Call → IpcCore H O
  | [] => IpcCore.new
  | call :: past => (call.act (after past)).2

theorem reachable_after (past : List Call) : Reachable (after H O past) := by
  induction past with
  | nil => exact .new
  | cons call past ih => exact ih.step call

mutual

/-- The process came to hold a handle to the object, with these rights. -/
inductive Obtained : List Call → Identity → ObjectRef → Rights → Prop
  | created {past : List Call} {leftOwner rightOwner : Identity} {leftRights rightRights : Rights}
      {leftHandle rightHandle handle : Handle} {owner : Identity} {held : HandleSlot}
      (ok : (Call.act (.createChannel leftOwner leftRights rightOwner rightRights) (after H O past)).1 =
        .ok (.channel leftHandle rightHandle))
      (named : handle = leftHandle ∧ owner = leftOwner ∧ held.rights = leftRights ∨
        handle = rightHandle ∧ owner = rightOwner ∧ held.rights = rightRights)
      (holds : (after H O (.createChannel leftOwner leftRights rightOwner rightRights :: past)).Holds owner handle held)
      (new : ¬ (after H O past).Live held.object) :
      Obtained (.createChannel leftOwner leftRights rightOwner rightRights :: past) owner held.object held.rights
  | published {past : List Call} {provider : Identity} {name : List UInt8} {listener : Handle} {held : HandleSlot}
      (ok : (Call.act (.publish provider name) (after H O past)).1 = .ok (.handle listener))
      (holds : (after H O (.publish provider name :: past)).Holds provider listener held)
      (new : ¬ (after H O past).Live held.object) (rights : held.rights = .accept) :
      Obtained (.publish provider name :: past) provider held.object held.rights
  | connected {past : List Call} {client : Identity} {name : List UInt8} {handle : Handle} {held : HandleSlot}
      (ok : (Call.act (.connect client name) (after H O past)).1 = .ok (.handle handle))
      (holds : (after H O (.connect client name :: past)).Holds client handle held)
      (new : ¬ (after H O past).Live held.object) (rights : held.rights = .channelAll) :
      Obtained (.connect client name :: past) client held.object held.rights
  | accepted {past : List Call} {provider : Identity} {listener handle : Handle} {held : HandleSlot}
      (ok : (Call.act (.accept provider listener) (after H O past)).1 = .ok (.handle handle))
      (holds : (after H O (.accept provider listener :: past)).Holds provider handle held)
      (offered : Offered past held.object held.rights) :
      Obtained (.accept provider listener :: past) provider held.object held.rights
  | received {past : List Call} {receiver : Identity} {endpoint handle : Handle} {held source : HandleSlot}
      {message : WireMessage}
      (ok : (Call.act (.receive receiver endpoint) (after H O past)).1 = .ok (.received ⟨message, some handle⟩))
      (holds : (after H O (.receive receiver endpoint :: past)).Holds receiver handle held)
      (own : (after H O past).Holds receiver endpoint source) (placed : Placed past source.object ⟨held.object, held.rights⟩) :
      Obtained (.receive receiver endpoint :: past) receiver held.object held.rights
  | kept {past : List Call} {owner : Identity} {ref : ObjectRef} {rights : Rights} (h : Obtained past owner ref rights)
      (call : Call) (live : (after H O (call :: past)).Live ref) : Obtained (call :: past) owner ref rights

/-- A process put the transfer into a message for the endpoint: it held a handle to the object that it
might transfer, with at least these rights. -/
inductive Placed : List Call → ObjectRef → QueuedTransfer → Prop
  | sent {past : List Call} {sender : Identity} {endpoint : Handle} {message : WireMessage} {request : Transfer}
      {held source : HandleSlot} {peer : ObjectRef} {reply : Reply}
      (ok : (Call.act (.send sender endpoint message (some request)) (after H O past)).1 = .ok reply)
      (own : (after H O past).Holds sender endpoint held) (paired : (after H O past).Paired held.object peer)
      (holds : (after H O past).Holds sender request.handle source)
      (mayTransfer : source.rights.contains .transfer = true) (subset : source.rights.contains request.rights = true)
      (obtained : Obtained past sender source.object source.rights) :
      Placed (.send sender endpoint message (some request) :: past) peer ⟨source.object, request.rights⟩
  | kept {past : List Call} {endpoint : ObjectRef} {transfer : QueuedTransfer} (h : Placed past endpoint transfer)
      (call : Call) (open_ : (after H O (call :: past)).Live endpoint)
      (live : (after H O (call :: past)).Live transfer.object) : Placed (call :: past) endpoint transfer

/-- A client's `connect` made the endpoint, and it waits for the provider. -/
inductive Offered : List Call → ObjectRef → Rights → Prop
  | connected {past : List Call} {client : Identity} {name : List UInt8} {ref : ObjectRef} {reply : Reply}
      (ok : (Call.act (.connect client name) (after H O past)).1 = .ok reply) (new : ¬ (after H O past).Live ref)
      (live : (after H O (.connect client name :: past)).Live ref) : Offered (.connect client name :: past) ref .channelAll
  | kept {past : List Call} {ref : ObjectRef} {rights : Rights} (h : Offered past ref rights) (call : Call)
      (live : (after H O (call :: past)).Live ref) : Offered (call :: past) ref rights

end

/-- The rights an object was created or published with. -/
inductive Born : List Call → ObjectRef → Rights → Prop
  | created {past : List Call} {leftOwner rightOwner : Identity} {leftRights rightRights : Rights}
      {leftHandle rightHandle handle : Handle} {owner : Identity} {held : HandleSlot} {ref : ObjectRef}
      (ok : (Call.act (.createChannel leftOwner leftRights rightOwner rightRights) (after H O past)).1 =
        .ok (.channel leftHandle rightHandle))
      (named : handle = leftHandle ∧ owner = leftOwner ∧ held.rights = leftRights ∨
        handle = rightHandle ∧ owner = rightOwner ∧ held.rights = rightRights)
      (holds : (after H O (.createChannel leftOwner leftRights rightOwner rightRights :: past)).Holds owner handle held)
      (object : held.object = ref) (new : ¬ (after H O past).Live ref) :
      Born (.createChannel leftOwner leftRights rightOwner rightRights :: past) ref held.rights
  | published {past : List Call} {provider : Identity} {name : List UInt8} {ref : ObjectRef} {reply : Reply}
      (ok : (Call.act (.publish provider name) (after H O past)).1 = .ok reply) (new : ¬ (after H O past).Live ref)
      (live : (after H O (.publish provider name :: past)).Live ref) : Born (.publish provider name :: past) ref .accept
  | connected {past : List Call} {client : Identity} {name : List UInt8} {ref : ObjectRef} {reply : Reply}
      (ok : (Call.act (.connect client name) (after H O past)).1 = .ok reply) (new : ¬ (after H O past).Live ref)
      (live : (after H O (.connect client name :: past)).Live ref) : Born (.connect client name :: past) ref .channelAll
  | kept {past : List Call} {ref : ObjectRef} {rights : Rights} (h : Born past ref rights) (call : Call)
      (live : (after H O (call :: past)).Live ref) : Born (call :: past) ref rights

end History

/-! ## Rights -/

theorem Rights.contains_refl (rights : Rights) : rights.contains rights = true := by
  simp [Rights.contains]

theorem Rights.contains_trans {a b c : Rights} (h : a.contains b = true) (h' : b.contains c = true) :
    a.contains c = true := by
  simp only [Rights.contains, beq_iff_eq] at h h' ⊢
  rw [← h', ← UInt8.and_assoc, h]

section Confined

variable {H O : Nat} {past : List Call} {call : Call} {reply : Reply}

def Within (H O : Nat) (past : List Call) (ref : ObjectRef) (rights : Rights) : Prop :=
  ∃ birth, Born H O past ref birth ∧ birth.contains rights = true

variable {ref : ObjectRef} {rights : Rights}

theorem Within.kept (h : Within H O past ref rights) (call : Call)
    (live : (after H O (call :: past)).Live ref) : Within H O (call :: past) ref rights := by
  obtain ⟨birth, hborn, hsub⟩ := h
  exact ⟨birth, hborn.kept call live, hsub⟩

/-- Every handle, every queued transfer and every waiting connection has a history, and no more rights
than its object was created with. -/
structure Confined (H O : Nat) (past : List Call) : Prop where
  handles : ∀ (slot : Nat) held, (after H O past).handles[slot]? = some held → held.occupied = true →
    Obtained H O past held.owner held.object held.rights ∧ Within H O past held.object held.rights
  queued : ∀ endpoint queue message transfer, (after H O past).Queues endpoint queue → message ∈ queue →
    message.transfer = some transfer → Placed H O past endpoint transfer ∧ Within H O past transfer.object transfer.rights
  pending : ∀ (slot : Nat) entry connection, (after H O past).services[slot]? = some entry → entry.occupied = true →
    connection ∈ entry.pending.toList →
    Offered H O past connection.endpoint connection.rights ∧ Within H O past connection.endpoint connection.rights

variable {handle : Handle} {owner : Identity}

theorem Gains.holds {core : IpcCore H O} {handles : Vector HandleSlot H} (h : Gains handles handle owner ref rights core.handles) (hsound : Sound core []) :
    core.Holds owner handle ⟨handle.generation, true, owner, ref, rights⟩ :=
  ⟨h.new, rfl, rfl, rfl, hsound.books.live_handle h.new (by simp [HandleSlot.held])⟩

theorem IpcCore.Queues.live_transfer {core : IpcCore H O} {queue : List QueuedMessage} {message : QueuedMessage}
    {transfer : QueuedTransfer} (hq : core.Queues ref queue) (hsound : Sound core []) (hm : message ∈ queue)
    (ht : message.transfer = some transfer) : core.Live transfer.object := by
  obtain ⟨o, c, hn, hk, rfl⟩ := hq
  refine hsound.books.live_object hn.slot ?_
  simp only [ObjectSlot.held, hk]
  exact mem_heldBy.2 ⟨message, hm, transfer, ht, rfl⟩

/-! ## One call -/

section Step

variable {slot : Nat} {held : HandleSlot} (h : Confined H O past) (hgood : Good (after H O (call :: past)))
  (hok : (call.act (after H O past)).1 = .ok reply) (he : Effect (after H O past) (after H O (call :: past)) call reply)

include h hgood hok he

theorem handles_step (hs : (after H O (call :: past)).handles[slot]? = some held) (hocc : held.occupied = true) :
    Obtained H O (call :: past) held.owner held.object held.rights ∧ Within H O (call :: past) held.object held.rights := by
  have hlive : (after H O (call :: past)).Live held.object :=
    hgood.sound.books.live_handle hs (by simp [HandleSlot.held, hocc])
  have hkept := fun hold => (h.handles slot held hold hocc).imp (·.kept call hlive) (·.kept call hlive)
  cases he with
  | createChannel leftNew rightNew _ leftGain rightGain =>
    have hright := rightGain.holds hgood.sound
    rcases rightGain.cases hs with ⟨-, rfl⟩ | hs
    · exact ⟨.created hok (.inr ⟨rfl, rfl, rfl⟩) hright rightNew,
        _, .created hok (.inr ⟨rfl, rfl, rfl⟩) hright rfl rightNew, Rights.contains_refl _⟩
    rcases leftGain.cases hs with ⟨-, rfl⟩ | hs
    · have hleft := (⟨rightGain.keeps leftGain.new rfl, rfl, rfl, rfl, hlive⟩ :
        (after H O (_ :: past)).Holds _ _ _)
      exact ⟨.created hok (.inl ⟨rfl, rfl, rfl⟩) hleft leftNew,
        _, .created hok (.inl ⟨rfl, rfl, rfl⟩) hleft rfl leftNew, Rights.contains_refl _⟩
    · exact hkept hs
  | publish new _ _ gain =>
    rcases gain.cases hs with ⟨-, rfl⟩ | hs
    · exact ⟨.published hok (gain.holds hgood.sound) new rfl, .accept, .published hok new hlive, Rights.contains_refl _⟩
    · exact hkept hs
  | connect leftNew _ _ _ _ gain =>
    rcases gain.cases hs with ⟨-, rfl⟩ | hs
    · exact ⟨.connected hok (gain.holds hgood.sound) leftNew rfl,
        .channelAll, .connected hok leftNew hlive, Rights.contains_refl _⟩
    · exact hkept hs
  | accept _ _ service occupied pop gain =>
    rcases gain.cases hs with ⟨-, rfl⟩ | hs
    · obtain ⟨hoffered, hwithin⟩ := h.pending _ _ _ service occupied (by rw [Ring.pop_some pop]; exact List.mem_cons_self)
      exact ⟨.accepted hok (gain.holds hgood.sound) hoffered, hwithin.kept _ hlive⟩
    · exact hkept hs
  | send _ _ _ _ handles =>
    rw [handles] at hs
    exact hkept hs
  | receive holds before adopts =>
    rename_i queued rest transferred _ _ _
    cases htransfer : queued.transfer with
    | none =>
      rw [htransfer] at adopts
      generalize hafter : (after H O (_ :: past)).handles = handles' at adopts
      cases adopts with
      | nothing =>
        rw [hafter] at hs
        exact hkept hs
    | some transfer =>
      rw [htransfer] at adopts
      cases adopts with
      | handle gains =>
        rcases gains.cases hs with ⟨-, rfl⟩ | hs
        · obtain ⟨hplaced, hwithin⟩ := h.queued _ _ _ transfer before List.mem_cons_self htransfer
          exact ⟨.received hok (gains.holds hgood.sound) holds hplaced, hwithin.kept _ hlive⟩
        · exact hkept hs
  | giveBack kind shrinks => exact hkept (shrinks.handles slot held hs hocc)

theorem queued_step {endpoint : ObjectRef} {queue : List QueuedMessage} {message : QueuedMessage} {transfer : QueuedTransfer} (hq : (after H O (call :: past)).Queues endpoint queue)
    (hm : message ∈ queue) (ht : message.transfer = some transfer) :
    Placed H O (call :: past) endpoint transfer ∧ Within H O (call :: past) transfer.object transfer.rights := by
  have hlive := hq.live_transfer hgood.sound hm ht
  have hkept := fun queue' hold hm' =>
    (h.queued endpoint queue' message transfer hold hm' ht).imp (·.kept call hq.live hlive) (·.kept call hlive)
  cases he with
  | createChannel _ _ _ _ _ _ queues | connect _ _ _ _ _ _ _ queues =>
    rcases (queues endpoint queue).1 hq with ⟨-, rfl⟩ | hold
    · exact absurd hm List.not_mem_nil
    · exact hkept queue hold hm
  | publish _ _ _ _ _ queues | accept _ _ _ _ _ _ _ queues => exact hkept queue ((queues endpoint queue).1 hq) hm
  | send holds paired before places _ _ queues =>
    have hafter := (queues endpoint queue).1 hq
    split at hafter
    · rename_i e
      subst e hafter
      rcases List.mem_append.1 hm with hm | hm
      · exact hkept _ before hm
      rw [List.mem_singleton.1 hm] at ht
      subst ht
      cases places with
      | handle source mayTransfer subset =>
        obtain ⟨hobtained, hwithin⟩ := h.handles _ _ source.slot source.occupied
        rw [source.owner] at hobtained
        refine ⟨.sent hok holds paired source mayTransfer subset hobtained, ?_⟩
        obtain ⟨birth, hborn, hsub⟩ := hwithin
        exact ⟨birth, hborn.kept _ hlive, Rights.contains_trans hsub subset⟩
    · exact hkept queue hafter hm
  | receive _ before _ _ queues =>
    have hafter := (queues endpoint queue).1 hq
    split at hafter
    · rename_i e
      subst e hafter
      exact hkept _ before (List.mem_cons_of_mem _ hm)
    · exact hkept queue hafter hm
  | giveBack kind shrinks => exact hkept queue (shrinks.queues endpoint queue hq) hm

theorem pending_step {entry : ServiceEntry} {connection : PendingConnection}
    (hs : (after H O (call :: past)).services[slot]? = some entry) (hocc : entry.occupied = true) (hc : connection ∈ entry.pending.toList) :
    Offered H O (call :: past) connection.endpoint connection.rights ∧
      Within H O (call :: past) connection.endpoint connection.rights := by
  have hlive : (after H O (call :: past)).Live connection.endpoint := by
    refine hgood.sound.books.live_service hs ?_
    rw [ServiceEntry.held, if_pos hocc]
    exact List.mem_map_of_mem hc
  have hkept := fun entry' hold hocc' hc' =>
    (h.pending slot entry' connection hold hocc' hc').imp (·.kept call hlive) (·.kept call hlive)
  cases he with
  | createChannel _ _ _ _ _ services | send _ _ _ _ _ services | receive _ _ _ services =>
    rw [services] at hs
    exact hkept entry hs hocc hc
  | publish _ _ _ _ services =>
    rcases setIfInBounds_cases (services ▸ hs) with ⟨-, rfl⟩ | hs
    · simp [PendingQueue.empty] at hc
    · exact hkept entry hs hocc hc
  | connect _ rightNew service _ push _ services =>
    rcases setIfInBounds_cases (services ▸ hs) with ⟨rfl, rfl⟩ | hs
    · rw [Ring.push_some push, List.mem_append, List.mem_singleton] at hc
      rcases hc with hc | rfl
      · exact hkept _ service hocc hc
      · exact ⟨.connected hok rightNew hlive, .channelAll, .connected hok rightNew hlive, Rights.contains_refl _⟩
    · exact hkept entry hs hocc hc
  | accept _ _ service _ pop _ services =>
    rcases setIfInBounds_cases (services ▸ hs) with ⟨rfl, rfl⟩ | hs
    · refine hkept _ service hocc ?_
      rw [Ring.pop_some pop]
      exact List.mem_cons_of_mem _ hc
    · exact hkept entry hs hocc hc
  | giveBack kind shrinks => exact hkept entry (shrinks.services slot entry hs hocc) hocc hc

end Step

/-! ## Every history -/

theorem confined_new : Confined H O [] where
  handles slot held hs hocc := by
    simp only [after, IpcCore.new, Vector.getElem?_replicate] at hs
    split at hs
    · cases hs
      cases hocc
    · cases hs
  queued endpoint queue message transfer hq := absurd hq.live (not_live_new endpoint)
  pending slot entry connection hs hocc := by
    simp only [after, IpcCore.new, Vector.getElem?_replicate] at hs
    split at hs
    · cases hs
      cases hocc
    · cases hs

theorem Confined.idle (h : Confined H O past) (hgood : Good (after H O (call :: past)))
    (hsame : after H O (call :: past) = after H O past) : Confined H O (call :: past) where
  handles slot held hs hocc := by
    have hlive := hgood.sound.books.live_handle hs (by simp [HandleSlot.held, hocc] : held.object ∈ held.held)
    exact (h.handles slot held (hsame ▸ hs) hocc).imp (·.kept call hlive) (·.kept call hlive)
  queued endpoint queue message transfer hq hm ht := by
    have hlive := hq.live_transfer hgood.sound hm ht
    exact (h.queued endpoint queue message transfer (hsame ▸ hq) hm ht).imp (·.kept call hq.live hlive) (·.kept call hlive)
  pending slot entry connection hs hocc hc := by
    have hlive : (after H O (call :: past)).Live connection.endpoint := by
      refine hgood.sound.books.live_service hs ?_
      rw [ServiceEntry.held, if_pos hocc]
      exact List.mem_map_of_mem hc
    exact (h.pending slot entry connection (hsame ▸ hs) hocc hc).imp (·.kept call hlive) (·.kept call hlive)

theorem confined_step (h : Confined H O past) (call : Call) : Confined H O (call :: past) := by
  have hgood := (reachable_after H O past).good
  have hgood' := (reachable_after H O (call :: past)).good
  rcases hr : call.act (after H O past) with ⟨e | reply, core'⟩
  · have hsame := act_atomic hgood call e core' hr
    refine h.idle hgood' ?_
    rw [after, hr]
    exact hsame
  have heffect := (act_ok hgood hr).2
  have hafter : after H O (call :: past) = core' := by rw [after, hr]
  rw [← hafter] at heffect
  have hok : (call.act (after H O past)).1 = .ok reply := by rw [hr]
  exact ⟨fun _ _ hs hocc => handles_step h hgood' hok heffect hs hocc,
    fun _ _ _ _ hq hm ht => queued_step h hgood' hok heffect hq hm ht,
    fun _ _ _ hs hocc hc => pending_step h hgood' hok heffect hs hocc hc⟩

theorem confined (H O : Nat) (past : List Call) : Confined H O past := by
  induction past with
  | nil => exact confined_new
  | cons call past ih => exact confined_step ih call

/-! ## The rights at birth are one thing -/

variable {birth : Rights}

theorem Born.live (h : Born H O past ref birth) : (after H O past).Live ref := by
  cases h with
  | created _ _ holds object _ => exact object ▸ holds.live
  | published _ _ live | connected _ _ live | kept _ _ live => exact live

theorem created_unique {leftOwner rightOwner owner' : Identity} {leftRights rightRights : Rights}
    {leftHandle rightHandle handle' : Handle} {held' : HandleSlot}
    (create : call = .createChannel leftOwner leftRights rightOwner rightRights)
    (ok : (call.act (after H O past)).1 = .ok (.channel leftHandle rightHandle))
    (named : handle = leftHandle ∧ owner = leftOwner ∧ held.rights = leftRights ∨
      handle = rightHandle ∧ owner = rightOwner ∧ held.rights = rightRights)
    (named' : handle' = leftHandle ∧ owner' = leftOwner ∧ held'.rights = leftRights ∨
      handle' = rightHandle ∧ owner' = rightOwner ∧ held'.rights = rightRights)
    (holds : (after H O (call :: past)).Holds owner handle held)
    (holds' : (after H O (call :: past)).Holds owner' handle' held')
    (same : held.object = held'.object) : held.rights = held'.rights := by
  have hact : call.act (after H O past) = (.ok (.channel leftHandle rightHandle), after H O (call :: past)) := Prod.ext ok rfl
  obtain ⟨-, heffect⟩ := act_ok (reachable_after H O past).good hact
  subst create
  cases heffect with
  | createChannel _ _ apart leftGain rightGain =>
    have hleft := rightGain.keeps leftGain.new rfl
    have hright := rightGain.new
    rcases named with ⟨rfl, rfl, hrights⟩ | ⟨rfl, rfl, hrights⟩
    · rcases named' with ⟨rfl, rfl, hrights'⟩ | ⟨rfl, rfl, hrights'⟩
      · rw [hrights, hrights']
      · rw [← Option.some.inj (hleft.symm.trans holds.slot), ← Option.some.inj (hright.symm.trans holds'.slot)] at same
        exact absurd same apart
    rcases named' with ⟨rfl, rfl, hrights'⟩ | ⟨rfl, rfl, hrights'⟩
    · rw [← Option.some.inj (hright.symm.trans holds.slot), ← Option.some.inj (hleft.symm.trans holds'.slot)] at same
      exact absurd same.symm apart
    · rw [hrights, hrights']
  | giveBack kind shrinks => cases kind

theorem Born.unique {birth' : Rights} (h : Born H O past ref birth) (h' : Born H O past ref birth') : birth' = birth := by
  induction past generalizing birth birth' with
  | nil => cases h
  | cons call past ih =>
    cases h with
    | created ok named holds object new =>
      cases h' with
      | created ok' named' holds' object' new' =>
        cases ok.symm.trans ok'
        exact (created_unique rfl ok named named' holds holds' (object.trans object'.symm)).symm
      | kept h' _ _ => exact absurd h'.live new
    | published ok new live =>
      cases h' with
      | published _ _ _ => rfl
      | kept h' _ _ => exact absurd h'.live new
    | connected ok new live =>
      cases h' with
      | connected _ _ _ => rfl
      | kept h' _ _ => exact absurd h'.live new
    | kept h _ _ =>
      cases h' with
      | created _ _ _ object' new' | published _ new' _ | connected _ new' _ => exact absurd h.live new'
      | kept h' _ _ => exact ih h h'

/-- Whoever holds a handle came to hold it by a `create_channel` that named it as an owner, by its own
`publish`, `connect` or `accept`, or by receiving it from a process that held a transferable handle to
the object with at least these rights; and the object was created or published with at least these rights. -/
theorem handles_are_confined (H O : Nat) (past : List Call) (slot : Nat) (held : HandleSlot)
    (hs : (after H O past).handles[slot]? = some held) (hocc : held.occupied = true) :
    Obtained H O past held.owner held.object held.rights ∧ (∃ birth, Born H O past held.object birth) ∧
      ∀ birth, Born H O past held.object birth → birth.contains held.rights = true := by
  obtain ⟨hobtained, birth, hborn, hsub⟩ := (confined H O past).handles slot held hs hocc
  exact ⟨hobtained, ⟨birth, hborn⟩, fun birth' hborn' => hborn.unique hborn' ▸ hsub⟩

theorem handles_are_confined_of_publish :
    Obtained 2 2 [.publish ⟨1, 10, 100⟩ [109]] ⟨1, 10, 100⟩ ⟨0, 1⟩ .accept ∧
      (∃ birth, Born 2 2 [.publish ⟨1, 10, 100⟩ [109]] ⟨0, 1⟩ birth) ∧
      ∀ birth, Born 2 2 [.publish ⟨1, 10, 100⟩ [109]] ⟨0, 1⟩ birth → birth.contains .accept = true :=
  handles_are_confined 2 2 [.publish ⟨1, 10, 100⟩ [109]] 0 ⟨1, true, ⟨1, 10, 100⟩, ⟨0, 1⟩, .accept⟩ rfl rfl

/-- A process that did nothing but publish holds a handle, and so does one for a handle it sent to
itself. -/
theorem handle_without_channel_or_other_process :
    (after 2 2 [.publish ⟨1, 10, 100⟩ [109]]).Holds ⟨1, 10, 100⟩ ⟨0, 1⟩ ⟨1, true, ⟨1, 10, 100⟩, ⟨0, 1⟩, .accept⟩ ∧
    (Call.act (.receive ⟨1, 10, 100⟩ ⟨1, 1⟩) (after 3 2 [.send ⟨1, 10, 100⟩ ⟨0, 1⟩ .empty (some ⟨⟨0, 1⟩, .send⟩),
      .createChannel ⟨1, 10, 100⟩ .channelAll ⟨1, 10, 100⟩ .channelAll])).1 =
        .ok (.received ⟨WireMessage.empty.stampSender ⟨1, 10, 100⟩, some ⟨2, 1⟩⟩) :=
  ⟨⟨rfl, rfl, rfl, rfl, _, rfl, rfl, rfl⟩, rfl⟩

end Confined

end MakOS.Ipc
