/-
Channels deliver in order. For an endpoint that stays open, what was queued at it and what the sends
put into it are together what the receives took out of it and what is still queued: nothing is lost,
duplicated or reordered, by any interleaving of any calls of any processes, failing ones included.
-/
import MakOS.Ipc.Safety

namespace MakOS.Ipc

open Data Data.Act IpcCore

variable {H O : Nat} {core core' : IpcCore H O} {endpoint : ObjectRef}

/-! ## What is sent and what is received -/

/-- The object and the rights that the handle of a requested transfer stands for. -/
def transferOf (core : IpcCore H O) (sender : Identity) (transfer : Option Transfer) : Option QueuedTransfer :=
  transfer.bind fun request =>
    match core.resolveHandle sender request.handle with
    | .ok source => some ⟨source.object, request.rights⟩
    | .error _ => none

/-- The object and the rights of a handle that came with a message. -/
def transferredTo (core : IpcCore H O) (receiver : Identity) (transferred : Option Handle) : Option QueuedTransfer :=
  transferred.bind fun handle =>
    match core.resolveHandle receiver handle with
    | .ok held => some ⟨held.object, held.rights⟩
    | .error _ => none

/-- The message a call has accepted for an endpoint: that of a successful `send` on its peer, with the
identity of the sender. -/
def sentTo (endpoint : ObjectRef) (core : IpcCore H O) (call : Call) : List QueuedMessage :=
  match call, (call.act core).1 with
  | .send sender handle message transfer, .ok _ =>
    match core.resolveHandle sender handle with
    | .ok held =>
      if peerOf held.object core = .ok endpoint then [⟨message.stampSender sender, transferOf core sender transfer⟩] else []
    | .error _ => []
  | _, _ => []

/-- The message a call has returned from an endpoint: that of a successful `receive` on it, with what
the receiver's new handle stands for. -/
def receivedFrom (endpoint : ObjectRef) (core : IpcCore H O) (call : Call) : List QueuedMessage :=
  match call, call.act core with
  | .receive receiver handle, (.ok (.received received), core') =>
    match core.resolveHandle receiver handle with
    | .ok held =>
      if held.object = endpoint then [⟨received.message, transferredTo core' receiver received.transferred⟩] else []
    | .error _ => []
  | _, _ => []

def run (core : IpcCore H O) (calls : List Call) : IpcCore H O := calls.foldl (fun core call => (call.act core).2) core

def sentDuring (endpoint : ObjectRef) : IpcCore H O → List Call → List QueuedMessage
  | _, [] => []
  | core, call :: calls => sentTo endpoint core call ++ sentDuring endpoint (call.act core).2 calls

def receivedDuring (endpoint : ObjectRef) : IpcCore H O → List Call → List QueuedMessage
  | _, [] => []
  | core, call :: calls => receivedFrom endpoint core call ++ receivedDuring endpoint (call.act core).2 calls

def Stays (endpoint : ObjectRef) : IpcCore H O → List Call → Prop
  | core, [] => core.Live endpoint
  | core, call :: calls => core.Live endpoint ∧ Stays endpoint (call.act core).2 calls

theorem Stays.live {calls : List Call} (h : Stays endpoint core calls) : core.Live endpoint := by
  cases calls with
  | nil => exact h
  | cons call calls => exact h.1

/-! ## One call -/

variable {call : Call} {e : Error}

theorem sentTo_error (h : call.act core = (.error e, core')) : sentTo endpoint core call = [] := by
  unfold sentTo
  split <;> simp_all

theorem receivedFrom_error (h : call.act core = (.error e, core')) : receivedFrom endpoint core call = [] := by
  unfold receivedFrom
  split <;> simp_all

theorem sentTo_other (h : ∀ sender handle message transfer, call ≠ .send sender handle message transfer) :
    sentTo endpoint core call = [] := by
  unfold sentTo
  split
  · exact absurd rfl (h _ _ _ _)
  · rfl

theorem receivedFrom_other (h : ∀ receiver handle, call ≠ .receive receiver handle) :
    receivedFrom endpoint core call = [] := by
  unfold receivedFrom
  split
  · exact absurd rfl (h _ _)
  · rfl

variable {peer : ObjectRef}

variable {sender : Identity} {transfer : Option Transfer} {queued : Option QueuedTransfer}

theorem Places.transferOf_eq (h : Places core sender transfer queued) : transferOf core sender transfer = queued := by
  cases h with
  | nothing => rfl
  | handle holds mayTransfer subset =>
    simp [transferOf, resolveHandle_ok.2 holds]

variable {receiver : Identity} {transferred : Option Handle} {handles : Vector HandleSlot H}

theorem Adopts.transferredTo_eq {transfer : Option QueuedTransfer} (h : Adopts handles receiver transfer transferred core'.handles)
    (hsound : Sound core' []) : transferredTo core' receiver transferred = transfer := by
  cases h with
  | nothing => rfl
  | handle gains =>
    rename_i transfer handle
    have hholds : core'.Holds receiver handle ⟨handle.generation, true, receiver, transfer.object, transfer.rights⟩ :=
      ⟨gains.new, rfl, rfl, rfl, hsound.books.live_handle gains.new (by simp [HandleSlot.held])⟩
    simp [transferredTo, resolveHandle_ok.2 hholds]

variable {handle : Handle} {held : HandleSlot}

variable {queue : List QueuedMessage}

theorem delivers_step (h : Good core) (call : Call) (hq : core.Queues endpoint queue)
    (hlive : (call.act core).2.Live endpoint) : ∃ queue', (call.act core).2.Queues endpoint queue' ∧
      queue ++ sentTo endpoint core call = receivedFrom endpoint core call ++ queue' := by
  rcases hr : call.act core with ⟨e | reply, core'⟩
  · rw [sentTo_error hr, receivedFrom_error hr, act_atomic h call e core' hr]
    exact ⟨queue, hq, by simp⟩
  rw [hr] at hlive
  obtain ⟨hgood, heffect⟩ := act_ok h hr
  cases heffect with
  | createChannel leftNew rightNew apart leftGain rightGain services queues listens
  | connect leftNew rightNew service matched push gain services queues listens =>
    rw [sentTo_other (by simp), receivedFrom_other (by simp)]
    exact ⟨queue, (queues endpoint queue).2 (.inr hq), by simp⟩
  | publish new service unused gain services queues listens
  | accept holds listening service occupied pop gain services queues listens =>
    rw [sentTo_other (by simp), receivedFrom_other (by simp)]
    exact ⟨queue, (queues endpoint queue).2 hq, by simp⟩
  | send holds paired before places handles services queues listens =>
    rename_i held peer before_ queued
    have hpeer : peerOf held.object core = .ok peer := by
      obtain ⟨o, c, hn, hk, hp⟩ := paired
      simp [peerOf, resolveObject_ok.2 hn, bind, Except.bind, hk, hp]
    rw [receivedFrom_other (by simp)]
    simp only [sentTo, hr, resolveHandle_ok.2 holds, hpeer, places.transferOf_eq, Except.ok.injEq]
    by_cases e : peer = endpoint
    · subst e
      rw [before.unique hq]
      exact ⟨before_ ++ [_], (queues peer _).2 (by rw [if_pos rfl]), by simp⟩
    · rw [if_neg e]
      exact ⟨queue, (queues endpoint queue).2 (by rw [if_neg (Ne.symm e)]; exact hq), by simp⟩
  | receive holds before adopts services queues listens =>
    rename_i held queued rest transferred
    rw [sentTo_other (by simp)]
    simp only [receivedFrom, hr, resolveHandle_ok.2 holds, adopts.transferredTo_eq hgood.sound]
    by_cases e : held.object = endpoint
    · subst e
      rw [before.unique hq]
      exact ⟨rest, (queues held.object rest).2 (by rw [if_pos rfl]), by simp⟩
    · rw [if_neg e]
      exact ⟨queue, (queues endpoint queue).2 (by rw [if_neg (Ne.symm e)]; exact hq), by simp⟩
  | giveBack kind shrinks =>
    have hsent : sentTo endpoint core call = [] := sentTo_other (by rintro _ _ _ _ rfl; cases kind)
    have hreceived : receivedFrom endpoint core call = [] := receivedFrom_other (by rintro _ _ rfl; cases kind)
    rw [hsent, hreceived]
    -- an endpoint that is still open has what it had
    rcases live_iff.1 hlive with ⟨queue', hq'⟩ | ⟨slot, hl⟩
    · refine ⟨queue', hq', ?_⟩
      rw [hq.unique (shrinks.queues endpoint queue' hq')]
      simp
    obtain ⟨o, hn, hk⟩ := shrinks.listens endpoint slot hl
    obtain ⟨o', c, hn', hk', -⟩ := hq
    rw [hn.unique hn', hk] at hk'
    cases hk'

/-! ## Any calls -/

theorem delivers_run (h : Good core) (calls : List Call) (hq : core.Queues endpoint queue)
    (hstays : Stays endpoint core calls) : ∃ queue', (run core calls).Queues endpoint queue' ∧
      queue ++ sentDuring endpoint core calls = receivedDuring endpoint core calls ++ queue' := by
  induction calls generalizing core queue with
  | nil => exact ⟨queue, hq, by simp [sentDuring, receivedDuring]⟩
  | cons call calls ih =>
    obtain ⟨queue₁, hq₁, hstep⟩ := delivers_step h call hq hstays.2.live
    obtain ⟨queue', hq', hrest⟩ := ih (good_step h call) hq₁ hstays.2
    refine ⟨queue', hq', ?_⟩
    rw [sentDuring, receivedDuring, ← List.append_assoc, hstep, List.append_assoc, hrest, List.append_assoc]

theorem queue_of_new (h : Good core) (call : Call) (hnew : ¬ core.Live endpoint)
    (hq : (call.act core).2.Queues endpoint queue) : queue = [] := by
  have hold : ∀ queue, ¬ core.Queues endpoint queue := fun queue hq => hnew hq.live
  rcases hr : call.act core with ⟨e | reply, core'⟩
  · rw [hr, act_atomic h call e core' hr] at hq
    exact absurd hq (hold queue)
  rw [hr] at hq
  obtain ⟨hgood, heffect⟩ := act_ok h hr
  cases heffect with
  | createChannel leftNew rightNew apart leftGain rightGain services queues listens
  | connect leftNew rightNew service matched push gain services queues listens =>
    rcases (queues endpoint queue).1 hq with ⟨-, e⟩ | hq
    · exact e
    · exact absurd hq (hold queue)
  | publish new service unused gain services queues listens => exact absurd ((queues endpoint queue).1 hq) (hold queue)
  | accept holds listening service occupied pop gain services queues listens =>
    exact absurd ((queues endpoint queue).1 hq) (hold queue)
  | send holds paired before places handles services queues listens
  | receive holds before adopts services queues listens =>
    have := (queues endpoint queue).1 hq
    split at this
    · rename_i e
      exact absurd (e ▸ before) (hold _)
    · exact absurd this (hold queue)
  | giveBack kind shrinks => exact absurd (shrinks.queues endpoint queue hq) (hold queue)

theorem reachable_run (h : Reachable core) (calls : List Call) : Reachable (run core calls) := by
  induction calls generalizing core with
  | nil => exact h
  | cons call calls ih => exact ih (h.step call)

/-- From the call that opens an endpoint on, for as long as it stays open, the messages received from it
are in order a prefix of the messages accepted for it, the rest is still queued, and a call that fails
leaves everything as it is. -/
theorem received_prefix_of_sent (h : Reachable core) (opening : Call) (hnew : ¬ core.Live endpoint)
    (hopen : ∃ queue, (opening.act core).2.Queues endpoint queue) (calls : List Call)
    (hstays : Stays endpoint (opening.act core).2 calls) :
    receivedDuring endpoint (opening.act core).2 calls <+: sentDuring endpoint (opening.act core).2 calls ∧
    (∃ queue, (run (opening.act core).2 calls).Queues endpoint queue ∧
      receivedDuring endpoint (opening.act core).2 calls ++ queue = sentDuring endpoint (opening.act core).2 calls) ∧
    ∀ call e, (Call.act call (run (opening.act core).2 calls)).1 = .error e →
      (call.act (run (opening.act core).2 calls)).2 = run (opening.act core).2 calls := by
  have hafter := h.step opening
  obtain ⟨queue, hq⟩ := hopen
  obtain rfl := queue_of_new h.good opening hnew hq
  obtain ⟨queue', hq', hbalance⟩ := delivers_run hafter.good calls hq hstays
  refine ⟨⟨queue', hbalance.symm⟩, ⟨queue', hq', hbalance.symm⟩, fun call e herr => ?_⟩
  exact act_atomic (reachable_run hafter calls).good call e _ (Prod.ext herr rfl)

theorem received_prefix_of_sent_once :
    receivedDuring ⟨1, 1⟩ (Call.act (.createChannel ⟨1, 10, 100⟩ .channelAll ⟨2, 10, 100⟩ .channelAll)
      (IpcCore.new : IpcCore 2 2)).2 [.send ⟨1, 10, 100⟩ ⟨0, 1⟩ .empty none, .receive ⟨2, 10, 100⟩ ⟨1, 1⟩] ≠ [] ∧
    receivedDuring ⟨1, 1⟩ (Call.act (.createChannel ⟨1, 10, 100⟩ .channelAll ⟨2, 10, 100⟩ .channelAll)
      (IpcCore.new : IpcCore 2 2)).2 [.send ⟨1, 10, 100⟩ ⟨0, 1⟩ .empty none, .receive ⟨2, 10, 100⟩ ⟨1, 1⟩] <+:
    sentDuring ⟨1, 1⟩ (Call.act (.createChannel ⟨1, 10, 100⟩ .channelAll ⟨2, 10, 100⟩ .channelAll)
      (IpcCore.new : IpcCore 2 2)).2 [.send ⟨1, 10, 100⟩ ⟨0, 1⟩ .empty none, .receive ⟨2, 10, 100⟩ ⟨1, 1⟩] := by
  refine ⟨by decide, (received_prefix_of_sent .new _ (not_live_new _) ?_ _ ?_).1⟩
  · exact ⟨[], _, _, ⟨rfl, rfl, rfl⟩, rfl, rfl⟩
  · refine ⟨objectRefIsLive_iff.1 ?_, objectRefIsLive_iff.1 ?_, objectRefIsLive_iff.1 ?_⟩ <;> decide

end MakOS.Ipc
