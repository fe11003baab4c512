/-
How IPC objects die. `release_object` gives one reference back and frees the object with its last
one, which gives back whatever the object held in turn; `collect_unreachable_objects` frees what no
handle leads to any more, cycles of queued handles included, and counts all references afresh.
-/
import MakOS.Data.Count
import MakOS.Ipc.Core

namespace MakOS.Ipc

open Data

variable {H O : Nat}

/-! ## What an object holds -/

def QueuedMessage.held (queued : QueuedMessage) : List ObjectRef := (queued.transfer.map (·.object)).toList

namespace ChannelObject

def held (channel : ChannelObject) : List ObjectRef :=
  channel.queue.toList.filterMap fun message => message.transfer.map (·.object)

end ChannelObject

namespace ServiceEntry

def held (entry : ServiceEntry) : List ObjectRef :=
  if entry.occupied then entry.pending.toList.map (·.endpoint) else []

end ServiceEntry

namespace HandleSlot

def held (handle : HandleSlot) : List ObjectRef := if handle.occupied then [handle.object] else []

end HandleSlot

namespace ObjectSlot

def held (object : ObjectSlot) : List ObjectRef :=
  match object.kind with
  | .channel channel => channel.held
  | _ => []

def registrySlot? (object : ObjectSlot) : Option Nat :=
  match object.kind with
  | .service registrySlot => some registrySlot
  | _ => none

end ObjectSlot

namespace IpcCore

/-- What the registry holds for a service. -/
def heldByService (core : IpcCore H O) (registrySlot : Nat) : List ObjectRef :=
  match core.services[registrySlot]? with
  | some entry => entry.held
  | none => []

/-- What an object leads to: the queued transfers of a channel, the waiting endpoints of a service. -/
def children (core : IpcCore H O) (object : ObjectSlot) : List ObjectRef :=
  match object.kind with
  | .free => []
  | .channel channel => channel.held
  | .service registrySlot => core.heldByService registrySlot

/-! ## Releasing -/

def liveCount (core : IpcCore H O) : Nat := core.objects.toList.countP fun object => !object.kind.isFree

def freeObject (core : IpcCore H O) (slot : Nat) : IpcCore H O :=
  core.updateObject slot fun object => { object with references := 0, kind := .free }

/-- The peer of a freed endpoint has no peer any more. -/
def dropPeer (core : IpcCore H O) (object : ObjectRef) (peer : Option ObjectRef) : IpcCore H O :=
  match peer with
  | none => core
  | some peer =>
    match core.resolveObject peer with
    | .error _ => core
    | .ok slot =>
      match slot.kind with
      | .channel channel =>
        if channel.peer = some object then
          core.updateObject peer.slot fun slot => { slot with kind := .channel { channel with peer := none } }
        else core
      | _ => core

/-- `remove_service`, up to the endpoints it goes on to release. -/
def removeService (core : IpcCore H O) (registrySlot : Nat) : IpcCore H O × List ObjectRef :=
  match core.services[registrySlot]? with
  | none => (core, [])
  | some entry =>
    if entry.occupied then (core.updateService registrySlot .empty, entry.held) else (core, [])

/-- One call of `release_object`, up to the references it goes on to release. -/
def releaseStep (core : IpcCore H O) (object : ObjectRef) : IpcCore H O × List ObjectRef :=
  match core.resolveObject object with
  | .error _ => (core, [])
  | .ok slot =>
    if slot.references = 0 then (core, [])
    else if slot.references ≠ 1 then
      (core.updateObject object.slot fun slot => { slot with references := slot.references - 1 }, [])
    else
      let core := core.freeObject object.slot
      match slot.kind with
      | .free => (core, [])
      | .service registrySlot => core.removeService registrySlot
      | .channel channel => (core.dropPeer object channel.peer, channel.held)

theorem liveCount_updateObject {core : IpcCore H O} {slot : Nat} {object : ObjectSlot} (f : ObjectSlot → ObjectSlot)
    (h : core.objects[slot]? = some object) :
    (core.updateObject slot f).liveCount + (if !object.kind.isFree then 1 else 0) =
      core.liveCount + (if !(f object).kind.isFree then 1 else 0) := by
  simp only [updateObject, h]
  exact countP_setIfInBounds h (f object)

theorem liveCount_freeObject {core : IpcCore H O} {ref : ObjectRef} {object : ObjectSlot} (h : core.Names ref object) :
    (core.freeObject ref.slot).liveCount < core.liveCount := by
  have := liveCount_updateObject (fun object => { object with references := 0, kind := .free }) h.slot
  simp only [h.live, ObjectKind.isFree_free, Bool.not_false, Bool.not_true, if_true, Bool.false_eq_true, if_false] at this
  unfold freeObject
  omega

theorem liveCount_dropPeer (core : IpcCore H O) (object : ObjectRef) (peer : Option ObjectRef) :
    (core.dropPeer object peer).liveCount = core.liveCount := by
  unfold dropPeer
  split
  · rfl
  split
  · rfl
  rename_i slot hslot
  split
  · split
    · have hn := resolveObject_ok.1 hslot
      have := liveCount_updateObject (fun slot => { slot with kind := .channel { ‹ChannelObject› with peer := none } })
        hn.slot
      simpa [hn.live] using this
    · rfl
  · rfl

theorem liveCount_removeService (core : IpcCore H O) (registrySlot : Nat) :
    (core.removeService registrySlot).1.liveCount = core.liveCount := by
  unfold removeService
  split
  · rfl
  · split <;> rfl

/-- Whatever a call of `release_object` goes on to release, it freed an object before. -/
theorem releaseStep_measure (core : IpcCore H O) (object : ObjectRef) :
    (core.releaseStep object).1.liveCount < core.liveCount ∨
      (core.releaseStep object).1.liveCount = core.liveCount ∧ (core.releaseStep object).2 = [] := by
  unfold releaseStep
  split
  · exact .inr ⟨rfl, rfl⟩
  rename_i slot hslot
  have hn := resolveObject_ok.1 hslot
  split
  · exact .inr ⟨rfl, rfl⟩
  split
  · refine .inr ⟨?_, rfl⟩
    have := liveCount_updateObject (fun slot => { slot with references := slot.references - 1 }) hn.slot
    simpa [hn.live] using this
  have hfree := liveCount_freeObject hn
  refine .inl ?_
  split
  · exact hfree
  · rw [liveCount_removeService]; exact hfree
  · rw [liveCount_dropPeer]; exact hfree

/-- `release_object` on each of the references in turn: what the release of one goes on to release
comes before the next. -/
def releaseAll (core : IpcCore H O) : List ObjectRef → IpcCore H O
  | [] => core
  | object :: rest => releaseAll (core.releaseStep object).1 ((core.releaseStep object).2 ++ rest)
termination_by work => (core.liveCount, work.length)
decreasing_by
  rcases releaseStep_measure core object with h | ⟨h, hnil⟩
  · exact Prod.Lex.left _ _ h
  · rw [h, hnil]
    exact Prod.Lex.right _ (by simp)

def releaseObject (core : IpcCore H O) (object : ObjectRef) : IpcCore H O := core.releaseAll [object]

/-! ## Marking -/

def mark (core : IpcCore H O) (marked : Vector Bool O) (object : ObjectRef) : Vector Bool O :=
  if core.objectRefIsLive object then marked.setIfInBounds object.slot true else marked

def handleReferences (core : IpcCore H O) : List ObjectRef := core.handles.toList.flatMap HandleSlot.held

def pendingReferences (core : IpcCore H O) : List ObjectRef := core.services.toList.flatMap ServiceEntry.held

def queueReferences (core : IpcCore H O) : List ObjectRef := core.objects.toList.flatMap ObjectSlot.held

def markRoots (core : IpcCore H O) : Vector Bool O := core.handleReferences.foldl core.mark (Vector.replicate O false)

/-- One slot's turn in a round of marking. -/
def markSlot (core : IpcCore H O) (marked : Vector Bool O) (slot : Nat) : Vector Bool O :=
  match core.objects[slot]? with
  | none => marked
  | some object => if marked[slot]? = some true then (core.children object).foldl core.mark marked else marked

def markRound (core : IpcCore H O) (marked : Vector Bool O) : Vector Bool O := (List.range O).foldl core.markSlot marked

/-- Everything marked in the first is marked in the second. -/
def Covers (marked marked' : Vector Bool O) : Prop := ∀ i : Nat, marked[i]? = some true → marked'[i]? = some true

theorem Covers.refl (marked : Vector Bool O) : Covers marked marked := fun _ h => h

theorem Covers.trans {m m' m'' : Vector Bool O} (h : Covers m m') (h' : Covers m' m'') : Covers m m'' :=
  fun i hi => h' i (h i hi)

theorem covers_mark (core : IpcCore H O) (marked : Vector Bool O) (object : ObjectRef) :
    Covers marked (core.mark marked object) := by
  intro i hi
  unfold mark
  split
  · rw [Vector.getElem?_setIfInBounds]
    obtain ⟨hlt, -⟩ := Vector.getElem?_eq_some_iff.1 hi
    split
    · rename_i e; subst e; rw [if_pos hlt]
    · exact hi
  · exact hi

theorem covers_foldl {α : Type} {f : Vector Bool O → α → Vector Bool O} (hf : ∀ marked a, Covers marked (f marked a)) :
    ∀ (xs : List α) (marked : Vector Bool O), Covers marked (xs.foldl f marked)
  | [], marked => .refl marked
  | x :: xs, marked => (hf marked x).trans (covers_foldl hf xs _)

theorem covers_markSlot (core : IpcCore H O) (marked : Vector Bool O) (slot : Nat) :
    Covers marked (core.markSlot marked slot) := by
  unfold markSlot
  split
  · exact .refl _
  · split
    · exact covers_foldl core.covers_mark _ _
    · exact .refl _

theorem covers_markRound (core : IpcCore H O) (marked : Vector Bool O) : Covers marked (core.markRound marked) :=
  covers_foldl core.covers_markSlot _ _

def unmarked (marked : Vector Bool O) : Finset Nat := (Finset.range O).filter fun i => marked[i]? ≠ some true

theorem unmarked_ssubset {marked marked' : Vector Bool O} (h : Covers marked marked') (hne : marked' ≠ marked) :
    unmarked marked' ⊂ unmarked marked := by
  obtain ⟨i, hi, hdiff⟩ : ∃ i : Nat, i < O ∧ marked'[i]? ≠ marked[i]? := by
    by_contra hall
    push Not at hall
    refine hne (Vector.ext fun i hi => ?_)
    simpa [hi] using hall i hi
  have hold : marked[i]? ≠ some true := fun e => hdiff ((h i e).trans e.symm)
  have hnew : marked'[i]? = some true := by
    rw [Vector.getElem?_eq_getElem hi] at hold hdiff ⊢
    rw [Vector.getElem?_eq_getElem hi] at hdiff
    revert hold hdiff
    cases marked[i] <;> cases marked'[i] <;> simp
  rw [Finset.ssubset_iff_of_subset]
  · exact ⟨i, Finset.mem_filter.2 ⟨Finset.mem_range.2 hi, hold⟩, by simp [unmarked, hnew]⟩
  · intro j hj
    simp only [unmarked, Finset.mem_filter] at hj ⊢
    exact ⟨hj.1, fun e => hj.2 (h j e)⟩

/-- Rounds of marking until nothing changes. -/
def markLoop (core : IpcCore H O) (marked : Vector Bool O) : Vector Bool O :=
  if _h : core.markRound marked = marked then marked else markLoop core (core.markRound marked)
termination_by (unmarked marked).card
decreasing_by exact Finset.card_lt_card (unmarked_ssubset (core.covers_markRound marked) _h)

/-! ## Sweeping and counting -/

/-- The registry slots of the services that were not marked. -/
def unmarkedServices (core : IpcCore H O) (marked : Vector Bool O) : List Nat :=
  (List.range O).filterMap fun slot =>
    if marked[slot]? = some true then none else (core.objects[slot]?).bind ObjectSlot.registrySlot?

/-- Free the objects that were not marked. -/
def sweep (core : IpcCore H O) (marked : Vector Bool O) : IpcCore H O :=
  { core with
    objects := core.objects.mapIdx fun slot object =>
      if marked[slot]? = some true ∨ object.kind.isFree then object else { object with references := 0, kind := .free }
    services := core.services.mapIdx fun slot entry =>
      if slot ∈ core.unmarkedServices marked then .empty else entry }

/-- An object before its references are counted: a channel whose peer is gone has none. -/
def settle (core : IpcCore H O) (object : ObjectSlot) : ObjectSlot :=
  match object.kind with
  | .free => object
  | .service _ => { object with references := 0 }
  | .channel channel =>
    { object with references := 0, kind := .channel { channel with peer := channel.peer.filter core.objectRefIsLive } }

def settleAll (core : IpcCore H O) : IpcCore H O := { core with objects := core.objects.map core.settle }

def countReference (core : IpcCore H O) (object : ObjectRef) : IpcCore H O :=
  if core.objectRefIsLive object then
    core.updateObject object.slot fun slot => { slot with references := slot.references + 1 }
  else core

def collectUnreachableObjects (core : IpcCore H O) : IpcCore H O :=
  let core := (core.sweep (core.markLoop core.markRoots)).settleAll
  (core.handleReferences ++ core.pendingReferences ++ core.queueReferences).foldl countReference core

end IpcCore

end MakOS.Ipc
