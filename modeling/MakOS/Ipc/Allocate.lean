/-
New objects and new handles: where there is room they are made, and what they change.
-/
import MakOS.Ipc.View

namespace MakOS.Ipc

open Data Data.Act

variable {H O : Nat}

namespace IpcCore

variable {core core' : IpcCore H O} {ref ref' : ObjectRef} {o x : ObjectSlot} {kind : ObjectKind} {work : List ObjectRef}

/-! ## One object -/

/-- A free slot takes a new object, under a new reference. -/
structure Allocates (core : IpcCore H O) (kind : ObjectKind) (ref : ObjectRef) (core' : IpcCore H O) : Prop where
  slot : ∃ object, core.objects[ref.slot]? = some object ∧ object.kind.isFree = true ∧
    ref.generation = nextGeneration object.generation
  eq : core' = core.updateObject ref.slot fun _ => ⟨ref.generation, 0, kind⟩

theorem allocateObject_spec (kind : ObjectKind) (h : 0 < core.freeObjectCount) :
    ∃ ref core', allocateObject kind core = (.ok ref, core') ∧ Allocates core kind ref core' := by
  obtain ⟨slot, hslot⟩ := exists_findIdx?_toList h
  obtain ⟨object, hobject, hfree⟩ := findIdx?_toList hslot
  refine ⟨⟨slot, nextGeneration object.generation⟩,
    core.updateObject slot fun _ => ⟨nextGeneration object.generation, 0, kind⟩, ?_, ⟨object, hobject, hfree, rfl⟩, rfl⟩
  unfold allocateObject
  rw [hslot]
  simp [hobject]

namespace Allocates

variable (h : Allocates core kind ref core')
include h

theorem not_live (hs : ref'.slot = ref.slot) : ¬ core.Live ref' := by
  rintro ⟨x, hx⟩
  obtain ⟨o, ho, hfree, -⟩ := h.slot
  obtain rfl : x = o := Option.some.inj (hx.slot.symm.trans (hs ▸ ho))
  rw [hx.live] at hfree
  cases hfree

theorem names (hk : kind.isFree = false) : core'.Names ref' x ↔
    ref' = ref ∧ x = ⟨ref.generation, 0, kind⟩ ∨ core.Names ref' x := by
  obtain ⟨o, ho, -, -⟩ := h.slot
  rw [h.eq, names_updateObject ho]
  constructor
  · intro hx
    split at hx
    · rename_i e
      obtain ⟨rfl, hg, -⟩ := hx
      exact .inl ⟨ObjectRef.ext e hg.symm, rfl⟩
    · exact .inr hx
  · rintro (⟨rfl, rfl⟩ | hx)
    · simp only [true_and]
      exact hk
    · rw [if_neg fun e => h.not_live e ⟨x, hx⟩]
      exact hx

theorem handles : core'.handles = core.handles := by
  rw [h.eq, handles_updateObject]

theorem services : core'.services = core.services := by
  rw [h.eq, services_updateObject]

theorem freeObjectCount (hk : kind.isFree = false) : core'.freeObjectCount + 1 = core.freeObjectCount := by
  obtain ⟨o, ho, hfree, -⟩ := h.slot
  have := countP_setIfInBounds (p := fun slot => slot.kind.isFree) ho ⟨ref.generation, 0, kind⟩
  simp only [hfree, hk, if_true, Bool.false_eq_true, if_false] at this
  rw [h.eq]
  simp only [IpcCore.freeObjectCount, updateObject, ho]
  omega

theorem books (hb : Books core work) (hk : kind.isFree = false)
    (hheld : ObjectSlot.held ⟨ref.generation, 0, kind⟩ = []) : Books core' work := by
  obtain ⟨o, ho, hfree, -⟩ := h.slot
  have hold : o.held = [] := by
    unfold ObjectSlot.held
    split
    · rename_i hc
      rw [hc] at hfree
      cases hfree
    · rfl
  refine books_iff.2 fun r => ?_
  have hcount := count_updateObject ho (fun _ => ⟨ref.generation, 0, kind⟩) r
  rw [hold, hheld, ← h.eq] at hcount
  have hb := books_iff.1 hb r
  by_cases e : r = ref
  · subst e
    rw [tally_of_not_live (h.not_live rfl)] at hb
    rw [tally_of_names ((h.names hk).2 (.inl ⟨rfl, rfl⟩))]
    dsimp only
    omega
  · have hsame : core'.tally r = core.tally r := tally_congr fun x => by simp [h.names hk, e]
    omega

end Allocates

/-! ## A pair of endpoints -/

/-- Two new endpoints without messages, each the other's peer. -/
structure Pairs (core : IpcCore H O) (left right : ObjectRef) (core' : IpcCore H O) : Prop where
  leftNew : ¬ core.Live left
  rightNew : ¬ core.Live right
  apart : left ≠ right
  names : ∀ ref x, core'.Names ref x ↔ ref = left ∧ x = ⟨left.generation, 0, .channel ⟨some right, .empty⟩⟩ ∨
    ref = right ∧ x = ⟨right.generation, 0, .channel ⟨some left, .empty⟩⟩ ∨ core.Names ref x
  handles : core'.handles = core.handles
  services : core'.services = core.services
  books : ∀ work, Books core work → Books core' work

theorem allocatePair_spec (h : 2 ≤ core.freeObjectCount) :
    ∃ left right core', allocatePair core = (.ok (left, right), core') ∧ Pairs core left right core' := by
  obtain ⟨left, core₁, h₁, a₁⟩ := allocateObject_spec (.channel ⟨none, .empty⟩) (by omega : 0 < core.freeObjectCount)
  have := a₁.freeObjectCount rfl
  obtain ⟨right, core₂, h₂, a₂⟩ := allocateObject_spec (.channel ⟨some left, .empty⟩) (by omega : 0 < core₁.freeObjectCount)
  refine ⟨left, right, setChannelPeer left (some right) core₂, (bind_of_ok h₁).trans ((bind_of_ok h₂).trans rfl), ?_⟩
  have hleft : core₁.Names left ⟨left.generation, 0, .channel ⟨none, .empty⟩⟩ := (a₁.names rfl).2 (.inl ⟨rfl, rfl⟩)
  have hright : right ≠ left := fun e => a₂.not_live (e ▸ rfl) ⟨_, hleft⟩
  have hleft₂ := (a₂.names rfl).2 (.inr hleft)
  have hnames : ∀ ref x, core₂.Names ref x ↔ ref = right ∧ x = ⟨right.generation, 0, .channel ⟨some left, .empty⟩⟩ ∨
      ref = left ∧ x = ⟨left.generation, 0, .channel ⟨none, .empty⟩⟩ ∨ core.Names ref x := by
    intro ref x
    rw [a₂.names rfl, a₁.names rfl]
  have hempty : ∀ generation peer, ObjectSlot.held ⟨generation, 0, .channel ⟨peer, .empty⟩⟩ = [] := by
    simp [ObjectSlot.held, ChannelObject.held, MessageQueue.empty]
  refine ⟨a₁.not_live rfl, fun hl => ?_, Ne.symm hright, fun ref x => ?_, ?_, ?_, fun work hb => ?_⟩
  · obtain ⟨x, hx⟩ := hl
    exact a₂.not_live rfl ⟨x, (a₁.names rfl).2 (.inr hx)⟩
  · rw [setChannelPeer, names_updateNamed hleft₂ rfl, hnames]
    by_cases e : ref = left
    · have hnew : ¬ core.Names left x := fun hx => a₁.not_live rfl ⟨x, hx⟩
      simp [e, Ne.symm hright, hnew]
    · simp [e]
  · unfold setChannelPeer
    rw [handles_updateObject, a₂.handles, a₁.handles]
  · unfold setChannelPeer
    rw [services_updateObject, a₂.services, a₁.services]
  · have hb₂ := a₂.books (a₁.books hb rfl (hempty ..)) rfl (hempty ..)
    exact hb₂.updateObject hleft₂ rfl (fun _ => rfl) fun r => by simp [hempty]

namespace Pairs

variable {left right : ObjectRef}

theorem paired (h : Pairs core left right core') {peer : ObjectRef} : core'.Paired ref peer ↔
    ref = left ∧ peer = right ∨ ref = right ∧ peer = left ∨ core.Paired ref peer := by
  simp [Paired, h.names, or_and_right, exists_or, eq_comm]

theorem queues (h : Pairs core left right core') {queue : List QueuedMessage} : core'.Queues ref queue ↔
    (ref = left ∨ ref = right) ∧ queue = [] ∨ core.Queues ref queue := by
  simp [Queues, h.names, or_and_right, exists_or, or_assoc, MessageQueue.empty]

theorem listens (h : Pairs core left right core') {slot : Nat} : core'.Listens ref slot ↔ core.Listens ref slot := by
  simp [Listens, h.names, or_and_right, exists_or]

theorem published (h : Pairs core left right core') {slot : Nat} : core'.Published slot ↔ core.Published slot := by
  unfold Published
  rw [h.services]

theorem sound (h : Pairs core left right core') (hs : Sound core work) : Sound core' work where
  books := h.books work hs.books
  shaped := by
    refine hs.shaped.of (fun ref peer hp => ?_) (fun _ _ => h.listens) fun _ => h.published
    rw [h.paired] at hp ⊢
    rcases hp with ⟨rfl, rfl⟩ | ⟨rfl, rfl⟩ | hp
    · exact .inr (.inl ⟨rfl, rfl⟩)
    · exact .inl ⟨rfl, rfl⟩
    · exact .inr (.inr (hs.shaped.peers ref peer hp))

end Pairs

/-! ## Handles -/

structure Installs (core : IpcCore H O) (handle : Handle) (owner : Identity) (ref : ObjectRef) (rights : Rights)
    (core' : IpcCore H O) : Prop where
  slot : ∃ old, core.handles[handle.slot]? = some old ∧ old.occupied = false ∧
    handle.generation = nextGeneration old.generation
  eq : core' = core.updateHandle handle.slot ⟨handle.generation, true, owner, ref, rights⟩

def retained (core : IpcCore H O) (ref : ObjectRef) : IpcCore H O :=
  core.updateObject ref.slot fun slot => { slot with references := slot.references + 1 }

theorem retainObject_meets (ref : ObjectRef) :
    Meets core (retainObject ref) fun _ core' => core.Live ref ∧ core' = core.retained ref := by
  unfold Meets retainObject
  cases hr : core.resolveObject ref with
  | error e => rfl
  | ok o =>
    by_cases hcount : o.references + 1 < 2 ^ 64
    · simp only [hcount]
      exact ⟨⟨o, resolveObject_ok.1 hr⟩, rfl⟩
    · simp only [hcount, if_false]

theorem retainObject_succeeds (hn : core.Names ref o) (h : o.references + 1 < 2 ^ 64) :
    retainObject ref core = (.ok (), core.retained ref) := by
  unfold retainObject
  rw [resolveObject_ok.2 hn]
  simp only [h]
  rfl

theorem Sound.retained (h : Sound core work) (hl : core.Live ref) : Sound (core.retained ref) (ref :: work) := by
  obtain ⟨o, hn⟩ := hl
  exact h.retain hn

theorem sameObjects_retained (hl : core.Live ref) : SameObjects core (core.retained ref) := by
  obtain ⟨o, hn⟩ := hl
  exact sameObjects_references hn.slot _

@[simp] theorem handles_retained : (core.retained ref).handles = core.handles := handles_updateObject
@[simp] theorem services_retained : (core.retained ref).services = core.services := services_updateObject

variable {handle : Handle} {owner : Identity} {rights : Rights}

theorem freeHandle_spec (h : 0 < core.freeHandleCount) :
    ∃ slot old, freeHandle core = .ok slot ∧ core.handles[slot]? = some old ∧ old.occupied = false := by
  obtain ⟨slot, hslot⟩ := exists_findIdx?_toList h
  obtain ⟨old, hold, hfree⟩ := findIdx?_toList hslot
  refine ⟨slot, old, ?_, hold, by simpa using hfree⟩
  unfold freeHandle
  rw [hslot]

theorem occupyHandle_spec (owner : Identity) (ref : ObjectRef) (rights : Rights) {slot : Nat} {old : HandleSlot}
    (hold : core.handles[slot]? = some old) (hfree : old.occupied = false) :
    ∃ handle core', occupyHandle slot owner ref rights core = (.ok handle, core') ∧
      Installs core handle owner ref rights core' := by
  refine ⟨⟨slot, nextGeneration old.generation⟩,
    core.updateHandle slot ⟨nextGeneration old.generation, true, owner, ref, rights⟩, ?_, ⟨old, hold, hfree, rfl⟩, rfl⟩
  unfold occupyHandle
  rw [hold]

/-- A handle that takes over a reference. -/
theorem installHandle_adopt (owner : Identity) (rights : Rights) (hfree : 0 < core.freeHandleCount) (hl : core.Live ref) :
    ∃ handle core', installHandle owner ref rights false core = (.ok handle, core') ∧
      Installs core handle owner ref rights core' := by
  obtain ⟨o, hn⟩ := hl
  obtain ⟨slot, old, hslot, hold, hfree⟩ := freeHandle_spec hfree
  obtain ⟨handle, core', hocc, hi⟩ := occupyHandle_spec owner ref rights hold hfree
  refine ⟨handle, core', ?_, hi⟩
  unfold installHandle
  rw [bind_look hslot, bind_look (g := fun core : IpcCore H O => core.resolveObject ref) (resolveObject_ok.2 hn)]
  exact hocc

/-- A handle that takes a reference of its own. -/
theorem installHandle_retain (owner : Identity) (rights : Rights) (hfree : 0 < core.freeHandleCount)
    (hn : core.Names ref o) (hcount : o.references + 1 < 2 ^ 64) :
    ∃ handle core', installHandle owner ref rights true core = (.ok handle, core') ∧
      Installs (core.retained ref) handle owner ref rights core' := by
  obtain ⟨slot, old, hslot, hold, hfree⟩ := freeHandle_spec hfree
  have hold' : (core.retained ref).handles[slot]? = some old := by
    rw [handles_retained]
    exact hold
  obtain ⟨handle, core', hocc, hi⟩ := occupyHandle_spec owner ref rights hold' hfree
  refine ⟨handle, core', ?_, hi⟩
  unfold installHandle
  rw [bind_look hslot, bind_look (g := fun core : IpcCore H O => core.resolveObject ref) (resolveObject_ok.2 hn)]
  simp only [if_true]
  rw [bind_of_ok (retainObject_succeeds hn hcount)]
  exact hocc

namespace Installs

variable (h : Installs core handle owner ref rights core')

include h

theorem sound (hs : Sound core (ref :: work)) : Sound core' work := by
  obtain ⟨old, hold, hfree, -⟩ := h.slot
  rw [h.eq]
  exact hs.occupy hold hfree _ _ _

theorem names {r : ObjectRef} : core'.Names r o ↔ core.Names r o := by
  rw [h.eq, names_updateHandle]

theorem sameObjects : SameObjects core core' := by
  rw [h.eq]
  exact sameObjects_updateHandle _

theorem services : core'.services = core.services := by
  rw [h.eq, services_updateHandle]

theorem freeHandleCount : core'.freeHandleCount + 1 = core.freeHandleCount := by
  obtain ⟨old, hold, hfree, -⟩ := h.slot
  have := countP_setIfInBounds (p := fun slot => !slot.occupied) hold ⟨handle.generation, true, owner, ref, rights⟩
  simp only [hfree, Bool.not_true, Bool.not_false, if_true, Bool.false_eq_true, if_false] at this
  rw [h.eq]
  simp only [IpcCore.freeHandleCount, updateHandle]
  omega

end Installs

end IpcCore

end MakOS.Ipc
