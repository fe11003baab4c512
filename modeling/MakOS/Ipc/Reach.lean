/-
What the handles lead to, and that the collector marks just that. The rounds of marking stop at a
fixpoint; everything marked is reachable, and at a fixpoint everything reachable is marked.
-/
import MakOS.Ipc.Release

namespace MakOS.Ipc.IpcCore

open Data

variable {H O : Nat} {core : IpcCore H O} {ref ref' : ObjectRef} {o x : ObjectSlot} {marked marked' : Vector Bool O}

/-- The live objects that an occupied handle names, or that a reachable object holds: the queued
transfers of a channel, the waiting connections of a service. -/
inductive Reaches (core : IpcCore H O) : ObjectRef → Prop
  | handle {slot : Nat} {handle : HandleSlot} (hs : core.handles[slot]? = some handle) (hocc : handle.occupied = true)
      (hl : core.Live handle.object) : Reaches core handle.object
  | child {parent ref : ObjectRef} {o : ObjectSlot} (hp : Reaches core parent) (hn : core.Names parent o)
      (hc : ref ∈ core.children o) (hl : core.Live ref) : Reaches core ref

theorem Reaches.live (h : core.Reaches ref) : core.Live ref := by
  cases h with
  | handle _ _ hl => exact hl
  | child _ _ _ hl => exact hl

/-- No object leaks. -/
def Tidy (core : IpcCore H O) : Prop := ∀ ref, core.Live ref → core.Reaches ref

/-- What one state reaches another one reaches as well, if it has its roots and its edges. -/
theorem Reaches.mono {core' : IpcCore H O}
    (hroot : ∀ (slot : Nat) (handle : HandleSlot), core.handles[slot]? = some handle → handle.occupied = true →
      core.Live handle.object → core'.Reaches handle.object)
    (hedge : ∀ parent o ref, core'.Reaches parent → core.Names parent o → ref ∈ core.children o → core.Live ref →
      core'.Reaches ref) (h : core.Reaches ref) : core'.Reaches ref := by
  induction h with
  | handle hs hocc hl => exact hroot _ _ hs hocc hl
  | child hp hn hc hl ih => exact hedge _ _ _ ih hn hc hl

/-! ## Marking is sound -/

/-- Every mark is that of a reachable object. -/
def MarksReached (core : IpcCore H O) (marked : Vector Bool O) : Prop :=
  ∀ i : Nat, marked[i]? = some true → ∃ ref, ref.slot = i ∧ core.Reaches ref

theorem MarksReached.mark (h : core.MarksReached marked) (hr : core.Live ref → core.Reaches ref) :
    core.MarksReached (core.mark marked ref) := by
  intro i hi
  unfold IpcCore.mark at hi
  split at hi
  · rename_i hl
    rw [Vector.getElem?_setIfInBounds] at hi
    split at hi
    · rename_i e
      exact ⟨ref, e, hr (objectRefIsLive_iff.1 hl)⟩
    · exact h i hi
  · exact h i hi

theorem MarksReached.foldl_mark (refs : List ObjectRef) (h : core.MarksReached marked)
    (hr : ∀ ref ∈ refs, core.Live ref → core.Reaches ref) : core.MarksReached (refs.foldl core.mark marked) := by
  induction refs generalizing marked with
  | nil => exact h
  | cons ref refs ih =>
    exact ih (h.mark (hr ref List.mem_cons_self)) fun r hr' => hr r (List.mem_cons_of_mem _ hr')

theorem marksReached_markRoots : core.MarksReached core.markRoots := by
  refine MarksReached.foldl_mark _ ?_ ?_
  · intro i hi
    simp only [Vector.getElem?_replicate] at hi
    split at hi <;> cases hi
  · intro ref hr hl
    obtain ⟨i, handle, hs, hocc, rfl⟩ := mem_handleReferences.1 hr
    exact .handle hs hocc hl

theorem MarksReached.markSlot (h : core.MarksReached marked) (slot : Nat) :
    core.MarksReached (core.markSlot marked slot) := by
  unfold IpcCore.markSlot
  split
  · exact h
  rename_i o ho
  split
  · rename_i hm
    obtain ⟨parent, rfl, hp⟩ := h slot hm
    obtain ⟨x, hx⟩ := hp.live
    have hxo : x = o := Option.some.inj (hx.slot.symm.trans ho)
    exact h.foldl_mark _ fun ref hr hl => hp.child (hxo ▸ hx) hr hl
  · exact h

theorem MarksReached.markRound (h : core.MarksReached marked) : core.MarksReached (core.markRound marked) := by
  unfold IpcCore.markRound
  generalize List.range O = slots
  induction slots generalizing marked with
  | nil => exact h
  | cons slot slots ih => exact ih (h.markSlot slot)

theorem MarksReached.markLoop (h : core.MarksReached marked) : core.MarksReached (core.markLoop marked) := by
  fun_induction IpcCore.markLoop core marked with
  | case1 marked => exact h
  | case2 marked _ ih => exact ih h.markRound

/-! ## Marking is complete -/

theorem Covers.antisymm (h : Covers marked marked') (h' : Covers marked' marked) : marked = marked' := by
  refine Vector.ext fun i hi => ?_
  have h1 := h i
  have h2 := h' i
  rw [Vector.getElem?_eq_getElem hi, Vector.getElem?_eq_getElem hi] at h1 h2
  revert h1 h2
  cases marked[i] <;> cases marked'[i] <;> simp

/-- Steps that only add marks, and together add none, each add none. -/
theorem foldl_fixed {α : Type} {f : Vector Bool O → α → Vector Bool O} (hf : ∀ marked a, Covers marked (f marked a))
    (xs : List α) (h : xs.foldl f marked = marked) : ∀ a ∈ xs, f marked a = marked := by
  induction xs with
  | nil => exact fun a ha => absurd ha List.not_mem_nil
  | cons x xs ih =>
    rw [List.foldl_cons] at h
    have hx : f marked x = marked := by
      refine (Covers.antisymm (hf marked x) ?_).symm
      have := covers_foldl hf xs (f marked x)
      rwa [h] at this
    rw [hx] at h
    intro a ha
    rcases List.mem_cons.1 ha with rfl | ha
    · exact hx
    · exact ih h a ha

theorem covers_markLoop (core : IpcCore H O) (marked : Vector Bool O) : Covers marked (core.markLoop marked) := by
  fun_induction IpcCore.markLoop core marked with
  | case1 marked => exact .refl _
  | case2 marked _ ih => exact (core.covers_markRound marked).trans ih

theorem markRound_markLoop (core : IpcCore H O) (marked : Vector Bool O) :
    core.markRound (core.markLoop marked) = core.markLoop marked := by
  fun_induction IpcCore.markLoop core marked with
  | case1 marked h => exact h
  | case2 marked _ ih => exact ih

theorem mark_live (hl : core.Live ref) : (core.mark marked ref)[ref.slot]? = some true := by
  obtain ⟨o, hn⟩ := hl
  obtain ⟨hlt, -⟩ := Vector.getElem?_eq_some_iff.1 hn.slot
  unfold mark
  rw [if_pos (objectRefIsLive_iff.2 ⟨o, hn⟩)]
  simp [hlt]

/-- Where marking all of some references changes nothing, the live ones had their marks. -/
theorem marked_of_foldl_fixed (refs : List ObjectRef) (h : refs.foldl core.mark marked = marked) (hr : ref ∈ refs)
    (hl : core.Live ref) : marked[ref.slot]? = some true := by
  rw [← foldl_fixed core.covers_mark refs h ref hr]
  exact mark_live hl

theorem foldl_mark_live (refs : List ObjectRef) (hr : ref ∈ refs) (hl : core.Live ref) :
    (refs.foldl core.mark marked)[ref.slot]? = some true := by
  induction refs generalizing marked with
  | nil => exact absurd hr List.not_mem_nil
  | cons r refs ih =>
    rcases List.mem_cons.1 hr with rfl | hr
    · exact covers_foldl core.covers_mark refs _ _ (mark_live hl)
    · exact ih hr

/-- At a fixpoint, what a marked object leads to is marked. -/
theorem marked_child (hfix : core.markRound marked = marked) {parent : ObjectRef} (hn : core.Names parent o)
    (hm : marked[parent.slot]? = some true) (hc : ref ∈ core.children o) (hl : core.Live ref) :
    marked[ref.slot]? = some true := by
  obtain ⟨hlt, -⟩ := Vector.getElem?_eq_some_iff.1 hn.slot
  have hstep := foldl_fixed core.covers_markSlot (List.range O) hfix parent.slot (List.mem_range.2 hlt)
  simp only [markSlot, hn.slot, hm] at hstep
  exact marked_of_foldl_fixed _ hstep hc hl

/-- The marks the collector ends with. -/
def marks (core : IpcCore H O) : Vector Bool O := core.markLoop core.markRoots

/-- The collector marks just what the handles lead to. -/
theorem marks_iff (hl : core.Live ref) : core.marks[ref.slot]? = some true ↔ core.Reaches ref := by
  constructor
  · intro hm
    obtain ⟨r, hs, hr⟩ := marksReached_markRoots.markLoop ref.slot hm
    rwa [← hr.live.eq_of_slot hl hs]
  intro hr
  induction hr with
  | handle hs hocc hl =>
    refine covers_markLoop core core.markRoots _ (foldl_mark_live _ ?_ hl)
    exact mem_handleReferences.2 ⟨_, _, hs, hocc, rfl⟩
  | child hp hn hc hl ih => exact marked_child (markRound_markLoop core core.markRoots) hn (ih hp.live) hc hl

end MakOS.Ipc.IpcCore
