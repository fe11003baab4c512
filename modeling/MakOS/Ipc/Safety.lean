/-
Every state that typed IPC can get into keeps exact books without a leak, and no call that fails leaves
a trace.
-/
import MakOS.Ipc.Calls

namespace MakOS.Ipc

open Data Data.Act IpcCore IpcCore

variable {H O : Nat} {core : IpcCore H O}

/-- The states that any calls by any processes lead to. -/
inductive Reachable : IpcCore H O → Prop
  | new : Reachable IpcCore.new
  | step {core : IpcCore H O} (h : Reachable core) (call : Call) : Reachable (call.act core).2

theorem not_live_new (ref : ObjectRef) : ¬ (new : IpcCore H O).Live ref := by
  rintro ⟨o, hs, -, hk⟩
  simp only [new, Vector.getElem?_replicate] at hs
  split at hs
  · cases hs
    cases hk
  · cases hs

theorem references_new : (new : IpcCore H O).references = [] := by
  have hhandles : (new : IpcCore H O).handleReferences = [] := by
    simp [handleReferences, new, HandleSlot.held, HandleSlot.empty]
  have hqueues : (new : IpcCore H O).queueReferences = [] := by
    simp [queueReferences, new, ObjectSlot.held, ObjectSlot.empty]
  rw [references, hhandles, hqueues]
  rfl

theorem good_new : Good (new : IpcCore H O) := by
  refine ⟨⟨⟨fun ref o hn => absurd ⟨o, hn⟩ (not_live_new ref), fun ref hr => ?_⟩, ⟨?_, ?_, ?_, ?_⟩⟩, fun ref hl => ?_⟩
  · rw [references_new] at hr
    rcases hr with hr | hr <;> exact absurd hr List.not_mem_nil
  · rintro ref peer ⟨o, c, hn, -, -⟩
    exact absurd ⟨o, hn⟩ (not_live_new ref)
  · rintro ref slot ⟨o, hn, -⟩
    exact absurd ⟨o, hn⟩ (not_live_new ref)
  · rintro slot ⟨entry, hs, hocc⟩
    simp only [new, Vector.getElem?_replicate] at hs
    split at hs
    · cases hs
      cases hocc
    · cases hs
  · rintro ref ref' slot ⟨o, hn, -⟩ -
    exact absurd ⟨o, hn⟩ (not_live_new ref)
  · exact absurd hl (not_live_new ref)

theorem good_step (h : Good core) (call : Call) : Good (call.act core).2 := by
  rcases hr : call.act core with ⟨e | reply, core'⟩
  · rw [act_atomic h call e core' hr]
    exact h
  · exact (act_ok h hr).1

theorem Reachable.good (h : Reachable core) : Good core := by
  induction h with
  | new => exact good_new
  | step _ call ih => exact good_step ih call

/-- The reference count of a live object is the number of occupied handle slots that name it plus that
of the queued transfers and of the waiting connections that do, and some occupied handle slot leads to it. -/
theorem references_exact_and_reachable (h : Reachable core) :
    (∀ ref object, core.Names ref object → object.references =
      core.handleReferences.count ref + core.queueReferences.count ref + core.pendingReferences.count ref) ∧
    ∀ ref, core.Live ref → core.Reaches ref := by
  refine ⟨fun ref object hn => ?_, h.good.tidy⟩
  have := h.good.sound.books.exact ref object hn
  simp only [references, List.count_append, List.count_nil] at this
  omega

theorem references_exact_and_reachable_of_channel :
    (Call.act (.createChannel ⟨1, 10, 100⟩ .channelAll ⟨2, 10, 100⟩ .channelAll) (new : IpcCore 2 2)).2.Live ⟨0, 1⟩ ∧
    (∀ ref object, (Call.act (.createChannel ⟨1, 10, 100⟩ .channelAll ⟨2, 10, 100⟩ .channelAll)
      (new : IpcCore 2 2)).2.Names ref object → object.references =
        (Call.act (.createChannel ⟨1, 10, 100⟩ .channelAll ⟨2, 10, 100⟩ .channelAll)
          (new : IpcCore 2 2)).2.handleReferences.count ref +
        (Call.act (.createChannel ⟨1, 10, 100⟩ .channelAll ⟨2, 10, 100⟩ .channelAll)
          (new : IpcCore 2 2)).2.queueReferences.count ref +
        (Call.act (.createChannel ⟨1, 10, 100⟩ .channelAll ⟨2, 10, 100⟩ .channelAll)
          (new : IpcCore 2 2)).2.pendingReferences.count ref) :=
  ⟨objectRefIsLive_iff.1 (by decide), (references_exact_and_reachable (.step .new _)).1⟩

theorem failed_call_changes_nothing (h : Reachable core) (call : Call) (e : Error) (herr : (call.act core).1 = .error e) :
    (call.act core).2 = core :=
  act_atomic h.good call e _ (Prod.ext herr rfl)

theorem failed_call_changes_nothing_of_close :
    (Call.act (.close ⟨1, 10, 100⟩ ⟨0, 1⟩) (new : IpcCore 2 2)).1 = .error .staleHandle ∧
      (Call.act (.close ⟨1, 10, 100⟩ ⟨0, 1⟩) (new : IpcCore 2 2)).2 = new :=
  ⟨rfl, failed_call_changes_nothing .new _ .staleHandle rfl⟩

end MakOS.Ipc
