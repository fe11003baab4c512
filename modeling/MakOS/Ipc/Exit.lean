/-
The exit of a process: `cleanup_pid` closes its handles one by one, each with its own collection.
-/
import MakOS.Ipc.Confinement

namespace MakOS.Ipc

open Data.Act IpcCore

variable {H O : Nat} {core : IpcCore H O}

theorem handles_releaseAll (work : List ObjectRef) : (core.releaseAll work).handles = core.handles := by
  have hservice : ∀ (core : IpcCore H O) slot, (core.removeService slot).1.handles = core.handles := by
    grind [removeService, handles_updateService]
  have hpeer : ∀ (core : IpcCore H O) ref peer, (core.dropPeer ref peer).handles = core.handles := by
    grind [dropPeer.eq_def, handles_updateObject]
  have hstep : ∀ (core : IpcCore H O) ref, (core.releaseStep ref).1.handles = core.handles := by
    grind [releaseStep, freeObject, handles_updateObject]
  fun_induction IpcCore.releaseAll core work with
  | case1 => rfl
  | case2 core ref rest ih => rw [ih, hstep]

variable (select : Identity → Bool)

/-- What becomes of a slot when the handles of some owners are closed. -/
def HandleSlot.vacated (held : HandleSlot) : HandleSlot :=
  if held.occupied && select held.owner then { held with occupied := false, rights := .none } else held

theorem cleanupSlot_handles {state : IpcCore H O × Nat} (h : Good state.1) (slot i : Nat) :
    (cleanupSlot select state slot).1.handles[i]? =
      if i = slot then state.1.handles[i]?.map (HandleSlot.vacated select) else state.1.handles[i]? := by
  unfold cleanupSlot
  cases hs : state.1.handles[slot]? with
  | none => grind
  | some held =>
    by_cases hsel : held.occupied && select held.owner
    case neg => grind [HandleSlot.vacated]
    obtain ⟨hocc, -⟩ := Bool.and_eq_true_iff.1 hsel
    have hmem := mem_handleReferences.2 ⟨slot, held, hs, hocc, rfl⟩
    have hlive : state.1.Live held.object := h.sound.books.live _ (.inl (by simp [references, hmem]))
    -- so the handle resolves, and its close succeeds
    have hclose : close held.owner ⟨slot, held.generation⟩ state.1 = (.ok (), _) :=
      (bind_look (resolveHandle_ok.2 ⟨hs, hocc, rfl, rfl, hlive⟩)).trans rfl
    simp only [if_pos hsel, hclose]
    rw [collect_handles, releaseObject, handles_releaseAll]
    grind [updateHandle, HandleSlot.vacated]

theorem cleanup_handles (h : Good core) : (cleanup select core).2.handles = core.handles.map (HandleSlot.vacated select) := by
  have hfold : ∀ (slots : List Nat) (state : IpcCore H O × Nat), Good state.1 → ∀ i : Nat,
      (slots.foldl (cleanupSlot select) state).1.handles[i]? =
        if i ∈ slots then state.1.handles[i]?.map (HandleSlot.vacated select) else state.1.handles[i]? := by
    intro slots
    induction slots with
    | nil => simp
    | cons slot rest ih =>
      intro state hs i
      rw [List.foldl_cons, ih _ (cleanupSlot_spec select state slot hs).1, cleanupSlot_handles select hs]
      grind [HandleSlot.vacated]
  refine Vector.ext fun i hi => ?_
  simpa [cleanup, hi] using hfold (List.range H) (core, 0) h i

/-- The exit of a process closes exactly its handles; that of the last one that holds any leaves no object. -/
theorem exit_closes_exactly (H O : Nat) (past : List Call) (pid : UInt32) :
    (after H O (.cleanupPid pid :: past)).handles = (after H O past).handles.map (HandleSlot.vacated (·.pid == pid)) ∧
      ((∀ held ∈ (after H O past).handles, held.occupied = true → held.owner.pid = pid) →
        ∀ ref, ¬ (after H O (.cleanupPid pid :: past)).Live ref) := by
  have hhandles : (after H O (.cleanupPid pid :: past)).handles = _ :=
    cleanup_handles (·.pid == pid) (reachable_after H O past).good
  refine ⟨hhandles, fun howned ref hlive => ?_⟩
  have hreaches := (reachable_after H O (.cleanupPid pid :: past)).good.tidy ref hlive
  clear hlive
  induction hreaches with
  | handle hs hocc =>
    rw [hhandles] at hs
    grind [HandleSlot.vacated]
  | child _ _ _ _ ih => exact ih

end MakOS.Ipc
