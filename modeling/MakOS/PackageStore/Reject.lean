/-
Requests the store rejects. Every check but one comes before the first write; the space a snapshot
takes is only found out while its payloads are being placed, after the slot that holds the previous
snapshot has been marked. So a request rejected there loses what `rollback` would go back to, while
the current packages stay what they are.
-/
import MakOS.PackageStore.Crash

namespace MakOS.PackageStore

open Bytes Device Device.Prog

namespace Store

variable {store : Store} {d d' : Dev Sector} {st st' : Slots store}

def SameSlots (store : Store) (d d' : Dev Sector) : Prop :=
  ∀ slot lba, store.InSlot slot lba → d'.view lba = d.view lba

/-- What the request would have to find for its rejection to change nothing: it fails a check made
before the first write, or all that is written before the space runs out is there already. -/
def RejectedInTime (store : Store) (d : Dev Sector) (slot : Fin 2) (current : Contents) (edit : Edit) : Prop :=
  store.capacity ≥ 2 ^ 64 ∨
    match edit.apply current.generation current.pkgs with
    | .error _ => True
    | .ok next => d.view (store.slotBase slot) = preparingHeader (current.generation + 1) next.length ∧
        d.Shows (store.slotBase slot + payloadStartSector) (payloadSectors (store.fitting 0 next))

theorem sameSlots_full {slot : Fin 2} {generation count : Nat} {data : List Sector}
    (hfits : payloadStartSector + data.length ≤ store.slotSectors) :
    store.SameSlots d (d.replay (store.commitStart slot generation count ++
        writesAt (store.slotBase slot + payloadStartSector) data)) ↔
      d.view (store.slotBase slot) = preparingHeader generation count ∧
        d.Shows (store.slotBase slot + payloadStartSector) data := by
  have hlarge := store.large
  constructor
  · intro h
    constructor
    · rw [← h slot _ ⟨le_refl _, by omega⟩, view_full]
    · intro i hi
      rw [← h slot _ ⟨by omega, by omega⟩, replay_append]
      exact shows_writesAt _ _ _ i hi
  · rintro ⟨hheader, hdata⟩ slot' lba -
    -- the header and the payloads are written over themselves
    have hstart : (d.replay (store.commitStart slot generation count)).view = d.view := by
      refine view_writesAt_of_shows (show d.Shows _ [preparingHeader generation count] from fun i hi => ?_)
      obtain rfl : i = 0 := by simpa using hi
      exact hheader
    have hdata' : (d.replay (store.commitStart slot generation count)).Shows
        (store.slotBase slot + payloadStartSector) data := fun i hi => (congrFun hstart _).trans (hdata i hi)
    rw [replay_append, view_writesAt_of_shows hdata', hstart]

/-- A rejected request never changes the current packages, and leaves every sector of both slots
alone just when it is rejected in time. -/
theorem rejected_sameSlots_iff (h : Reach store (fun _ => True) d) {edit : Edit} {es : List (Event Sector)}
    {error : Error} (hrun : Runs (edit.prog store) d es (.error error)) (hio : error ≠ .io) :
    ∃ snapshot current, store.recover.value d = .ok snapshot ∧ store.contents.value d = .ok current ∧
      store.contents.value (d.replay es) = .ok current ∧
      (store.SameSlots d (d.replay es) ↔ store.RejectedInTime d (otherSlot snapshot.slot) current edit) := by
  obtain ⟨st, hshow, -⟩ := (reach_sane h).shows
  have hdone : ∀ e ∈ es, e.Done := (hrun.careful (careful_call (.edit edit))).resolve_right fun he => hio (by cases he; rfl)
  obtain ⟨hv, -, hafter⟩ := hrun.done hdone
  refine ⟨_, _, value_recover hshow, value_contents hshow, ?_⟩
  rw [hafter, after]
  by_cases hearly : (∃ error, edit.apply (newest st).generation (newest st).pkgs = .error error) ∨ store.capacity ≥ 2 ^ 64
  · -- a request rejected before its first write
    obtain ⟨-, -, he⟩ := edit_rejected hshow edit hearly
    rw [he]
    refine ⟨value_contents hshow, fun _ => hearly.symm.imp_right ?_, fun _ _ _ _ => rfl⟩
    rintro ⟨error', ha⟩
    simp only [ha]
  obtain ⟨hok, hcap⟩ := not_or.1 hearly
  cases ha : edit.apply (newest st).generation (newest st).pkgs with
  | error error' => exact absurd ⟨error', ha⟩ hok
  | ok next =>
    have hsound := sound_apply (sound_newest st) ha
    by_cases hfits : payloadStartSector + (payloadSectors next).length ≤ store.slotSectors
    · -- then the request would have succeeded
      rw [(@edit_committed store d st hshow edit ⟨next, hsound, hfits, by omega⟩ ha).1] at hv
      cases hv
    rw [(edit_full hshow ha (by omega) hfits).2]
    have hlarge := store.large
    have hprefix := @fitting_fits store 0 next (by omega)
    rw [Nat.zero_add] at hprefix
    constructor
    · have hfull := hshow.outcome (.full edit next ha (apply_ok ha).1 hsound.few)
      rw [value_contents hfull, newest_update_none]
    · rw [sameSlots_full hprefix, RejectedInTime, ha]
      exact ⟨.inr, fun hin => hin.resolve_left hcap⟩

/-- The small store rejects the installation of a package it already has, in time. -/
theorem rejected_tool : ∃ es, Runs ((Edit.install tool [2]).prog smallStore) replacedDevice es (.error .alreadyInstalled) ∧
    smallStore.SameSlots replacedDevice (replacedDevice.replay es) := by
  have hshow := quiet_replacedDevice.shows
  have ha : (Edit.install tool [2]).apply (newest replacedSlots).generation (newest replacedSlots).pkgs =
      .error .alreadyInstalled := rfl
  have hrun := Prog.runs ((Edit.install tool [2]).prog smallStore) replacedDevice
  rw [(edit_error hshow ha).1] at hrun
  obtain ⟨snapshot, current, -, hcurrent, -, hiff⟩ :=
    rejected_sameSlots_iff (reach_replacedDevice fun _ _ => trivial) hrun (by decide)
  refine ⟨_, hrun, hiff.2 (.inr ?_)⟩
  rw [value_contents hshow] at hcurrent
  rw [← Except.ok.inj hcurrent]
  exact trivial

/-- A payload of two sectors, one more than a slot of the small store takes. -/
def bigPayload : List UInt8 := List.replicate 513 0

theorem not_fits_bigPayload :
    ¬ payloadStartSector + (payloadSectors [tool.pkg bigPayload]).length ≤ smallStore.slotSectors := by
  have hlen : (tool.pkg bigPayload).payload.length = 513 := List.length_replicate ..
  rw [payloadSectors_cons, List.length_append, length_sectors, hlen]
  decide

theorem apply_bigPayload : (Edit.replace tool bigPayload).apply (newest replacedSlots).generation
    (newest replacedSlots).pkgs = .ok [tool.pkg bigPayload] :=
  apply_replace_tool 2 (by decide) 1 bigPayload rfl

/-- A package replaced once can be rolled back; a second replacement that is too large is rejected,
and then it cannot. -/
theorem full_request_loses_previous : ∃ es,
    Reach smallStore (fun _ => True) replacedDevice ∧
      Runs ((Edit.replace tool bigPayload).prog smallStore) replacedDevice es (.error .noSpace) ∧
      ¬ smallStore.SameSlots replacedDevice (replacedDevice.replay es) ∧
      smallStore.rollback.value replacedDevice = .ok 3 ∧
      smallStore.rollback.value (replacedDevice.replay es) = .error .notInstalled := by
  have hshow := quiet_replacedDevice.shows
  have hcap : smallStore.capacity < 2 ^ 64 := by decide
  obtain ⟨hv, he⟩ := edit_full hshow apply_bigPayload hcap not_fits_bigPayload
  have hrun := Prog.runs ((Edit.replace tool bigPayload).prog smallStore) replacedDevice
  rw [hv] at hrun
  refine ⟨_, reach_replacedDevice fun _ _ => trivial, hrun, ?_, ?_, ?_⟩
  · rw [after_eq, after, he]
    intro hsame
    have hprefix := @fitting_fits smallStore 0 [tool.pkg bigPayload] (by decide)
    rw [Nat.zero_add] at hprefix
    -- the slot written still announced the first version
    have hview : replacedDevice.view (smallStore.slotBase 0) = committedHeader 1 (toolPackages 0).list :=
      (quiet_replacedDevice.2 0).2.2.view
    have hmarked := ((sameSlots_full hprefix).1 hsame).1
    rw [show target replacedSlots = 0 from rfl, hview] at hmarked
    have hidle : Idle (preparingHeader ((newest replacedSlots).generation + 1) 1) :=
      idle_preparing (by decide) (by decide)
    exact hidle.ne_committed (by decide) (toolPackages 0) hmarked.symm
  · exact (rollback_some hshow rfl
      (by decide)).1
  · rw [after_eq, after, he]
    have hfull := hshow.outcome (.full _ _ apply_bigPayload (by decide) (by decide))
    exact (rollback_none hfull rfl).1

end Store

end MakOS.PackageStore
