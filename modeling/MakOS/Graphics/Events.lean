/-
The event queues of window surfaces (`kernel/src/graphics.rs`): which surfaces exist and whom they belong to,
the ring of events of each, and the test that lets a waiting thread go on. Pixels, placement and composition
are left out. A ring has as many places as its positions have values, so that positions wrap by themselves.
-/
import MakOS.Data.Slots

namespace MakOS.Graphics

open MakOS.Data

structure SurfaceEvent where
  kind : UInt32
  key : UInt32
  modifiers : UInt32
  x : Int32
  y : Int32
  width : UInt32
  height : UInt32
  deriving DecidableEq, Repr

def SurfaceEvent.empty : SurfaceEvent := ⟨0, 0, 0, 0, 0, 0, 0⟩

structure Surface where
  created : Bool
  ownerPid : Nat
  eventEnabled : Bool
  head : Fin 256
  tail : Fin 256
  events : Slots SurfaceEvent 256
  deriving DecidableEq, Repr

def Surface.blank (created : Bool) (ownerPid : Nat) : Surface :=
  ⟨created, ownerPid, false, 0, 0, .replicate 256 .empty⟩

abbrev Surfaces := Slots Surface 8

/-- `(a as i32).saturating_add(b as i32) as u32` -/
def saturatingAdd (a b : UInt32) : UInt32 :=
  (Int32.ofInt (max (-2147483648) (min 2147483647 (a.toInt32.toInt + b.toInt32.toInt)))).toUInt32

/-- `push_surface_event`: a movement or a scroll joins the last event of its kind, and the oldest event makes room. -/
def Surface.push (surface : Surface) (event : SurfaceEvent) : Surface :=
  let queued := surface.events[surface.head - 1]
  if surface.head ≠ surface.tail ∧ event.kind = 2 ∧ queued.kind = 2 ∧ event.key = queued.key then
    { surface with events := surface.events.set (surface.head - 1) event }
  else if surface.head ≠ surface.tail ∧ event.kind = 5 ∧ queued.kind = 5 then
    { surface with
      events := surface.events.set (surface.head - 1)
        { queued with
          key := saturatingAdd queued.key event.key
          modifiers := saturatingAdd queued.modifiers event.modifiers
          x := event.x, y := event.y, width := event.width, height := event.height } }
  else
    { surface with
      tail := if surface.head + 1 = surface.tail then surface.tail + 1 else surface.tail
      events := surface.events.set surface.head event
      head := surface.head + 1 }

namespace Surfaces

def handleIndex (handle : Nat) : Option (Fin 8) :=
  if handle = 0 ∨ 8 < handle then none else some (Fin.ofNat 8 (handle - 1))

/-- `create_reserved`, for a size that fits; slot zero is the first that is free -/
def create (surfaces : Surfaces) (pid slot : Nat) : Nat × Surfaces :=
  let index :=
    if slot = 0 then slot? (fun surface => !surface.created) surfaces
    else (handleIndex slot).filter fun index => !surfaces[index].created
  match index with
  | none => (0, surfaces)
  | some index => (index + 1, surfaces.set index (.blank true pid))

/-- The test of every call by the owner -/
def owned (surfaces : Surfaces) (index : Fin 8) (pid : Nat) : Bool :=
  surfaces[index].created && surfaces[index].ownerPid == pid

def readEvent (surfaces : Surfaces) (handle pid : Nat) : Option SurfaceEvent × Surfaces :=
  match handleIndex handle with
  | none => (none, surfaces)
  | some index =>
    if !owned surfaces index pid then (none, surfaces)
    else
      let surface := { surfaces[index] with eventEnabled := true }
      if surface.tail = surface.head then (none, surfaces.set index surface)
      else
        (some surface.events[surface.tail],
          surfaces.set index
            { surface with events := surface.events.set surface.tail .empty, tail := surface.tail + 1 })

def eventWaitReady (surfaces : Surfaces) (handle ownerPid : Nat) : Bool :=
  match handleIndex handle with
  | none => true
  | some index =>
    let surface := surfaces[index]
    !surface.created || surface.ownerPid != ownerPid || surface.tail != surface.head

/-- An input event for a surface that takes events -/
def deliver (surfaces : Surfaces) (index : Fin 8) (event : SurfaceEvent) : Surfaces :=
  if surfaces[index].created && surfaces[index].eventEnabled then surfaces.set index (surfaces[index].push event)
  else surfaces

def destroy (surfaces : Surfaces) (handle pid : Nat) : Bool × Surfaces :=
  match handleIndex handle with
  | none => (false, surfaces)
  | some index =>
    if !owned surfaces index pid then (false, surfaces) else (true, surfaces.set index (.blank false 0))

def closeAll (surfaces : Surfaces) (pid : Nat) : Surfaces :=
  surfaces.map fun surface => if surface.created && surface.ownerPid == pid then .blank false 0 else surface

/-! ## What makes a waiter ready -/

variable {surfaces : Surfaces} {handle pid owner q : Nat} {index : Fin 8}

/-- Readiness for a surface that changes depends on the new one only. -/
theorem eventWaitReady_set (surface : Surface) :
    eventWaitReady (surfaces.set index surface) handle owner =
      if handleIndex handle = some index then !surface.created || surface.ownerPid != owner || surface.tail != surface.head
      else eventWaitReady surfaces handle owner := by
  unfold eventWaitReady
  cases hi : handleIndex handle with
  | none => rfl
  | some i =>
    by_cases heq : i = index
    · subst heq
      simp
    · rw [if_neg (by simpa using heq)]
      simp [getElem_set_of_ne heq]

theorem ready_of_readEvent (h : eventWaitReady (readEvent surfaces handle pid).2 q owner = true) :
    eventWaitReady surfaces q owner = true := by
  unfold readEvent at h
  cases hi : handleIndex handle with
  | none => rwa [hi] at h
  | some index =>
    rw [hi] at h
    dsimp only at h
    split at h
    · exact h
    split at h
    · rw [eventWaitReady_set] at h
      split at h
      · rename_i hq
        rw [eventWaitReady, hq]
        exact h
      · exact h
    · rename_i hne
      rw [eventWaitReady_set] at h
      split at h
      · rename_i hq
        rw [eventWaitReady, hq]
        simp [hne]
      · exact h

theorem ready_of_create {slot : Nat} (h : eventWaitReady (create surfaces pid slot).2 q owner = true) :
    eventWaitReady surfaces q owner = true := by
  unfold create at h
  dsimp only at h
  split at h
  · exact h
  rename_i index hindex
  have hfree : surfaces[index].created = false := by
    split at hindex
    · simpa using slot?_some hindex
    · simpa using (Option.filter_eq_some_iff.1 hindex).2
  rw [eventWaitReady_set] at h
  split at h
  · rename_i hq
    rw [eventWaitReady, hq]
    simp [hfree]
  · exact h

/-- A waiter made ready by the closing of surfaces had one of them. -/
theorem ready_of_closeAll (h : eventWaitReady (closeAll surfaces pid) q owner = true) :
    eventWaitReady surfaces q owner = true ∨ (∃ index, handleIndex q = some index ∧ owned surfaces index pid = true) := by
  unfold eventWaitReady at h ⊢
  cases hi : handleIndex q with
  | none => exact .inl rfl
  | some index =>
    by_cases how : owned surfaces index pid = true
    · exact .inr ⟨index, rfl, how⟩
    rw [hi] at h
    have hget : (closeAll surfaces pid)[index] = surfaces[index] := by
      rw [closeAll, getElem_map]
      exact if_neg how
    dsimp only at h
    rw [hget] at h
    exact .inl h

end Surfaces

end MakOS.Graphics
