/-
Giving up a reference to a description (`release_description` and `destroy_pipe`). The last reference frees the
description and its end of a pipe; the last end of a pipe frees the pipe and gives up the references of the rights
queued in it, which may free further descriptions. The two functions call each other; here they work through a
list of what is still to be released, in the order of those calls.
-/
import MakOS.Data.Worklist
import MakOS.Vfs.Tables

namespace MakOS.Vfs

open Data

inductive Item
  | description (index : Fin maxFileDescriptions)
  | pipe (index : Fin maxPipes)
  deriving DecidableEq, Repr

/-- `destroy_pipe`, once the buffer has neither readers nor writers -/
def Pipe.ended (pipe : Pipe) (index : Fin maxPipes) : List Item :=
  if pipe.readers = 0 ∧ pipe.writers = 0 then [.pipe index] else []

namespace State

def dropReader (s : State) (index : Fin maxPipes) : State × List Item :=
  match s.pipes[index] with
  | none => (s, [])
  | some pipe =>
    let pipe := { pipe with readers := pipe.readers - 1 }
    ({ s with pipes := s.pipes.set index (some pipe) }, pipe.ended index)

def dropWriter (s : State) (index : Fin maxPipes) : State × List Item :=
  match s.pipes[index] with
  | none => (s, [])
  | some pipe =>
    let pipe := { pipe with writers := pipe.writers - 1 }
    ({ s with pipes := s.pipes.set index (some pipe) }, pipe.ended index)

/-- What `release_description` does about the pipes of a description it has freed -/
def dropEnds (s : State) : DescriptionKind → State × List Item
  | .pipeRead pipe => s.dropReader pipe
  | .pipeWrite pipe => s.dropWriter pipe
  | .socketPair pipe peerPipe =>
    if peerPipe = pipe then s.dropReader pipe
    else
      (((s.dropReader pipe).1.dropWriter peerPipe).1,
        (s.dropReader pipe).2 ++ ((s.dropReader pipe).1.dropWriter peerPipe).2)
  | _ => (s, [])

def releaseDescription (s : State) (index : Fin maxFileDescriptions) : State × List Item :=
  match s.descriptions[index] with
  | none => (s, [])
  | some description =>
    if description.references = 0 then (s, [])
    else if description.references - 1 = 0 then
      { s with descriptions := s.descriptions.set index none }.dropEnds description.kind
    else
      let description := { description with references := description.references - 1 }
      ({ s with descriptions := s.descriptions.set index (some description) }, [])

def destroyPipe (s : State) (index : Fin maxPipes) : State × List Item :=
  match s.pipes[index] with
  | none => (s, [])
  | some pipe => ({ s with pipes := s.pipes.set index none }, pipe.rights.map .description)

def releaseStep (s : State) : Item → State × List Item
  | .description index => s.releaseDescription index
  | .pipe index => s.destroyPipe index

def queuedRights (s : State) : Nat := total (fun pipe => pipe.elim 0 fun pipe => pipe.rights.length) s.pipes

def itemCost : Item → Nat
  | .description _ => 3
  | .pipe _ => 1

/-- A bound on the calls that releasing a list of items makes: a description has at most two pipes. -/
def releaseCost (s : State) (work : List Item) : Nat := 3 * s.queuedRights + (work.map itemCost).sum

/-- Release a list of descriptions, one after the other. -/
def releaseAll (s : State) (indices : List (Fin maxFileDescriptions)) : State :=
  drain releaseStep (s.releaseCost (indices.map .description)) s (indices.map .description)

def release (s : State) (index : Fin maxFileDescriptions) : State := s.releaseAll [index]

def releaseRecordLocks (s : State) (ownerPid : Nat) (key : LockKey) : State :=
  { s with recordLocks := s.recordLocks.map fun lock =>
      if lock.any fun lock => lock.ownerPid == ownerPid && lock.key == key then none else lock }

/-! ## The cases of a release -/

section Cases

variable {s : State} {index : Fin maxFileDescriptions} {x : FileDescription} {p : Fin maxPipes} {pipe : Pipe}

theorem releaseDescription_last (h : s.descriptions[index] = some x) (hone : x.references = 1) :
    s.releaseDescription index = { s with descriptions := s.descriptions.set index none }.dropEnds x.kind := by
  unfold releaseDescription
  rw [h]
  dsimp only
  rw [if_neg (by omega), if_pos (by omega)]

theorem releaseDescription_more (h : s.descriptions[index] = some x) (hmore : 1 < x.references) :
    s.releaseDescription index =
      ({ s with descriptions := s.descriptions.set index (some { x with references := x.references - 1 }) }, []) := by
  unfold releaseDescription
  rw [h]
  dsimp only
  rw [if_neg (by omega), if_neg (by omega)]

theorem destroyPipe_none (h : s.pipes[p] = none) : s.destroyPipe p = (s, []) := by
  unfold destroyPipe
  rw [h]

theorem destroyPipe_some (h : s.pipes[p] = some pipe) :
    s.destroyPipe p = ({ s with pipes := s.pipes.set p none }, pipe.rights.map .description) := by
  unfold destroyPipe
  rw [h]

end Cases

/-! ## The loop ends -/

theorem queuedRights_set (s : State) (index : Fin maxPipes) (entry : Option Pipe) :
    { s with pipes := s.pipes.set index entry }.queuedRights + (s.pipes[index].elim 0 fun pipe => pipe.rights.length) =
      s.queuedRights + entry.elim 0 fun pipe => pipe.rights.length :=
  total_set _ s.pipes index entry

/-- Giving up ends of pipes changes no open file, no description and no queued right, and asks for pipes only. -/
structure DropsEnds (s : State) (count : Nat) (result : State × List Item) : Prop where
  files : result.1.files = s.files
  descriptions : result.1.descriptions = s.descriptions
  rights : ∀ p : Fin maxPipes, result.1.pipes[p].map Pipe.rights = s.pipes[p].map Pipe.rights
  items : ∃ pipes : List (Fin maxPipes), pipes.length ≤ count ∧ result.2 = pipes.map .pipe

namespace DropsEnds

variable {s : State} {m n : Nat} {r r' : State × List Item} {p : Fin maxPipes}

theorem refl (s : State) (n : Nat) : DropsEnds s n (s, []) := ⟨rfl, rfl, fun _ => rfl, [], Nat.zero_le _, rfl⟩

theorem append (h : DropsEnds s m r) (h' : DropsEnds r.1 n r') : DropsEnds s (m + n) (r'.1, r.2 ++ r'.2) := by
  obtain ⟨pipes, hle, hitems⟩ := h.items
  obtain ⟨pipes', hle', hitems'⟩ := h'.items
  refine ⟨h'.files.trans h.files, h'.descriptions.trans h.descriptions, fun p => (h'.rights p).trans (h.rights p),
    pipes ++ pipes', ?_, ?_⟩
  · rw [List.length_append]
    omega
  · rw [hitems, hitems', List.map_append]

theorem setPipe {pipe pipe' : Pipe} (h : s.pipes[p] = some pipe) (hrights : pipe'.rights = pipe.rights) :
    DropsEnds s (n + 1) ({ s with pipes := s.pipes.set p (some pipe') }, pipe'.ended p) := by
  refine ⟨rfl, rfl, fun q => ?_, ?_⟩
  · by_cases hq : q = p
    · subst hq
      simp [h, hrights]
    · simp only [getElem_set_of_ne hq]
  unfold Pipe.ended
  split
  · exact ⟨[p], Nat.le_add_left 1 n, rfl⟩
  · exact ⟨[], Nat.zero_le _, rfl⟩

theorem dropReader : DropsEnds s (n + 1) (s.dropReader p) := by
  unfold State.dropReader
  split
  · exact .refl s _
  · rename_i hp
    exact .setPipe hp rfl

theorem dropWriter : DropsEnds s (n + 1) (s.dropWriter p) := by
  unfold State.dropWriter
  split
  · exact .refl s _
  · rename_i hp
    exact .setPipe hp rfl

theorem dropEnds (s : State) (kind : DescriptionKind) : DropsEnds s 2 (s.dropEnds kind) := by
  unfold State.dropEnds
  split
  · exact .dropReader
  · exact .dropWriter
  · split
    · exact .dropReader
    · exact (DropsEnds.dropReader (n := 0)).append (DropsEnds.dropWriter (n := 0))
  · exact .refl s 2

theorem queuedRights (h : DropsEnds s n r) : r.1.queuedRights = s.queuedRights := by
  refine total_congr fun p => ?_
  have hp := congrArg (fun rights => (rights.elim 0 List.length : Nat)) (h.rights p)
  simpa only [Option.elim_map, Function.comp_def] using hp

theorem cost (h : DropsEnds s n r) : (r.2.map itemCost).sum ≤ n := by
  obtain ⟨pipes, hle, hitems⟩ := h.items
  rw [hitems, List.map_map, show itemCost ∘ Item.pipe = fun _ => 1 from rfl]
  simpa using hle

end DropsEnds

theorem releaseDescription_cost (s : State) (index : Fin maxFileDescriptions) :
    (s.releaseDescription index).1.queuedRights = s.queuedRights ∧
      ((s.releaseDescription index).2.map itemCost).sum ≤ 2 := by
  unfold releaseDescription
  cases s.descriptions[index] with
  | none => exact ⟨rfl, Nat.zero_le _⟩
  | some description =>
    dsimp only
    split
    · exact ⟨rfl, Nat.zero_le _⟩
    split
    · have hends := DropsEnds.dropEnds { s with descriptions := s.descriptions.set index none } description.kind
      exact ⟨hends.queuedRights, hends.cost⟩
    · exact ⟨rfl, Nat.zero_le _⟩

/-- The rights of a buffer become items. -/
theorem destroyPipe_cost (s : State) (index : Fin maxPipes) :
    3 * (s.destroyPipe index).1.queuedRights + ((s.destroyPipe index).2.map itemCost).sum = 3 * s.queuedRights := by
  unfold destroyPipe
  cases hp : s.pipes[index] with
  | none => rfl
  | some pipe =>
    have h := queuedRights_set s index none
    have hitems : ((pipe.rights.map Item.description).map itemCost).sum = 3 * pipe.rights.length := by
      rw [List.map_map, show itemCost ∘ Item.description = fun _ => 3 from rfl, List.map_const', List.sum_replicate,
        smul_eq_mul, mul_comm]
    rw [hp] at h
    simp only [Option.elim] at h
    simp only [hitems]
    omega

theorem releaseStep_cost (s : State) (item : Item) (rest : List Item) :
    (s.releaseStep item).1.releaseCost ((s.releaseStep item).2 ++ rest) < s.releaseCost (item :: rest) := by
  unfold releaseCost
  rw [List.map_append, List.sum_append, List.map_cons, List.sum_cons]
  cases item with
  | description index =>
    obtain ⟨hrights, hitems⟩ := s.releaseDescription_cost index
    simp only [releaseStep, itemCost]
    omega
  | pipe index =>
    have h := s.destroyPipe_cost index
    simp only [releaseStep, itemCost]
    omega

/-- What each release keeps, with the items that are pending, holds when all is released. -/
theorem releaseAll_inv {inv : State → List Item → Prop}
    (hstep : ∀ s item rest, inv s (item :: rest) → inv (s.releaseStep item).1 ((s.releaseStep item).2 ++ rest))
    {s : State} {indices : List (Fin maxFileDescriptions)} (h : inv s (indices.map .description)) :
    inv (s.releaseAll indices) [] :=
  drain_inv releaseCost hstep releaseStep_cost le_rfl h

end State

end MakOS.Vfs
