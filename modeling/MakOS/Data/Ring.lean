/-
Ring buffers of fixed capacity: an array, the position of the oldest entry and the number of
entries. `toList` is the queue a ring stands for; pushing and popping are appending to it and taking
its head, wherever the entries are.
-/
import Mathlib.Tactic

namespace MakOS.Data

variable {α : Type} {capacity : Nat}

structure Ring (α : Type) (capacity : Nat) where
  entries : Vector α capacity
  head : Nat
  length : Nat
  inside : head < capacity
  fits : length ≤ capacity

namespace Ring

def empty (h : 0 < capacity) (blank : α) : Ring α capacity :=
  ⟨Vector.replicate capacity blank, 0, 0, h, Nat.zero_le _⟩

/-- The array position of the entry with the given number, counted from the oldest. -/
def position (ring : Ring α capacity) (index : Nat) : Nat := (ring.head + index) % capacity

theorem position_lt (ring : Ring α capacity) (index : Nat) : ring.position index < capacity :=
  Nat.mod_lt _ (Nat.zero_lt_of_lt ring.inside)

def entry (ring : Ring α capacity) (index : Nat) : α := ring.entries.get ⟨ring.position index, ring.position_lt index⟩

def push (ring : Ring α capacity) (entry : α) : Option (Ring α capacity) :=
  if h : ring.length < capacity then
    some { ring with
           entries := ring.entries.set (ring.position ring.length) entry (ring.position_lt _)
           length := ring.length + 1
           fits := h }
  else none

def front (ring : Ring α capacity) : Option α :=
  if ring.length = 0 then none else some (ring.entries.get ⟨ring.head, ring.inside⟩)

/-- Take the oldest entry out and blank its place. -/
def pop (blank : α) (ring : Ring α capacity) : Option (α × Ring α capacity) :=
  if ring.length = 0 then none
  else
    some (ring.entries.get ⟨ring.head, ring.inside⟩,
      { entries := ring.entries.set ring.head blank ring.inside
        head := (ring.head + 1) % capacity
        length := ring.length - 1
        inside := Nat.mod_lt _ (Nat.zero_lt_of_lt ring.inside)
        fits := (Nat.sub_le _ _).trans ring.fits })

/-- The entries, oldest first. -/
def toList (ring : Ring α capacity) : List α := (List.range ring.length).map ring.entry

@[simp] theorem length_toList (ring : Ring α capacity) : ring.toList.length = ring.length := by simp [toList]

@[simp] theorem toList_empty (h : 0 < capacity) (blank : α) : (empty h blank : Ring α capacity).toList = [] := rfl

variable {i : Nat}

theorem position_eq (ring : Ring α capacity) (hi : i < capacity) :
    ring.position i = if ring.head + i < capacity then ring.head + i else ring.head + i - capacity := by
  have := ring.inside
  unfold position
  split
  · rename_i h; exact Nat.mod_eq_of_lt h
  · rw [Nat.mod_eq_sub_mod (by omega), Nat.mod_eq_of_lt (by omega)]

theorem position_inj (ring : Ring α capacity) {j : Nat} (hi : i < capacity) (hj : j < capacity)
    (h : ring.position i = ring.position j) : i = j := by
  rw [ring.position_eq hi, ring.position_eq hj] at h
  split at h <;> split at h <;> omega

variable {ring ring' : Ring α capacity} {x : α}

theorem push_some (h : ring.push x = some ring') : ring'.toList = ring.toList ++ [x] := by
  unfold push at h
  split at h
  · rename_i hroom
    cases h
    have hentry : ∀ i < ring.length, entry (Ring.mk (ring.entries.set (ring.position ring.length) x (ring.position_lt _))
        ring.head (ring.length + 1) ring.inside hroom) i = ring.entry i := by
      intro i hi
      have hne : ring.position ring.length ≠ ring.position i := fun e => by
        have := ring.position_inj hroom (hi.trans hroom) e
        omega
      exact Vector.getElem_set_ne (ring.position_lt _) (ring.position_lt _) hne
    simp only [toList, List.range_succ, List.map_append]
    congr 1
    · exact List.map_congr_left fun i hi => hentry i (List.mem_range.1 hi)
    · exact congrArg (· :: []) (Vector.getElem_set_self _)
  · cases h

theorem push_isSome : (ring.push x).isSome ↔ ring.length < capacity := by
  unfold push
  split <;> simp_all

theorem front_eq (ring : Ring α capacity) : ring.front = ring.toList.head? := by
  have hzero : ring.position 0 = ring.head := Nat.mod_eq_of_lt ring.inside
  unfold front toList
  cases hn : ring.length with
  | zero => simp
  | succ n => simp [List.range_succ_eq_map, entry, hzero]

variable {blank : α}

theorem pop_some (h : ring.pop blank = some (x, ring')) : ring.toList = x :: ring'.toList := by
  have hfits := ring.fits
  have hinside := ring.inside
  have hzero : ring.position 0 = ring.head := Nat.mod_eq_of_lt hinside
  unfold pop at h
  split at h
  · cases h
  rename_i hne
  cases h
  obtain ⟨n, hn⟩ := Nat.exists_eq_succ_of_ne_zero hne
  have hlen : ring.length = n + 1 := hn
  simp only [toList, hlen, List.range_succ_eq_map, List.map_cons, List.map_map]
  congr 1
  · simp only [entry, hzero]
  refine List.map_congr_left fun i hi => ?_
  have hi' := List.mem_range.1 hi
  have hshift : ((ring.head + 1) % capacity + i) % capacity = ring.position (i + 1) := by
    rw [Nat.mod_add_mod, position, Nat.add_assoc, Nat.add_comm 1]
  have hother : ring.head ≠ ring.position (i + 1) := fun e => by
    have := ring.position_inj (by omega) (by omega) (hzero.trans e)
    omega
  simp only [entry, position, hshift]
  exact (Vector.getElem_set_ne _ _ hother).symm

theorem pop_eq_none : ring.pop blank = none ↔ ring.toList = [] := by
  unfold pop toList
  split <;> simp_all

end Ring

end MakOS.Data
