/-
Tables with a fixed number of slots, some of them used. What such a table holds is the list of its
used entries, up to the order of the slots.
-/
import Mathlib.Tactic
import Mathlib.Data.List.Perm.Basic
import Mathlib.Data.List.FinRange

namespace MakOS.Data

variable {α : Type*} {N : Nat}

structure Slots (α : Type*) (N : Nat) where
  vector : Vector α N
  deriving DecidableEq, Repr

/-- A slot is a number below the size, so that every access is in range. -/
instance slotsGetElem : GetElem (Slots α N) (Fin N) α fun _ _ => True := ⟨fun table i _ => table.vector.get i⟩

namespace Slots

/-- `[entry; N]` -/
def replicate (N : Nat) (entry : α) : Slots α N := ⟨Vector.replicate N entry⟩

def ofList (entries : List α) (h : entries.length = N) : Slots α N := ⟨⟨entries.toArray, h⟩⟩

def set (table : Slots α N) (i : Fin N) (entry : α) : Slots α N := ⟨table.vector.set i.val entry i.isLt⟩

def toList (table : Slots α N) : List α := table.vector.toList

def map {β : Type*} (f : α → β) (table : Slots α N) : Slots β N := ⟨table.vector.map f⟩

end Slots

section Entries

variable {table : Slots α N} {i j : Fin N} {x : α}

@[simp] theorem getElem_replicate : (Slots.replicate N x)[i] = x := Vector.getElem_replicate _

@[simp] theorem getElem_set_self : (table.set i x)[i] = x := Vector.getElem_set_self _

theorem getElem_set_of_ne (h : j ≠ i) : (table.set i x)[j] = table[j] :=
  Vector.getElem_set_ne i.isLt j.isLt fun heq => h (Fin.ext heq.symm)

@[grind =] theorem getElem_set : (table.set i x)[j] = if j = i then x else table[j] := by
  split
  · rename_i h
    subst h
    exact getElem_set_self
  · rename_i h
    exact getElem_set_of_ne h

@[simp] theorem Slots.set_set {y : α} : (table.set i x).set i y = table.set i y := by
  unfold Slots.set
  rw [Vector.set_set]

@[simp] theorem Slots.length_toList : table.toList.length = N := Vector.length_toList

theorem Slots.mem_toList : x ∈ table.toList ↔ ∃ i : Fin N, table[i] = x := by
  rw [Slots.toList, Vector.mem_toList_iff, Vector.mem_iff_getElem, Fin.exists_iff]
  rfl

theorem toList_eq_map (table : Slots α N) : table.toList = (List.finRange N).map fun i => table[i] := by
  apply List.ext_getElem
  · simp
  · intro i h₁ h₂
    rw [List.getElem_map, List.getElem_finRange]
    exact Vector.getElem_toList _

@[simp] theorem Slots.toList_replicate : (Slots.replicate N x).toList = List.replicate N x := Vector.toList_replicate

@[simp] theorem getElem_map {β : Type*} (f : α → β) : (table.map f)[i] = f table[i] := Vector.getElem_map f i.isLt

@[simp] theorem Slots.map_replicate {β : Type*} (f : α → β) :
    (Slots.replicate N x).map f = Slots.replicate N (f x) := by
  rw [Slots.map, Slots.replicate, Vector.map_replicate]
  rfl

def others (i : Fin N) (table : Slots α N) : List α := table.toList.eraseIdx i

theorem toList_perm (table : Slots α N) (i : Fin N) : table.toList.Perm (table[i] :: others i table) := by
  have hi : i.val < table.toList.length := by simp
  have h := List.getElem_cons_eraseIdx_perm hi
  exact h.symm

theorem toList_set_perm (table : Slots α N) (i : Fin N) (x : α) :
    (table.set i x).toList.Perm (x :: others i table) := by
  exact List.set_perm_cons_eraseIdx (by simp) x

end Entries

def slot? (p : α → Bool) (table : Slots α N) : Option (Fin N) := (List.finRange N).find? fun i => p table[i]

/-- `iter().position(p)`: the first slot whose entry passes the test, in one pass over the entries. -/
def position (p : α → Bool) (table : Slots α N) : Option (Fin N) :=
  (table.toList.findFinIdx? p).map (Fin.cast Slots.length_toList)

def slotsWhere (p : α → Bool) (table : Slots α N) : List (Fin N) := (List.finRange N).filter fun i => p table[i]

def total (f : α → Nat) (table : Slots α N) : Nat := (table.toList.map f).sum

/-- The used entries, in the order of their slots. -/
def occupied (used : α → Bool) (table : Slots α N) : List α := table.toList.filter used

/-- `iter().filter(|entry| !entry.used()).count()` -/
def vacant (used : α → Bool) (table : Slots α N) : Nat := table.toList.countP fun entry => !used entry

variable {p used : α → Bool} {table : Slots α N} {i j : Fin N} {x : α}

theorem slot?_some (h : slot? p table = some i) : p table[i] = true := by
  have h' := List.find?_some h
  exact h'

theorem slot?_eq_none : slot? p table = none ↔ ∀ i : Fin N, p table[i] = false := by
  simp [slot?]

theorem position_eq_some : position p table = some i ↔ p table[i] = true ∧ ∀ j : Fin N, j < i → p table[j] = false := by
  have hget : ∀ k : Fin table.toList.length, table.toList[k] = table[Fin.cast Slots.length_toList k] :=
    fun k => Vector.getElem_toList _
  unfold position
  rw [Option.map_eq_some_iff]
  constructor
  · rintro ⟨k, hk, rfl⟩
    obtain ⟨hp, hbefore⟩ := List.findFinIdx?_eq_some_iff.1 hk
    refine ⟨hp, fun j hj => ?_⟩
    have hj' := hbefore (Fin.cast Slots.length_toList.symm j) hj
    rw [Bool.not_eq_true] at hj'
    exact hj'
  · rintro ⟨hp, hbefore⟩
    refine ⟨Fin.cast Slots.length_toList.symm i, List.findFinIdx?_eq_some_iff.2 ⟨?_, fun j hj => ?_⟩, rfl⟩
    · exact hp
    · rw [hget, Bool.not_eq_true]
      exact hbefore _ hj

theorem position_some (h : position p table = some i) : p table[i] = true := (position_eq_some.1 h).1

theorem position_eq_none : position p table = none ↔ ∀ i : Fin N, p table[i] = false := by
  unfold position
  rw [Option.map_eq_none_iff, List.findFinIdx?_eq_none_iff]
  constructor
  · intro h i
    simpa using h table[i] (Slots.mem_toList.2 ⟨i, rfl⟩)
  · rintro h x hx
    obtain ⟨i, rfl⟩ := Slots.mem_toList.1 hx
    simp [h i]

/-- A search that only one slot can pass finds that slot. -/
theorem position_eq_some_of_unique (h : ∀ i j : Fin N, p table[i] = true → p table[j] = true → i = j) :
    position p table = some i ↔ p table[i] = true := by
  constructor
  · exact position_some
  intro hi
  cases hfound : position p table with
  | none =>
    rw [position_eq_none.1 hfound i] at hi
    cases hi
  | some j => rw [h i j hi (position_some hfound)]

theorem position_congr {β : Type*} {q : β → Bool} {table' : Slots β N} (h : ∀ i : Fin N, p table[i] = q table'[i]) :
    position p table = position q table' := by
  ext i
  rw [position_eq_some, position_eq_some]
  simp only [h]

theorem mem_slotsWhere : i ∈ slotsWhere p table ↔ p table[i] = true := by
  simp [slotsWhere]

theorem slotsWhere_nodup (p : α → Bool) (table : Slots α N) : (slotsWhere p table).Nodup :=
  (List.nodup_finRange N).filter _

/-- Writing one slot changes a sum by what the entry there counts. -/
theorem total_set (f : α → Nat) (table : Slots α N) (i : Fin N) (x : α) :
    total f (table.set i x) + f table[i] = total f table + f x := by
  have hold := ((toList_perm table i).map f).sum_eq
  have hnew := ((toList_set_perm table i x).map f).sum_eq
  rw [List.map_cons, List.sum_cons] at hold hnew
  unfold total
  omega

theorem total_congr {β : Type*} {f : α → Nat} {g : β → Nat} {table : Slots α N} {table' : Slots β N}
    (h : ∀ i : Fin N, f table[i] = g table'[i]) : total f table = total g table' := by
  unfold total
  rw [toList_eq_map, toList_eq_map, List.map_map, List.map_map]
  exact congrArg List.sum (List.map_congr_left fun i _ => h i)

theorem countP_toList (p : α → Bool) (table : Slots α N) :
    table.toList.countP p = (List.finRange N).countP fun i => p table[i] := by
  rw [toList_eq_map, List.countP_map]
  rfl

theorem countP_congr_slots {p q : α → Bool} {table table' : Slots α N} (h : ∀ i : Fin N, p table[i] = q table'[i]) :
    table.toList.countP p = table'.toList.countP q := by
  rw [countP_toList, countP_toList]
  exact List.countP_congr fun i _ => by rw [h i]

theorem countP_set (p : α → Bool) (table : Slots α N) (i : Fin N) (x : α) :
    (table.set i x).toList.countP p + (if p table[i] then 1 else 0) =
      table.toList.countP p + (if p x then 1 else 0) := by
  have hold := (toList_perm table i).countP_eq p
  have hnew := (toList_set_perm table i x).countP_eq p
  rw [List.countP_cons] at hold hnew
  omega

theorem total_replicate (f : α → Nat) (x : α) (h : f x = 0) : total f (Slots.replicate N x) = 0 := by
  rw [total, Slots.toList_replicate, List.map_replicate, h, List.sum_replicate_nat, Nat.mul_zero]

theorem mem_occupied : x ∈ occupied used table ↔ (∃ i : Fin N, table[i] = x) ∧ used x = true := by
  rw [occupied, List.mem_filter, Slots.mem_toList]

/-- What an unused slot is given joins the used entries. -/
theorem occupied_set (hfree : used table[i] = false) (hx : used x = true) :
    (occupied used (table.set i x)).Perm (x :: occupied used table) := by
  have hold := (toList_perm table i).filter used
  have hnew := (toList_set_perm table i x).filter used
  rw [List.filter_cons_of_neg (by simp [hfree])] at hold
  rw [List.filter_cons_of_pos hx] at hnew
  exact hnew.trans (hold.symm.cons x)

end MakOS.Data
