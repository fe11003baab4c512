/-
Counting over a table: what changing one entry does to the number of entries with a property and to
the number of times something occurs in the lists the entries hold.
-/
import Mathlib.Tactic

namespace MakOS.Data

variable {α β : Type} {n i : Nat}

theorem countP_set_add (p : α → Bool) : ∀ {l : List α} {i : Nat} {x : α} (y : α), l[i]? = some x →
    (l.set i y).countP p + (if p x then 1 else 0) = l.countP p + (if p y then 1 else 0)
  | [], _, _, _, h => by simp at h
  | a :: l, 0, x, y, h => by
    obtain rfl : a = x := by simpa using h
    simp only [List.set_cons_zero, List.countP_cons]
    omega
  | a :: l, i + 1, x, y, h => by
    have ih := countP_set_add p y (by simpa using h)
    simp only [List.set_cons_succ, List.countP_cons]
    omega

theorem count_flatMap_set_add [DecidableEq β] (f : α → List β) (b : β) : ∀ {l : List α} {i : Nat} {x : α} (y : α),
    l[i]? = some x → ((l.set i y).flatMap f).count b + (f x).count b = (l.flatMap f).count b + (f y).count b
  | [], _, _, _, h => by simp at h
  | a :: l, 0, x, y, h => by
    obtain rfl : a = x := by simpa using h
    simp only [List.set_cons_zero, List.flatMap_cons, List.count_append]
    omega
  | a :: l, i + 1, x, y, h => by
    have ih := count_flatMap_set_add f b y (by simpa using h)
    simp only [List.set_cons_succ, List.flatMap_cons, List.count_append]
    omega

variable {v : Vector α n} {x : α}

theorem toList_getElem? (h : v[i]? = some x) : v.toList[i]? = some x := by
  simpa using h

theorem vector_ext {w : Vector α n} (h : ∀ i : Nat, v[i]? = w[i]?) : v = w := by
  refine Vector.ext fun i hi => ?_
  have := h i
  rwa [Vector.getElem?_eq_getElem hi, Vector.getElem?_eq_getElem hi, Option.some.injEq] at this

theorem setIfInBounds_cases {j : Nat} {y : α} (h : (v.setIfInBounds i x)[j]? = some y) : i = j ∧ x = y ∨ v[j]? = some y := by
  rw [Vector.getElem?_setIfInBounds] at h
  split at h
  · rename_i hij
    split at h
    · exact .inl ⟨hij, Option.some.inj h⟩
    · cases h
  · exact .inr h

variable {p : α → Bool}

theorem findIdx?_toList (h : v.toList.findIdx? p = some i) : ∃ x, v[i]? = some x ∧ p x = true := by
  obtain ⟨hlt, hp, -⟩ := List.findIdx?_eq_some_iff_getElem.1 h
  exact ⟨v.toList[i], by simp, hp⟩

theorem exists_findIdx?_toList (h : 0 < v.toList.countP p) : ∃ i, v.toList.findIdx? p = some i := by
  rw [List.countP_pos_iff] at h
  refine Option.isSome_iff_exists.1 ?_
  rw [List.findIdx?_isSome]
  exact List.any_eq_true.2 h

theorem countP_setIfInBounds (h : v[i]? = some x) (y : α) :
    (v.setIfInBounds i y).toList.countP p + (if p x then 1 else 0) = v.toList.countP p + (if p y then 1 else 0) := by
  rw [Vector.toList_setIfInBounds]
  exact countP_set_add p y (toList_getElem? h)

variable {f : α → List β}

theorem count_setIfInBounds [DecidableEq β] (h : v[i]? = some x) (y : α) (b : β) :
    ((v.setIfInBounds i y).toList.flatMap f).count b + (f x).count b = (v.toList.flatMap f).count b + (f y).count b := by
  rw [Vector.toList_setIfInBounds]
  exact count_flatMap_set_add f b y (toList_getElem? h)

theorem mem_toList_flatMap {b : β} : b ∈ v.toList.flatMap f ↔ ∃ (i : Nat) (x : α), v[i]? = some x ∧ b ∈ f x := by
  simp only [List.mem_flatMap]
  constructor
  · rintro ⟨x, hx, hb⟩
    obtain ⟨i, hi⟩ := List.mem_iff_getElem?.1 hx
    exact ⟨i, x, by simpa using hi, hb⟩
  · rintro ⟨i, x, hi, hb⟩
    exact ⟨x, List.mem_iff_getElem?.2 ⟨i, toList_getElem? hi⟩, hb⟩

end MakOS.Data
