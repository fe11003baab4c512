/-
Depth-first search for a cycle in a finite directed graph given by its successor lists. The search
marks the nodes of its current path, reports a cycle when it meets a marked node, and unmarks each
node it leaves without one; `depth` bounds its recursion and is never used up on a graph with fewer
nodes than that.
-/
import Mathlib.Logic.Relation
import Mathlib.Data.Finset.Card
import Mathlib.Data.Finset.Insert

namespace MakOS.Graph

variable {α : Type} [DecidableEq α]

def Edge (succs : α → List α) (a b : α) : Prop := b ∈ succs a

/-- Search from the nodes of a list in turn, until one of them finds a cycle. -/
def anyOf (search : α → (α → Bool) → Bool × (α → Bool)) : List α → (α → Bool) → Bool × (α → Bool)
  | [], visiting => (false, visiting)
  | node :: rest, visiting =>
    match search node visiting with
    | (true, visiting') => (true, visiting')
    | (false, visiting') => anyOf search rest visiting'

def cycleFrom (succs : α → List α) : (depth : Nat) → α → (α → Bool) → Bool × (α → Bool)
  | 0, _, visiting => (true, visiting)
  | depth + 1, node, visiting =>
    if visiting node then (true, visiting)
    else
      match anyOf (cycleFrom succs depth) (succs node) (Function.update visiting node true) with
      | (true, visiting') => (true, visiting')
      | (false, visiting') => (false, Function.update visiting' node false)

/-! ## One level of the search -/

/-- The search leaves the marks as it found them unless it finds a cycle. -/
def Restores (search : α → (α → Bool) → Bool × (α → Bool)) : Prop :=
  ∀ node visiting, (search node visiting).1 = false → (search node visiting).2 = visiting

omit [DecidableEq α] in
theorem anyOf_eq {search : α → (α → Bool) → Bool × (α → Bool)} (hs : Restores search) (visiting : α → Bool) :
    ∀ nodes : List α, (anyOf search nodes visiting).1 = nodes.any (fun node => (search node visiting).1) ∧
      ((anyOf search nodes visiting).1 = false → (anyOf search nodes visiting).2 = visiting)
  | [] => ⟨rfl, fun _ => rfl⟩
  | node :: rest => by
    have hr := hs node visiting
    rw [anyOf, List.any_cons]
    generalize search node visiting = result at hr ⊢
    obtain ⟨found, visiting'⟩ := result
    cases found with
    | true => exact ⟨rfl, fun h => by cases h⟩
    | false =>
      obtain rfl : visiting' = visiting := hr rfl
      exact anyOf_eq hs visiting' rest

/-- A search that has depth left reports a cycle at a marked node and where a search from a successor does. -/
theorem cycleFrom_succ {succs : α → List α} {depth : Nat} (hs : Restores (cycleFrom succs depth)) (node : α)
    (visiting : α → Bool) :
    (cycleFrom succs (depth + 1) node visiting).1 = (visiting node ||
      (succs node).any fun next => (cycleFrom succs depth next (Function.update visiting node true)).1) ∧
      ((cycleFrom succs (depth + 1) node visiting).1 = false →
        (cycleFrom succs (depth + 1) node visiting).2 = visiting) := by
  rw [← (anyOf_eq hs _ (succs node)).1]
  have hrest := (anyOf_eq hs (Function.update visiting node true) (succs node)).2
  unfold cycleFrom
  split
  · simp_all
  rename_i hv
  generalize anyOf (cycleFrom succs depth) (succs node) (Function.update visiting node true) = result at hrest ⊢
  obtain ⟨found, visiting'⟩ := result
  cases found with
  | true => simp
  | false =>
    obtain rfl := hrest rfl
    simp [Bool.eq_false_iff.2 hv]

theorem restores_cycleFrom (succs : α → List α) : ∀ depth, Restores (cycleFrom succs depth)
  | 0, _, _, h => by cases h
  | depth + 1, node, visiting, h => (cycleFrom_succ (restores_cycleFrom succs depth) node visiting).2 h

variable {succs : α → List α} {depth : Nat} {node : α} {visiting : α → Bool}

/-- What a search that finds no cycle has seen. -/
theorem cycleFrom_false (h : (cycleFrom succs (depth + 1) node visiting).1 = false) : visiting node = false ∧
      ∀ next ∈ succs node, (cycleFrom succs depth next (Function.update visiting node true)).1 = false := by
  rw [(cycleFrom_succ (restores_cycleFrom succs depth) node visiting).1] at h
  simpa using h

/-! ## The whole search -/

/-- Nothing marked can be reached from a node without a cycle. -/
theorem unmarked_of_cycleFrom_false : ∀ {depth : Nat} {node : α} {visiting : α → Bool},
    (cycleFrom succs depth node visiting).1 = false → ∀ m, Relation.ReflTransGen (Edge succs) node m → visiting m = false
  | 0, _, _, h => by cases h
  | depth + 1, node, visiting, h => by
    obtain ⟨hv, hnext⟩ := cycleFrom_false h
    intro m hm
    rcases hm.cases_head with rfl | ⟨next, hedge, hm⟩
    · exact hv
    have := unmarked_of_cycleFrom_false (hnext next hedge) m hm
    by_cases he : m = node
    · rw [he]; exact hv
    · rwa [Function.update_of_ne he] at this

/-- No cycle goes through a node the search finds none from. -/
theorem no_cycle_of_cycleFrom_false
    (h : (cycleFrom succs depth node visiting).1 = false) : ¬ Relation.TransGen (Edge succs) node node := by
  cases depth with
  | zero => cases h
  | succ depth =>
    obtain ⟨-, hnext⟩ := cycleFrom_false h
    intro hcycle
    obtain ⟨next, hedge, hback⟩ := Relation.TransGen.head'_iff.1 hcycle
    have := unmarked_of_cycleFrom_false (hnext next hedge) node hback
    rw [Function.update_self] at this
    cases this

variable {nodes : Finset α}

/-- What the search reports is a cycle. The marked nodes are on a path to the current one, so either
that one closes a cycle or the path is too short to have used up the depth. -/
theorem cycle_of_cycleFrom_true
    (hclosed : ∀ a ∈ nodes, ∀ b ∈ succs a, b ∈ nodes) : ∀ {depth : Nat} {node : α} {visiting : α → Bool} {path : Finset α},
    node ∈ nodes → path ⊆ nodes → nodes.card < path.card + depth → (∀ m, visiting m = true ↔ m ∈ path) →
    (∀ m ∈ path, Relation.TransGen (Edge succs) m node) → (cycleFrom succs depth node visiting).1 = true →
    ∃ m, Relation.TransGen (Edge succs) m m
  | 0, node, visiting, path, _, hsub, hcard, _, _, _ => by
    have := Finset.card_le_card hsub
    omega
  | depth + 1, node, visiting, path, hnode, hsub, hcard, hmarks, hpath, h => by
    rw [(cycleFrom_succ (restores_cycleFrom succs depth) node visiting).1, Bool.or_eq_true, List.any_eq_true] at h
    rcases h with hv | ⟨next, hedge, h⟩
    · exact ⟨node, hpath node ((hmarks node).1 hv)⟩
    by_cases hin : node ∈ path
    · exact ⟨node, hpath node hin⟩
    have hmarks' : ∀ m, Function.update visiting node true m = true ↔ m ∈ insert node path := by
      intro m
      by_cases hm : m = node
      · simp [hm]
      · simp [hm, hmarks m]
    have hpath' : ∀ m ∈ insert node path, Relation.TransGen (Edge succs) m next := by
      intro m hm
      rcases Finset.mem_insert.1 hm with rfl | hm
      · exact .single hedge
      · exact (hpath m hm).tail hedge
    refine cycle_of_cycleFrom_true hclosed (hclosed node hnode next hedge)
      (Finset.insert_subset hnode hsub) ?_ hmarks' hpath' h
    rw [Finset.card_insert_of_notMem hin]
    omega

/-- With depth for every node, a search without marks finds no cycle from any node exactly when
the graph has none. -/
theorem cycleFrom_iff (hclosed : ∀ a ∈ nodes, ∀ b ∈ succs a, b ∈ nodes)
    (hedges : ∀ a b, b ∈ succs a → a ∈ nodes) (hd : nodes.card < depth) :
    (∀ node ∈ nodes, (cycleFrom succs depth node fun _ => false).1 = false) ↔
      ∀ m, ¬ Relation.TransGen (Edge succs) m m := by
  constructor
  · intro h m hcycle
    obtain ⟨next, hedge, -⟩ := Relation.TransGen.head'_iff.1 hcycle
    exact no_cycle_of_cycleFrom_false (h m (hedges m next hedge)) hcycle
  intro hno node hnode
  by_contra h
  rw [Bool.not_eq_false] at h
  have hcard : nodes.card < (∅ : Finset α).card + depth := by simpa using hd
  obtain ⟨m, hm⟩ := cycle_of_cycleFrom_true hclosed hnode (Finset.empty_subset _) hcard (by simp) (by simp) h
  exact hno m hm

end MakOS.Graph
