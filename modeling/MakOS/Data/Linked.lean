/-
Lists threaded through a table: every entry says which entry follows it. `Path next start nodes stop`
says that following `next` from `start` visits `nodes` in order and arrives at `stop`. Redirecting
the last node of a path, or its start when it has none, is the only change such a list ever needs:
it unlinks what followed or links something new.
-/
import Mathlib.Tactic

namespace MakOS.Data

variable {ι : Type}

def Path (next : ι → Option ι) : Option ι → List ι → Option ι → Prop
  | start, [], stop => start = stop
  | start, node :: nodes, stop => start = some node ∧ Path next (next node) nodes stop

variable {next next' : ι → Option ι} {start stop : Option ι} {xs ys : List ι} {node : ι}

@[simp] theorem path_nil : Path next start [] stop ↔ start = stop := Iff.rfl

@[simp] theorem path_cons : Path next start (node :: xs) stop ↔ start = some node ∧ Path next (next node) xs stop :=
  Iff.rfl

theorem path_append : Path next start (xs ++ ys) stop ↔ ∃ middle, Path next start xs middle ∧ Path next middle ys stop := by
  induction xs generalizing start with
  | nil => simp
  | cons x xs ih => simp [ih, and_assoc]

/-- A path does not depend on what follows other nodes. -/
theorem Path.congr (h : Path next start xs stop) (hnext : ∀ x ∈ xs, next' x = next x) : Path next' start xs stop := by
  induction xs generalizing start with
  | nil => exact h
  | cons x xs ih =>
    refine ⟨h.1, ?_⟩
    rw [hnext x List.mem_cons_self]
    exact ih h.2 (List.forall_mem_cons.1 hnext).2

/-- The end of a path is where its last node leads. -/
theorem path_concat : Path next start (xs ++ [node]) stop ↔ Path next start xs (some node) ∧ next node = stop := by
  rw [path_append]
  constructor
  · rintro ⟨_, h, rfl, hstop⟩
    exact ⟨h, hstop⟩
  · rintro ⟨h, hstop⟩
    exact ⟨_, h, rfl, hstop⟩

theorem Path.redirect {stop' : Option ι} (h : Path next start (xs ++ [node]) stop) (hfresh : node ∉ xs)
    (hnode : next' node = stop') (hnext : ∀ x, x ≠ node → next' x = next x) :
    Path next' start (xs ++ [node]) stop' := by
  rw [path_concat] at h ⊢
  refine ⟨h.1.congr fun x hx => hnext x ?_, hnode⟩
  rintro rfl
  exact hfresh hx

theorem Path.start_eq (h : Path next start xs none) : start = xs.head? := by
  cases xs with
  | nil => exact h
  | cons x xs => exact h.1

end MakOS.Data
