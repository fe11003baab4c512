/-
Working through a list of pending items, depth first: the items a step produces come before those that
were there. This is how a recursion over a shared state reads when its calls are made one at a time. The
loop counts its steps; `cost` is a bound on them that each step lowers, so a loop that may take that many
steps ends with nothing pending.
-/
import Mathlib.Tactic

namespace MakOS.Data

variable {σ ι : Type}

def drain (step : σ → ι → σ × List ι) : (steps : Nat) → σ → List ι → σ
  | 0, s, _ => s
  | _ + 1, s, [] => s
  | steps + 1, s, item :: rest => drain step steps (step s item).1 ((step s item).2 ++ rest)

variable {step : σ → ι → σ × List ι} {inv : σ → List ι → Prop}

/-- An invariant that speaks about the pending items holds at the end with none of them left. -/
theorem drain_inv (cost : σ → List ι → Nat)
    (hstep : ∀ s item rest, inv s (item :: rest) → inv (step s item).1 ((step s item).2 ++ rest))
    (hcost : ∀ s item rest, cost (step s item).1 ((step s item).2 ++ rest) < cost s (item :: rest)) :
    ∀ {steps : Nat} {s : σ} {work : List ι}, cost s work ≤ steps → inv s work → inv (drain step steps s work) [] := by
  intro steps
  induction steps with
  | zero =>
    intro s work hle h
    cases work with
    | nil => exact h
    | cons item rest =>
      -- a pending item costs something
      have := hcost s item rest
      omega
  | succ steps ih =>
    intro s work hle h
    cases work with
    | nil => exact h
    | cons item rest =>
      have hlt := hcost s item rest
      exact ih (by omega) (hstep s item rest h)

end MakOS.Data
