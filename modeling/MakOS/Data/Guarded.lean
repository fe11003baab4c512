/-
Runs whose every event meets a condition on the state it finds, and the rule that an invariant of such
steps holds along the run. A prefix of such a run is one, so what holds at the end holds in between.
-/
import Mathlib.Data.List.Basic

namespace MakOS.Data

variable {σ ε : Type}

def Guarded (step : σ → ε → σ) (admits : σ → ε → Prop) : σ → List ε → Prop
  | _, [] => True
  | s, event :: rest => admits s event ∧ Guarded step admits (step s event) rest

instance decidableGuarded (step : σ → ε → σ) (admits : σ → ε → Prop) [∀ s event, Decidable (admits s event)] :
    ∀ s events, Decidable (Guarded step admits s events)
  | _, [] => isTrue trivial
  | s, event :: rest => @instDecidableAnd _ _ _ (decidableGuarded step admits (step s event) rest)

variable {step : σ → ε → σ} {admits : σ → ε → Prop} {inv : σ → Prop}

theorem Guarded.foldl {events : List ε} (hstep : ∀ s event, inv s → admits s event → inv (step s event)) :
    ∀ {s}, inv s → Guarded step admits s events → inv (events.foldl step s) := by
  induction events with
  | nil => exact fun h _ => h
  | cons event rest ih =>
    rintro s h ⟨hfirst, hrest⟩
    exact ih (hstep s event h hfirst) hrest

theorem guarded_append {first rest : List ε} :
    ∀ {s}, Guarded step admits s (first ++ rest) ↔
      Guarded step admits s first ∧ Guarded step admits (first.foldl step s) rest := by
  induction first with
  | nil => exact (iff_of_eq (true_and _)).symm
  | cons event others ih => exact (and_congr_right fun _ => ih).trans and_assoc.symm

theorem guarded_of_forall {events : List ε} (h : ∀ event ∈ events, ∀ s, admits s event) :
    ∀ s, Guarded step admits s events := by
  induction events with
  | nil => exact fun _ => trivial
  | cons event rest ih =>
    intro s
    exact ⟨h event List.mem_cons_self s, ih (List.forall_mem_cons.1 h).2 _⟩

end MakOS.Data
