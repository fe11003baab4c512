/-
Computations on a state that may fail. A failed computation keeps what it did to the state, so that
whether a failure leaves the state alone is something to prove.
-/
import Mathlib.Tactic

namespace MakOS.Data

variable {σ ε α β : Type}

def Act (σ ε α : Type) : Type := σ → Except ε α × σ

namespace Act

/-- Go on with the value of a computation, or stop with its error. -/
def next (f : α → Act σ ε β) : Except ε α × σ → Except ε β × σ
  | (.ok a, s) => f a s
  | (.error e, s) => (.error e, s)

instance monad : Monad (Act σ ε) where
  pure a := fun s => (.ok a, s)
  bind x f := fun s => next f (x s)

def fail (e : ε) : Act σ ε α := fun s => (.error e, s)

def get : Act σ ε σ := fun s => (.ok s, s)

def modify (f : σ → σ) : Act σ ε Unit := fun s => (.ok (), f s)

def look (f : σ → Except ε α) : Act σ ε α := fun s => (f s, s)

/-- Stop with the error unless the state passes the test. -/
def guard (test : σ → Bool) (e : ε) : Act σ ε Unit := fun s => (if test s then .ok () else .error e, s)

/-- Do something for each item of a list in turn. -/
def each {ι : Type} (f : ι → Act σ ε Unit) : List ι → Act σ ε Unit
  | [] => pure ()
  | item :: rest => do
    f item
    each f rest

@[simp] theorem pure_apply (a : α) (s : σ) : (pure a : Act σ ε α) s = (.ok a, s) := rfl
@[simp] theorem fail_apply (e : ε) (s : σ) : (fail e : Act σ ε α) s = (.error e, s) := rfl
@[simp] theorem get_apply (s : σ) : (get : Act σ ε σ) s = (.ok s, s) := rfl
@[simp] theorem modify_apply (f : σ → σ) (s : σ) : (modify f : Act σ ε Unit) s = (.ok (), f s) := rfl
@[simp] theorem look_apply (f : σ → Except ε α) (s : σ) : look f s = (f s, s) := rfl

theorem guard_apply (test : σ → Bool) (e : ε) (s : σ) :
    (guard test e : Act σ ε Unit) s = (if test s then .ok () else .error e, s) := rfl

theorem bind_apply (x : Act σ ε α) (f : α → Act σ ε β) (s : σ) : (x >>= f) s = next f (x s) := rfl

variable {x : Act σ ε α} {f : α → Act σ ε β} {s s' : σ} {a : α}

theorem bind_of_ok (h : x s = (.ok a, s')) : (x >>= f) s = f a s' := by
  rw [bind_apply, h]; rfl

variable {e : ε}

theorem bind_of_error (h : x s = (.error e, s')) : (x >>= f) s = (.error e, s') := by
  rw [bind_apply, h]; rfl

variable {g : σ → Except ε α}

theorem bind_look (h : g s = .ok a) : (look g >>= f) s = f a s := bind_of_ok (by rw [look_apply, h])

variable {test : σ → Bool}

theorem bind_guard {f : Unit → Act σ ε β} (h : test s = true) : (guard test e >>= f) s = f () s := bind_of_ok (by rw [guard_apply, if_pos h])

variable {b : β}

theorem look_ok (h : look g s = (.ok a, s')) : g s = .ok a ∧ s' = s := by
  cases h' : g s with
  | error e => rw [look_apply, h'] at h; cases h
  | ok b => rw [look_apply, h'] at h; cases h; exact ⟨rfl, rfl⟩

theorem guard_ok {u : Unit} (h : (guard test e : Act σ ε Unit) s = (.ok u, s')) : test s = true ∧ s' = s := by
  rw [guard_apply] at h
  split at h
  · rename_i ht; cases h; exact ⟨ht, rfl⟩
  · cases h

/-! ## Failures without a trace -/

/-- If the computation fails from the given state, it leaves the state as it was. -/
def AtomicAt (s : σ) (x : Act σ ε α) : Prop := ∀ e s', x s = (.error e, s') → s' = s

/-- The computation fails and leaves the state as it was, or it ends well with the property. -/
def Meets (s : σ) (x : Act σ ε α) (Q : α → σ → Prop) : Prop :=
  match x s with
  | (.error _, s') => s' = s
  | (.ok a, s') => Q a s'

section Meets

variable {P : α → σ → Prop} {Q : β → σ → Prop}

theorem Meets.atomicAt (h : Meets s x P) : AtomicAt s x := by
  intro e s' hx
  rwa [Meets, hx] at h

theorem Meets.ok (h : Meets s x P) (hx : x s = (.ok a, s')) : P a s' := by
  rwa [Meets, hx] at h

theorem meets_of_ok (hx : x s = (.ok a, s')) (h : P a s') : Meets s x P := by
  rw [Meets, hx]
  exact h

/-- A first step that does not touch the state may fail. -/
theorem meets_bind (hx : (x s).2 = s) (hf : ∀ a, x s = (.ok a, s) → Meets s (f a) Q) : Meets s (x >>= f) Q := by
  rcases hr : x s with ⟨a | a, s₁⟩
  · rw [Meets, bind_of_error hr]
    rwa [hr] at hx
  rw [hr] at hx
  obtain rfl : s₁ = s := hx
  rw [Meets, bind_of_ok hr]
  exact hf a hr

theorem meets_look (hf : ∀ a, g s = .ok a → Meets s (f a) Q) : Meets s (look g >>= f) Q :=
  meets_bind rfl fun a h => hf a (look_ok h).1

theorem meets_guard {f : Unit → Act σ ε β} (hf : test s = true → Meets s (f ()) Q) : Meets s (guard test e >>= f) Q :=
  meets_bind rfl fun _ h => hf (guard_ok h).1

/-- What follows a computation does not fail. -/
theorem Meets.bind (hx : Meets s x P) (hf : ∀ a s', P a s' → ∃ b s'', f a s' = (.ok b, s'') ∧ Q b s'') :
    Meets s (x >>= f) Q := by
  rcases hr : x s with ⟨a | a, s₁⟩
  · rw [Meets, bind_of_error hr]
    exact hx.atomicAt _ _ hr
  · obtain ⟨b, s₂, hb, hQ⟩ := hf a s₁ (hx.ok hr)
    exact meets_of_ok ((bind_of_ok hr).trans hb) hQ

end Meets

/-! ## What a computation leaves -/

/-- The state the computation leaves has a property, whether it fails or not. -/
def Leaves (Q : σ → Prop) (x : Act σ ε α) (s : σ) : Prop := Q (x s).2

variable {Q : σ → Prop} {s : σ}

theorem leaves_pure (h : Q s) : Leaves Q (pure a : Act σ ε α) s := h

theorem leaves_fail (h : Q s) : Leaves Q (fail e : Act σ ε α) s := h

theorem leaves_modify {f : σ → σ} (h : Q (f s)) : Leaves Q (modify f : Act σ ε Unit) s := h

theorem leaves_look (h : Q s) : Leaves Q (look g) s := h

theorem leaves_bind (herror : ∀ e s', x s = (.error e, s') → Q s')
    (hok : ∀ a s', x s = (.ok a, s') → Leaves Q (f a) s') : Leaves Q (x >>= f) s := by
  unfold Leaves
  rcases hx : x s with ⟨e | a, s'⟩
  · rw [bind_of_error hx]
    exact herror e s' hx
  · rw [bind_of_ok hx]
    exact hok a s' hx

/-- What the first step leaves is kept by the second. -/
theorem leaves_bind_keep (hx : Leaves Q x s)
    (hok : ∀ a t, x s = (.ok a, t) → Q t → Leaves Q (f a) t) : Leaves Q (x >>= f) s := by
  refine leaves_bind (fun e t ht => ?_) fun a t ht => hok a t ht ?_
  · rwa [Leaves, ht] at hx
  · rwa [Leaves, ht] at hx

/-- A computation, and then only a value made of its result -/
theorem leaves_bind_pure {g : α → β} (h : Leaves Q x s) : Leaves Q (x >>= fun a => pure (g a)) s :=
  leaves_bind_keep h fun _ _ _ => leaves_pure

/-- A first step that leaves the state as it is -/
theorem leaves_bind_still (hx : Leaves (fun s' => s' = s) x s) (h : Q s)
    (hok : ∀ a, x s = (.ok a, s) → Leaves Q (f a) s) : Leaves Q (x >>= f) s := by
  refine leaves_bind (fun e s' he => ?_) fun a s' ha => ?_
  · rw [Leaves, he] at hx
    obtain rfl : s' = s := hx
    exact h
  · rw [Leaves, ha] at hx
    obtain rfl : s' = s := hx
    exact hok a ha

theorem leaves_bind_look (h : Q s) (hok : ∀ a, g s = .ok a → Leaves Q (f a) s) : Leaves Q (look g >>= f) s := by
  refine leaves_bind (fun e s' he => ?_) fun a s' ha => ?_
  · cases hg : g s with
    | error e' => rw [look_apply, hg] at he; cases he; exact h
    | ok a => rw [look_apply, hg] at he; cases he
  · obtain ⟨hg, rfl⟩ := look_ok ha
    exact hok a hg

theorem leaves_bind_guard {f : Unit → Act σ ε β} (h : Q s)
    (hok : test s = true → Leaves Q (f ()) s) : Leaves Q (guard test e >>= f) s := by
  unfold Leaves
  rw [bind_apply, guard_apply]
  split
  · exact hok ‹_›
  · exact h

theorem leaves_bind_modify {m : σ → σ} {f : Unit → Act σ ε β} (h : Leaves Q (f ()) (m s)) :
    Leaves Q (modify m >>= f) s := h

theorem leaves_ite {c : Prop} [Decidable c] {y : Act σ ε α} (hx : c → Leaves Q x s) (hy : ¬ c → Leaves Q y s) :
    Leaves Q (if c then x else y) s := by
  split
  · exact hx ‹_›
  · exact hy ‹_›

/-- A loop whose turns do not fail, with an invariant that speaks about what is left of the list -/
theorem each_ok {ι : Type} {f : ι → Act σ ε Unit} {I : List ι → σ → Prop}
    (hstep : ∀ i rest s, I (i :: rest) s → ∃ s', f i s = (.ok (), s') ∧ I rest s') (items : List ι) (h : I items s) :
    ∃ s', each f items s = (.ok (), s') ∧ I [] s' := by
  induction items generalizing s with
  | nil => exact ⟨s, rfl, h⟩
  | cons i rest ih =>
    obtain ⟨s₁, hfirst, hrest⟩ := hstep i rest s h
    obtain ⟨s', hloop, hend⟩ := ih hrest
    exact ⟨s', (bind_of_ok hfirst).trans hloop, hend⟩

end Act

end MakOS.Data
