/-
What a program does when nothing fails: its value and its effects, the writes and flushes it issues
(reads change nothing).
-/
import MakOS.Device.Prog

namespace MakOS.Device

variable {S ε ε' α β σ : Type}

/-! ## Value and effects -/

instance (e : Event S) : Decidable e.IsRead :=
  match e with
  | .read .. => isTrue trivial
  | .readFail .. => isTrue trivial
  | .write .. => isFalse id
  | .writeFail .. => isFalse id
  | .flush => isFalse id
  | .flushFail => isFalse id

def effects (es : List (Event S)) : List (Event S) := es.filter fun e => ¬ e.IsRead

variable {es : List (Event S)}

theorem effects_reads (h : ∀ e ∈ es, e.IsRead) : effects es = [] := by
  simpa [effects, List.filter_eq_nil_iff] using h

variable {d : Dev S}

theorem apply_read {e : Event S} (h : e.IsRead) : d.apply e = d := by
  cases e <;> first | rfl | exact absurd h id

theorem replay_effects : ∀ (es : List (Event S)) (d : Dev S), d.replay (effects es) = d.replay es
  | [], _ => rfl
  | e :: es, d => by
    by_cases h : e.IsRead
    · have : effects (e :: es) = effects es := by simp [effects, h]
      rw [this, replay_cons, apply_read h, replay_effects es d]
    · have : effects (e :: es) = e :: effects es := by simp [effects, h]
      rw [this, replay_cons, replay_cons, replay_effects es]

namespace Prog

def value (p : Prog S ε α) (d : Dev S) : Except ε α := (p.eval d).1

def effects (p : Prog S ε α) (d : Dev S) : List (Event S) := Device.effects (p.eval d).2

def after (p : Prog S ε α) (d : Dev S) : Dev S := d.replay (p.effects d)

@[simp] theorem value_pure (a : α) (d : Dev S) : (Prog.pure a : Prog S ε α).value d = .ok a := rfl
@[simp] theorem effects_pure (a : α) (d : Dev S) : (Prog.pure a : Prog S ε α).effects d = [] := rfl
@[simp] theorem value_throw (e : ε) (d : Dev S) : (Prog.throw e : Prog S ε α).value d = .error e := rfl
@[simp] theorem effects_throw (e : ε) (d : Dev S) : (Prog.throw e : Prog S ε α).effects d = [] := rfl

@[simp] theorem value_lift (x : Except ε α) (d : Dev S) : (Prog.lift x : Prog S ε α).value d = x := by
  cases x <;> rfl

theorem after_eq (p : Prog S ε α) (d : Dev S) : d.replay (p.eval d).2 = p.after d := (replay_effects _ _).symm

theorem runs (p : Prog S ε α) (d : Dev S) : Runs p d (p.eval d).2 (p.value d) := runs_eval p d

variable {p : Prog S ε α} {f : α → Prog S ε β} {d : Dev S} {a : α}

theorem eval_bind_ok (h : p.value d = .ok a) :
    (p >>= f).eval d = ((f a).value (p.after d), (p.eval d).2 ++ ((f a).eval (p.after d)).2) := by
  have hp := p.runs d
  rw [h] at hp
  have hf := (f a).runs (p.after d)
  rw [← after_eq] at hf
  refine (after_eq p d ▸ Runs.bind hp hf).eq_eval fun e he => ?_
  rcases List.mem_append.1 he with he | he
  · exact eval_done p d e he
  · exact eval_done _ _ e he

variable {e : ε}

theorem eval_bind_error (h : p.value d = .error e) : (p >>= f).eval d = (.error e, (p.eval d).2) := by
  have hp := p.runs d
  rw [h] at hp
  exact (Runs.bind_error hp).eq_eval (eval_done p d)

theorem value_bind (p : Prog S ε α) (f : α → Prog S ε β) (d : Dev S) :
    (p >>= f).value d = p.value d >>= fun a => (f a).value (p.after d) := by
  cases h : p.value d with
  | ok a => rw [value, eval_bind_ok h]; rfl
  | error e => rw [value, eval_bind_error h]; rfl

theorem value_bind_ok (h : p.value d = .ok a) : (p >>= f).value d = (f a).value (p.after d) := by
  rw [value_bind, h]; rfl

theorem value_bind_error (h : p.value d = .error e) : (p >>= f).value d = .error e := by
  rw [value_bind, h]; rfl

theorem effects_bind_ok (h : p.value d = .ok a) : (p >>= f).effects d = p.effects d ++ (f a).effects (p.after d) := by
  rw [effects, eval_bind_ok h, Device.effects, List.filter_append]; rfl

theorem effects_bind_error (h : p.value d = .error e) : (p >>= f).effects d = p.effects d := by
  rw [effects, eval_bind_error h]; rfl

theorem mem_effects_bind {e : Event S}
    (h : e ∈ (p >>= f).effects d) : e ∈ p.effects d ∨ ∃ a, p.value d = .ok a ∧ e ∈ (f a).effects (p.after d) := by
  cases hv : p.value d with
  | error error => rw [effects_bind_error hv] at h; exact .inl h
  | ok a =>
    rw [effects_bind_ok hv] at h
    exact (List.mem_append.1 h).imp id fun h => ⟨a, rfl, h⟩

/-! ### Read-only programs -/

theorem effects_readOnly (h : p.ReadOnly) (d : Dev S) : p.effects d = [] :=
  effects_reads ((p.runs d).reads h)

theorem after_readOnly (h : p.ReadOnly) (d : Dev S) : p.after d = d := by
  rw [after, effects_readOnly h, replay_nil]

theorem value_bind_readOnly (h : p.ReadOnly) (hv : p.value d = .ok a) : (p >>= f).value d = (f a).value d := by
  rw [value_bind_ok hv, after_readOnly h]

theorem effects_bind_readOnly (h : p.ReadOnly) (hv : p.value d = .ok a) : (p >>= f).effects d = (f a).effects d := by
  rw [effects_bind_ok hv, effects_readOnly h, after_readOnly h, List.nil_append]

theorem value_attempt (p : Prog S ε α) (d : Dev S) : (p.attempt : Prog S ε' _).value d = .ok (p.value d) := by
  have h : Runs (p.attempt : Prog S ε' _) d (p.eval d).2 (.ok (p.value d)) := (p.runs d).attempt
  rw [value, h.eq_eval (eval_done p d)]

variable {io : ε} {lba : Nat}

theorem value_readOne (h : lba < d.size) : (readOne io lba : Prog S ε S).value d = .ok (d.view lba) := by
  rcases (Prog.runs (readOne io lba) d).readOne_inv with ⟨-, -, hr⟩ | ⟨he, -⟩ | ⟨hl, -⟩
  · exact hr
  · have := eval_done (readOne io lba : Prog S ε S) d (.readFail lba 1) (by rw [he]; exact List.mem_singleton.2 rfl)
    exact absurd this id
  · exact absurd h hl

theorem value_foldEach_pure (g : σ → α → σ) (d : Dev S) : ∀ (xs : List α) (s : σ),
    (foldEach (fun s x => (.pure (g s x) : Prog S ε σ)) xs s).value d = .ok (xs.foldl g s)
  | [], _ => rfl
  | x :: xs, s => value_foldEach_pure g d xs (g s x)

theorem value_forEach_readOnly {f : α → Prog S ε Unit} (hr : ∀ x, (f x).ReadOnly) : ∀ {xs : List α},
    (∀ x ∈ xs, (f x).value d = .ok ()) → (forEach f xs).value d = .ok ()
  | [], _ => rfl
  | x :: xs, h => by
    rw [forEach, value_bind_readOnly (hr x) (h x List.mem_cons_self)]
    exact value_forEach_readOnly hr (List.forall_mem_cons.1 h).2

/-! ### The value and the effects together -/

/-- When no request fails, the program has the given result and effects. -/
def Does (p : Prog S ε α) (d : Dev S) (r : Except ε α) (es : List (Event S)) : Prop := p.value d = r ∧ p.effects d = es

variable {es es' : List (Event S)}

theorem does_pure (a : α) (d : Dev S) : (Prog.pure a : Prog S ε α).Does d (.ok a) [] := ⟨rfl, rfl⟩

theorem does_throw (e : ε) (d : Dev S) : (Prog.throw e : Prog S ε α).Does d (.error e) [] := ⟨rfl, rfl⟩

theorem Does.bind {r : Except ε β} (h : p.Does d (.ok a) es) (h' : (f a).Does (d.replay es) r es') :
    (p >>= f).Does d r (es ++ es') := by
  obtain ⟨hv, rfl⟩ := h
  exact ⟨(value_bind_ok hv).trans h'.1, (effects_bind_ok hv).trans (congrArg _ h'.2)⟩

theorem Does.bind_error (h : p.Does d (.error e) es) : (p >>= f).Does d (.error e) es :=
  ⟨value_bind_error h.1, (effects_bind_error h.1).trans h.2⟩

theorem Does.map {r : Except ε α} (h : p.Does d r es) (g : α → β) : (p >>= fun a => .pure (g a)).Does d (r.map g) es := by
  cases r with
  | error e => exact h.bind_error
  | ok a => exact List.append_nil es ▸ h.bind (does_pure (g a) _)

theorem Does.bind_readOnly {r : Except ε β} (h : (f a).Does d r es) (hp : p.ReadOnly) (hv : p.value d = .ok a) :
    (p >>= f).Does d r es := ⟨(value_bind_readOnly hp hv).trans h.1, (effects_bind_readOnly hp hv).trans h.2⟩

/-! ### Writes and flushes -/

variable {s : S}

theorem does_writeOne (io : ε) (s : S) (h : lba < d.size) : (writeOne io lba s).Does d (.ok ()) [.write lba [s]] := by
  simp [Does, value, effects, writeOne, writeMany, eval, h, Device.effects, Event.IsRead]

theorem mem_effects_writeOne {e : Event S} (h : e ∈ (writeOne io lba s : Prog S ε Unit).effects d) : e = .write lba [s] := by
  by_cases hl : lba < d.size
  · rw [(does_writeOne io s hl).2] at h
    exact List.mem_singleton.1 h
  · simp [effects, writeOne, writeMany, eval, hl, Device.effects] at h

theorem forEach_writeOne {io : ε} {lba : Nat} {f : Nat → S} : ∀ {indices : List Nat} {d : Dev S},
    (∀ i ∈ indices, lba + i < d.size) → (forEach (fun i => (writeOne io (lba + i) (f i) : Prog S ε Unit)) indices).Does d
      (.ok ()) (indices.map fun i => .write (lba + i) [f i])
  | [], d, _ => does_pure () d
  | i :: rest, d, h => by
    refine (does_writeOne io (f i) (h i List.mem_cons_self)).bind (forEach_writeOne fun j hj => ?_)
    exact h j (List.mem_cons_of_mem _ hj)

theorem does_sync (d : Dev S) : (sync io : Prog S ε Unit).Does d (.ok ()) [.flush] := by
  simp [Does, value, effects, sync, eval, Device.effects, Event.IsRead]

end Prog

/-- A run without failures has the value and the effects of the program. -/
theorem Runs.done {p : Prog S ε α} {r : Except ε α} (h : Runs p d es r)
    (hd : ∀ e ∈ es, e.Done) : r = p.value d ∧ effects es = p.effects d ∧ d.replay es = p.after d := by
  have he := h.eq_eval hd
  refine ⟨?_, ?_, ?_⟩
  · rw [Prog.value, he]
  · rw [Prog.effects, he]
  · rw [← Prog.after_eq, he]

end MakOS.Device
