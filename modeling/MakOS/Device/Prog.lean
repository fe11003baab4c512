/-
Programs over a sector device: a tree of read, write and flush requests ending in a value or an
error. `Runs p d es r` says that `p`, started on the device `d`, can issue the requests `es` and end
with `r`; every request may fail, and `p` then goes on as it chose to. `eval` is the run in which
none fails. Everything later is proved by taking a run apart at its binds.
-/
import MakOS.Device.Basic

namespace MakOS.Device

variable {S ε ε' α β σ : Type}

inductive Prog (S ε α : Type)
  | pure (a : α)
  | throw (e : ε)
  | read (lba count : Nat) (k : Option (Vector S count) → Prog S ε α)
  | write (lba : Nat) (data : List S) (k : Bool → Prog S ε α)
  | flush (k : Bool → Prog S ε α)

namespace Prog

def bind : Prog S ε α → (α → Prog S ε β) → Prog S ε β
  | .pure a, f => f a
  | .throw e, _ => .throw e
  | .read lba count k, f => .read lba count fun v => (k v).bind f
  | .write lba data k, f => .write lba data fun ok => (k ok).bind f
  | .flush k, f => .flush fun ok => (k ok).bind f

instance : Monad (Prog S ε) where
  pure := .pure
  bind := .bind

/-- Turn an error into a value, for a caller that goes on after it. -/
def attempt : Prog S ε α → Prog S ε' (Except ε α)
  | .pure a => .pure (.ok a)
  | .throw e => .pure (.error e)
  | .read lba count k => .read lba count fun v => (k v).attempt
  | .write lba data k => .write lba data fun ok => (k ok).attempt
  | .flush k => .flush fun ok => (k ok).attempt

def mapError (f : ε → ε') : Prog S ε α → Prog S ε' α
  | .pure a => .pure a
  | .throw e => .throw (f e)
  | .read lba count k => .read lba count fun v => (k v).mapError f
  | .write lba data k => .write lba data fun ok => (k ok).mapError f
  | .flush k => .flush fun ok => (k ok).mapError f

def lift : Except ε α → Prog S ε α
  | .ok a => .pure a
  | .error e => .throw e

theorem lift_ok_bind (a : α) (f : α → Prog S ε β) : (lift (.ok a) >>= f : Prog S ε β) = f a := rfl

/-- The sectors from `lba` on, or the given error when the read fails. -/
def readMany (io : ε) (lba count : Nat) : Prog S ε (Vector S count) :=
  .read lba count fun
    | some v => .pure v
    | none => .throw io

def readOne (io : ε) (lba : Nat) : Prog S ε S :=
  .read lba 1 fun
    | some v => .pure (v.get 0)
    | none => .throw io

def writeMany (io : ε) (lba : Nat) (data : List S) : Prog S ε Unit :=
  .write lba data fun
    | true => .pure ()
    | false => .throw io

def writeOne (io : ε) (lba : Nat) (s : S) : Prog S ε Unit := writeMany io lba [s]

def sync (io : ε) : Prog S ε Unit :=
  .flush fun
    | true => .pure ()
    | false => .throw io

def foldEach (f : σ → α → Prog S ε σ) : List α → σ → Prog S ε σ
  | [], s => .pure s
  | x :: xs, s => f s x >>= foldEach f xs

def forEach (f : α → Prog S ε Unit) : List α → Prog S ε Unit
  | [] => .pure ()
  | x :: xs => f x >>= fun _ => forEach f xs

def ReadOnly : Prog S ε α → Prop
  | .pure _ | .throw _ => True
  | .read _ _ k => ∀ v, (k v).ReadOnly
  | .write .. | .flush _ => False

end Prog

/-- The sectors a read request returns. -/
def Dev.sectors (d : Dev S) (lba count : Nat) : Vector S count := Vector.ofFn fun i => d.view (lba + i.val)

open Prog

/-! ## Runs -/

inductive Runs : Prog S ε α → Dev S → List (Event S) → Except ε α → Prop
  | pure (a : α) (d : Dev S) : Runs (.pure a) d [] (.ok a)
  | throw (e : ε) (d : Dev S) : Runs (.throw e) d [] (.error e)
  | read {lba count : Nat} {k : Option (Vector S count) → Prog S ε α} {d : Dev S} {es : List (Event S)}
      {r : Except ε α} : lba + count ≤ d.size → Runs (k (some (d.sectors lba count))) d es r →
      Runs (.read lba count k) d (.read lba count :: es) r
  | readFail {lba count : Nat} {k : Option (Vector S count) → Prog S ε α} {d : Dev S} {es : List (Event S)}
      {r : Except ε α} : lba + count ≤ d.size → Runs (k none) d es r →
      Runs (.read lba count k) d (.readFail lba count :: es) r
  -- a request past the end is refused before it reaches the device
  | readOut {lba count : Nat} {k : Option (Vector S count) → Prog S ε α} {d : Dev S} {es : List (Event S)}
      {r : Except ε α} : ¬ lba + count ≤ d.size → Runs (k none) d es r → Runs (.read lba count k) d es r
  | write {lba : Nat} {data : List S} {k : Bool → Prog S ε α} {d : Dev S} {es : List (Event S)}
      {r : Except ε α} : lba + data.length ≤ d.size → Runs (k true) (d.apply (.write lba data)) es r →
      Runs (.write lba data k) d (.write lba data :: es) r
  | writeFail {lba : Nat} {data : List S} {k : Bool → Prog S ε α} {d : Dev S} {es : List (Event S)}
      {r : Except ε α} (seen : List Bool) : lba + data.length ≤ d.size →
      Runs (k false) (d.apply (.writeFail lba data seen)) es r →
      Runs (.write lba data k) d (.writeFail lba data seen :: es) r
  | writeOut {lba : Nat} {data : List S} {k : Bool → Prog S ε α} {d : Dev S} {es : List (Event S)}
      {r : Except ε α} : ¬ lba + data.length ≤ d.size → Runs (k false) d es r → Runs (.write lba data k) d es r
  | flush {k : Bool → Prog S ε α} {d : Dev S} {es : List (Event S)} {r : Except ε α} :
      Runs (k true) (d.apply .flush) es r → Runs (.flush k) d (.flush :: es) r
  | flushFail {k : Bool → Prog S ε α} {d : Dev S} {es : List (Event S)} {r : Except ε α} :
      Runs (k false) d es r → Runs (.flush k) d (.flushFail :: es) r

/-- The run in which no request fails: its result and its requests. -/
def Prog.eval : Prog S ε α → Dev S → Except ε α × List (Event S)
  | .pure a, _ => (.ok a, [])
  | .throw e, _ => (.error e, [])
  | .read lba count k, d =>
    if lba + count ≤ d.size then
      let (r, es) := (k (some (d.sectors lba count))).eval d
      (r, .read lba count :: es)
    else (k none).eval d
  | .write lba data k, d =>
    if lba + data.length ≤ d.size then
      let (r, es) := (k true).eval (d.apply (.write lba data))
      (r, .write lba data :: es)
    else (k false).eval d
  | .flush k, d =>
    let (r, es) := (k true).eval (d.apply .flush)
    (r, .flush :: es)

theorem runs_eval : ∀ (p : Prog S ε α) (d : Dev S), Runs p d (p.eval d).2 (p.eval d).1
  | .pure a, d => .pure a d
  | .throw e, d => .throw e d
  | .read lba count k, d => by
    unfold Prog.eval
    split
    · rename_i h; exact .read h (runs_eval _ d)
    · rename_i h; exact .readOut h (runs_eval _ d)
  | .write lba data k, d => by
    unfold Prog.eval
    split
    · rename_i h; exact .write h (runs_eval _ _)
    · rename_i h; exact .writeOut h (runs_eval _ d)
  | .flush k, d => .flush (runs_eval _ _)

theorem eval_done : ∀ (p : Prog S ε α) (d : Dev S), ∀ e ∈ (p.eval d).2, e.Done
  | .pure a, d => by simp [Prog.eval]
  | .throw e, d => by simp [Prog.eval]
  | .read lba count k, d => by
    unfold Prog.eval
    split
    · intro e he
      rcases List.mem_cons.1 he with rfl | he
      · trivial
      · exact eval_done _ d e he
    · exact eval_done _ d
  | .write lba data k, d => by
    unfold Prog.eval
    split
    · intro e he
      rcases List.mem_cons.1 he with rfl | he
      · trivial
      · exact eval_done _ _ e he
    · exact eval_done _ d
  | .flush k, d => by
    intro e he
    rcases List.mem_cons.1 he with rfl | he
    · trivial
    · exact eval_done _ _ e he

variable {p : Prog S ε α} {d : Dev S} {es : List (Event S)} {r : Except ε α}

/-- A run in which no request fails is the evaluation. -/
theorem Runs.eq_eval (h : Runs p d es r) (hd : ∀ e ∈ es, e.Done) : p.eval d = (r, es) := by
  induction h with
  | pure | throw => rfl
  | read hl _ ih | write hl _ ih => simp only [Prog.eval, if_pos hl, ih (List.forall_mem_cons.1 hd).2]
  | readFail | writeFail | flushFail => exact absurd (hd _ List.mem_cons_self) id
  | readOut hl _ ih | writeOut hl _ ih => simp only [Prog.eval, if_neg hl, ih hd]
  | flush _ ih => simp only [Prog.eval, ih (List.forall_mem_cons.1 hd).2]

/-! ## Taking a run apart -/

variable {a : α}

variable {e : ε}

variable {f : α → Prog S ε β}

/-- A run of a program, and of the rest of the work on what it gives -/
theorem Runs.bind {es₁ es₂ : List (Event S)} {x : Except ε α} {r : Except ε β} (h1 : Runs p d es₁ x)
    (h2 : Runs (Prog.lift x >>= f) (d.replay es₁) es₂ r) : Runs (p >>= f) d (es₁ ++ es₂) r := by
  induction h1 with
  | pure | throw => exact h2
  | read hl _ ih => exact .read hl (ih h2)
  | readFail hl _ ih => exact .readFail hl (ih h2)
  | readOut hl _ ih => exact .readOut hl (ih h2)
  | write hl _ ih => exact .write hl (ih h2)
  | writeFail seen hl _ ih => exact .writeFail seen hl (ih h2)
  | writeOut hl _ ih => exact .writeOut hl (ih h2)
  | flush _ ih => exact .flush (ih h2)
  | flushFail _ ih => exact .flushFail (ih h2)

theorem Runs.bind_error (h : Runs p d es (.error e)) : Runs (p >>= f) d es (.error e) := by
  simpa using h.bind (.throw e _)

theorem Runs.attempt {x : Except ε α} (h : Runs p d es x) : Runs (p.attempt : Prog S ε' (Except ε α)) d es (.ok x) := by
  induction h with
  | pure a d | throw e d => exact .pure _ d
  | read hl _ ih => exact .read hl ih
  | readFail hl _ ih => exact .readFail hl ih
  | readOut hl _ ih => exact .readOut hl ih
  | write hl _ ih => exact .write hl ih
  | writeFail seen hl _ ih => exact .writeFail seen hl ih
  | writeOut hl _ ih => exact .writeOut hl ih
  | flush _ ih => exact .flush ih
  | flushFail _ ih => exact .flushFail ih

theorem Runs.readOne_inv {io : ε} {lba : Nat} {r : Except ε S} (h : Runs (readOne io lba) d es r) :
    (lba < d.size ∧ es = [.read lba 1] ∧ r = .ok (d.view lba)) ∨
      (es = [.readFail lba 1] ∧ r = .error io) ∨ (¬ lba < d.size ∧ es = [] ∧ r = .error io) := by
  cases h with
  | read hl h => cases h; exact .inl ⟨hl, rfl, by simp [Dev.sectors, Vector.get]⟩
  | readFail hl h => cases h; exact .inr (.inl ⟨rfl, rfl⟩)
  | readOut hl h => cases h; exact .inr (.inr ⟨hl, rfl, rfl⟩)

/-! ## Read-only programs -/

theorem replay_reads : ∀ {es : List (Event S)} (d : Dev S), (∀ e ∈ es, e.IsRead) → d.replay es = d
  | [], _, _ => rfl
  | e :: es, d, h => by
    have he : d.apply e = d := by
      have := h e List.mem_cons_self
      cases e <;> first | rfl | exact absurd this id
    rw [replay_cons, he, replay_reads d (List.forall_mem_cons.1 h).2]

theorem Runs.reads (h : Runs p d es r) (hp : p.ReadOnly) : ∀ e ∈ es, e.IsRead := by
  induction h with
  | pure | throw => simp
  | read _ _ ih | readFail _ _ ih =>
    intro e he
    rcases List.mem_cons.1 he with rfl | he
    · trivial
    · exact ih (hp _) e he
  | readOut _ _ ih => exact ih (hp _)
  | write | writeFail | writeOut | flush | flushFail => exact absurd hp id

theorem readOnly_bind (hf : ∀ a, (f a).ReadOnly) : ∀ {p : Prog S ε α}, p.ReadOnly → (p >>= f).ReadOnly
  | .pure a, _ => hf a
  | .throw _, _ => trivial
  | .read _ _ _, h => fun v => readOnly_bind hf (h v)
  | .write .., h | .flush _, h => absurd h id

theorem readOnly_lift (x : Except ε α) : (Prog.lift x : Prog S ε α).ReadOnly := by
  cases x <;> trivial

theorem readOnly_attempt : ∀ {p : Prog S ε α}, p.ReadOnly → (p.attempt : Prog S ε' _).ReadOnly
  | .pure _, _ | .throw _, _ => trivial
  | .read _ _ _, h => fun v => readOnly_attempt (h v)
  | .write .., h | .flush _, h => absurd h id

theorem readOnly_forEach {f : α → Prog S ε Unit} (hf : ∀ x, (f x).ReadOnly) : ∀ xs : List α, (forEach f xs).ReadOnly
  | [] => trivial
  | x :: xs => readOnly_bind (fun _ => readOnly_forEach hf xs) (hf x)

end MakOS.Device
