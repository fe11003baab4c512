/-
Interruptions. A program that gives up on its first failed request stops, whatever fails, somewhere
in the effects it has when nothing fails, with at most its last write reported as failed. So what
holds in every state such a list of requests passes through holds throughout every run.
-/
import MakOS.Device.Eval

namespace MakOS.Device

open Prog

variable {S ε ε' α β σ : Type}

/-! ## States passed through -/

/-- A state the device passes through while it serves the requests, the last of which may be a write
reported as failed. -/
def Passes (d : Dev S) (es : List (Event S)) (d' : Dev S) : Prop :=
  (∃ pre, pre <+: es ∧ d' = d.replay pre) ∨
    ∃ pre lba data seen, pre ++ [.write lba data] <+: es ∧ d' = d.replay (pre ++ [.writeFail lba data seen])

theorem passes_start (d : Dev S) (es : List (Event S)) : Passes d es d := .inl ⟨[], List.nil_prefix, rfl⟩

theorem passes_end (d : Dev S) (es : List (Event S)) : Passes d es (d.replay es) := .inl ⟨es, List.prefix_rfl, rfl⟩

theorem Passes.cons {d d' : Dev S} {e : Event S} {es : List (Event S)} (h : Passes (d.apply e) es d') :
    Passes d (e :: es) d' := by
  rcases h with ⟨pre, hpre, rfl⟩ | ⟨pre, lba, data, seen, hpre, rfl⟩
  · exact .inl ⟨e :: pre, (List.prefix_cons_inj e).2 hpre, rfl⟩
  · exact .inr ⟨e :: pre, lba, data, seen, (List.prefix_cons_inj e).2 hpre, rfl⟩

variable {d d' : Dev S} {es : List (Event S)}

/-- A state passed through comes before the first request, is left by its failure, or comes after it. -/
theorem Passes.cons_inv {e : Event S} (h : Passes d (e :: es) d') :
    d' = d ∨ (∃ lba data seen, e = .write lba data ∧ d' = d.apply (.writeFail lba data seen)) ∨ Passes (d.apply e) es d' := by
  rcases h with ⟨pre, hpre, rfl⟩ | ⟨pre, lba, data, seen, hpre, rfl⟩
  · cases pre with
    | nil => exact .inl rfl
    | cons e' pre =>
      obtain ⟨rfl, hrest⟩ := List.cons_prefix_cons.1 hpre
      exact .inr (.inr (.inl ⟨pre, hrest, rfl⟩))
  cases pre with
  | nil =>
    obtain ⟨rfl, -⟩ := List.cons_prefix_cons.1 hpre
    exact .inr (.inl ⟨lba, data, seen, rfl, rfl⟩)
  | cons e' pre =>
    obtain ⟨rfl, hrest⟩ := List.cons_prefix_cons.1 hpre
    exact .inr (.inr (.inr ⟨pre, lba, data, seen, hrest, rfl⟩))

theorem Passes.nil_inv (h : Passes d [] d') : d' = d := by
  rcases h with ⟨pre, hpre, rfl⟩ | ⟨pre, lba, data, seen, hpre, rfl⟩
  · rw [List.prefix_nil.1 hpre, replay_nil]
  · simp at hpre

theorem Passes.append_inv {es' : List (Event S)} : ∀ {es : List (Event S)} {d : Dev S},
    Passes d (es ++ es') d' → Passes d es d' ∨ Passes (d.replay es) es' d'
  | [], _, h => .inr h
  | e :: es, d, h => by
    rcases h.cons_inv with rfl | ⟨lba, data, seen, rfl, rfl⟩ | h
    · exact .inl (passes_start _ _)
    · exact .inl (.inr ⟨[], lba, data, seen, by simp, rfl⟩)
    · exact h.append_inv.imp Passes.cons id

/-- What no request breaks, done or failed, holds in every state passed through. -/
theorem Passes.invariant (I : Dev S → Prop) : ∀ {es : List (Event S)} {d : Dev S}, I d →
    (∀ e ∈ es, ∀ d e', I d → e'.writes = e.writes → I (d.apply e')) → Passes d es d' → I d'
  | [], _, hd, _, h => h.nil_inv ▸ hd
  | e :: es, d, hd, hI, h => by
    rcases h.cons_inv with rfl | ⟨lba, data, seen, rfl, rfl⟩ | h
    · exact hd
    · exact hI _ List.mem_cons_self _ _ hd rfl
    · exact h.invariant I (hI e List.mem_cons_self d e hd rfl) (List.forall_mem_cons.1 hI).2

variable {lba : Nat}

theorem Dev.Always.passes {P : S → Prop} (h : d.Always lba P)
    (hes : ∀ e ∈ es, ∀ s, (lba, s) ∈ e.writes → P s) (hp : Passes d es d') : d'.Always lba P :=
  hp.invariant (fun d => d.Always lba P) h fun e he _ _ hd hw => hd.apply fun s hs => hes e he s (hw ▸ hs)

theorem Dev.Settled.passes {data : List S} (h : d.Settled lba data)
    (hes : ∀ e ∈ es, ∀ i < data.length, ¬ e.Touches (lba + i)) (hp : Passes d es d') : d'.Settled lba data :=
  fun i hi => (h i hi).passes (fun e he s hs => absurd ⟨s, hs⟩ (hes e he i hi)) hp

theorem Passes.size (h : Passes d es d') : d'.size = d.size :=
  h.invariant (fun d' => d'.size = d.size) rfl fun _ _ _ _ hd _ => by rw [size_apply, hd]

/-! ## Programs that give up on a failure -/

namespace Prog

/-- Whatever happens, the program only reads and ends with the error. -/
def GivesUp (io : ε) : Prog S ε α → Prop
  | .pure _ => False
  | .throw e => e = io
  | .read _ _ k => ∀ v, (k v).GivesUp io
  | .write .. | .flush _ => False

/-- After a failed request the program gives up. -/
def Careful (io : ε) : Prog S ε α → Prop
  | .pure _ | .throw _ => True
  | .read _ _ k => (k none).GivesUp io ∧ ∀ v, (k (some v)).Careful io
  | .write _ _ k | .flush k => (k false).GivesUp io ∧ (k true).Careful io

variable {io : ε}

theorem givesUp_bind (f : α → Prog S ε β) : ∀ {p : Prog S ε α}, p.GivesUp io → (p >>= f).GivesUp io
  | .pure _, h => absurd h id
  | .throw _, h => h
  | .read _ _ _, h => fun v => givesUp_bind f (h v)
  | .write .., h | .flush _, h => absurd h id

theorem careful_bind {f : α → Prog S ε β} (hf : ∀ a, (f a).Careful io) : ∀ {p : Prog S ε α},
    p.Careful io → (p >>= f).Careful io
  | .pure a, _ => hf a
  | .throw _, _ => trivial
  | .read _ _ _, h => ⟨givesUp_bind f h.1, fun v => careful_bind hf (h.2 v)⟩
  | .write .., h | .flush _, h => ⟨givesUp_bind f h.1, careful_bind hf h.2⟩

variable {f : Except ε α → Prog S ε β}

theorem givesUp_attempt_bind (hf : (f (.error io)).GivesUp io) :
    ∀ {p : Prog S ε α}, p.GivesUp io → (p.attempt >>= f).GivesUp io
  | .pure _, h => absurd h id
  | .throw _, h => by cases h; exact hf
  | .read _ _ _, h => fun v => givesUp_attempt_bind hf (h v)
  | .write .., h | .flush _, h => absurd h id

/-- A caller that goes on after an error is careful if it gives up on the error of a failed request. -/
theorem careful_attempt_bind (he : (f (.error io)).GivesUp io)
    (hf : ∀ x, (f x).Careful io) : ∀ {p : Prog S ε α}, p.Careful io → (p.attempt >>= f).Careful io
  | .pure a, _ => hf (.ok a)
  | .throw e, _ => hf (.error e)
  | .read _ _ _, h => ⟨givesUp_attempt_bind he h.1, fun v => careful_attempt_bind he hf (h.2 v)⟩
  | .write .., h | .flush _, h => ⟨givesUp_attempt_bind he h.1, careful_attempt_bind he hf h.2⟩

theorem givesUp_of_readOnly (hf : ∀ x, (f x).GivesUp io) : ∀ {p : Prog S ε α}, p.ReadOnly → (p.attempt >>= f).GivesUp io
  | .pure a, _ => hf (.ok a)
  | .throw e, _ => hf (.error e)
  | .read _ _ _, h => fun v => givesUp_of_readOnly hf (h v)
  | .write .., h | .flush _, h => absurd h id

theorem careful_foldEach {f : σ → α → Prog S ε σ} (hf : ∀ s x, (f s x).Careful io) :
    ∀ (xs : List α) (s : σ), (foldEach f xs s).Careful io
  | [], _ => trivial
  | x :: xs, s => careful_bind (careful_foldEach hf xs) (hf s x)

theorem careful_forEach {f : α → Prog S ε Unit} (hf : ∀ x, (f x).Careful io) : ∀ xs : List α, (forEach f xs).Careful io
  | [] => trivial
  | x :: xs => careful_bind (fun _ => careful_forEach hf xs) (hf x)

theorem careful_lift (io : ε) (x : Except ε α) : (lift x : Prog S ε α).Careful io := by
  cases x <;> trivial

end Prog

variable {p : Prog S ε α} {io : ε} {r : Except ε α}

theorem Runs.givesUp (h : Runs p d es r) (hp : p.GivesUp io) : (∀ e ∈ es, e.IsRead) ∧ r = .error io := by
  induction h with
  | pure | write | writeFail | writeOut | flush | flushFail => exact absurd hp id
  | throw e d => exact ⟨by simp, by rw [show e = io from hp]⟩
  | read _ _ ih | readFail _ _ ih =>
    obtain ⟨h1, h2⟩ := ih (hp _)
    exact ⟨List.forall_mem_cons.2 ⟨trivial, h1⟩, h2⟩
  | readOut _ _ ih => exact ih (hp _)

theorem Runs.replay_givesUp (h : Runs p d es r) (hp : p.GivesUp io) (n : Nat) (d' : Dev S) : d'.replay (es.take n) = d' :=
  replay_reads d' fun e he => (h.givesUp hp).1 e (List.mem_of_mem_take he)

namespace Prog

variable {lba : Nat} {d : Dev S}

theorem effects_read {count : Nat} {k : Option (Vector S count) → Prog S ε α} (h : lba + count ≤ d.size) :
    (read lba count k).effects d = (k (some (d.sectors lba count))).effects d := by
  simp only [effects, eval, if_pos h]
  exact List.filter_cons_of_neg (by simp [Event.IsRead])

variable {k : Bool → Prog S ε α}

theorem effects_write {data : List S} (h : lba + data.length ≤ d.size) :
    (write lba data k).effects d = .write lba data :: (k true).effects (d.apply (.write lba data)) := by
  simp only [effects, eval, if_pos h]
  exact List.filter_cons_of_pos (by simp [Event.IsRead])

theorem effects_flush : (flush k).effects d = .flush :: (k true).effects (d.apply .flush) := by
  simp only [effects]
  exact List.filter_cons_of_pos (by simp [Event.IsRead])

end Prog

/-- A run of a careful program only passes through the states its effects pass through. -/
theorem Runs.passes (h : Runs p d es r) (hp : p.Careful io) (n : Nat) : Passes d (p.effects d) (d.replay (es.take n)) := by
  induction h generalizing n with
  | pure a d | throw e d => simpa using passes_start d _
  | @read lba count k d es r hl h ih =>
    rw [effects_read hl]
    exact replay_take_cons (passes_start d _) (ih (hp.2 _)) n
  | @readFail lba count k d es r hl h ih | @flushFail k d es r h ih =>
    refine replay_take_cons (passes_start d _) (fun n => ?_) n
    rw [h.replay_givesUp hp.1]
    exact passes_start d _
  | @readOut lba count k d es r hl h ih | @writeOut lba data k d es r hl h ih =>
    rw [h.replay_givesUp hp.1]
    exact passes_start d _
  | @write lba data k d es r hl h ih =>
    rw [effects_write hl]
    exact replay_take_cons (passes_start d _) (fun n => (ih hp.2 n).cons) n
  | @writeFail lba data k d es r seen hl h ih =>
    refine replay_take_cons (passes_start d _) (fun n => ?_) n
    rw [h.replay_givesUp hp.1, effects_write hl]
    exact .inr ⟨[], lba, data, seen, ⟨_, rfl⟩, rfl⟩
  | @flush k d es r h ih =>
    exact replay_take_cons (passes_start d _) (fun n => (ih hp.2 n).cons) n

/-- A run of a careful program that does not end with the error of a failed request had no failure. -/
theorem Runs.careful (h : Runs p d es r) (hp : p.Careful io) : (∀ e ∈ es, e.Done) ∨ r = .error io := by
  induction h with
  | pure | throw => exact .inl (by simp)
  | read _ _ ih => exact (ih (hp.2 _)).imp_left fun h => List.forall_mem_cons.2 ⟨trivial, h⟩
  | readFail _ h _ | readOut _ h _ | writeFail _ _ h _ | writeOut _ h _ | flushFail h _ => exact .inr (h.givesUp hp.1).2
  | write _ _ ih | flush _ ih => exact (ih hp.2).imp_left fun h => List.forall_mem_cons.2 ⟨trivial, h⟩

/-! ## Every interruption happens -/

theorem Prog.effects_givesUp (h : p.GivesUp io) (d : Dev S) : p.effects d = [] :=
  effects_reads ((p.runs d).givesUp h).1

/-- A flush of a careful program may fail, and then the program ends there. -/
theorem runs_flushFail : ∀ {p : Prog S ε α} {d : Dev S} {pre post : List (Event S)}, p.Careful io →
    p.effects d = pre ++ .flush :: post → ∃ es, Runs p d es (.error io) ∧ d.replay es = d.replay pre
  | .pure _, _, _, _, _, h | .throw _, _, _, _, _, h => by simp at h
  | .read lba count k, d, pre, post, hp, h => by
    by_cases hl : lba + count ≤ d.size
    · rw [effects_read hl] at h
      obtain ⟨es, hrun, hes⟩ := runs_flushFail (hp.2 _) h
      exact ⟨_, .read hl hrun, hes⟩
    · rw [Prog.effects, eval, if_neg hl] at h
      rw [show Device.effects ((k none).eval d).2 = (k none).effects d from rfl, effects_givesUp hp.1] at h
      simp at h
  | .write lba data k, d, pre, post, hp, h => by
    by_cases hl : lba + data.length ≤ d.size
    · rw [effects_write hl] at h
      cases pre with
      | nil => simp at h
      | cons e pre =>
        obtain ⟨rfl, hrest⟩ := List.cons.inj h
        obtain ⟨es, hrun, hes⟩ := runs_flushFail hp.2 hrest
        exact ⟨_, .write hl hrun, hes⟩
    · rw [Prog.effects, eval, if_neg hl] at h
      rw [show Device.effects ((k false).eval d).2 = (k false).effects d from rfl, effects_givesUp hp.1] at h
      simp at h
  | .flush k, d, pre, post, hp, h => by
    cases pre with
    | nil =>
      have hrun := (k false).runs d
      obtain ⟨hreads, hr⟩ := hrun.givesUp hp.1
      rw [hr] at hrun
      exact ⟨_, .flushFail hrun, (replay_cons ..).trans (replay_reads d hreads)⟩
    | cons e pre =>
      obtain ⟨rfl, hrest⟩ := List.cons.inj h
      obtain ⟨es, hrun, hes⟩ := runs_flushFail hp.2 hrest
      exact ⟨_, .flush hrun, hes⟩

/-- Power may be lost after any of the effects of a run. -/
theorem exists_take_replay : ∀ {es pre : List (Event S)} (d : Dev S), pre <+: effects es →
    ∃ n, d.replay (es.take n) = d.replay pre
  | [], pre, d, h => ⟨0, by rw [List.prefix_nil.1 h]; rfl⟩
  | e :: es, pre, d, h => by
    by_cases he : e.IsRead
    · have hskip : effects (e :: es) = effects es := by simp [effects, he]
      rw [hskip] at h
      obtain ⟨n, hn⟩ := exists_take_replay d h
      refine ⟨n + 1, ?_⟩
      rw [List.take_succ_cons, replay_cons, apply_read he, hn]
    have hkeep : effects (e :: es) = e :: effects es := by simp [effects, he]
    rw [hkeep] at h
    cases pre with
    | nil => exact ⟨0, rfl⟩
    | cons e' pre =>
      obtain ⟨rfl, hpre⟩ := List.cons_prefix_cons.1 h
      obtain ⟨n, hn⟩ := exists_take_replay (d.apply e') hpre
      exact ⟨n + 1, hn⟩

end MakOS.Device
