/-
A logic of pre- and postconditions for programs over a sector device that also speaks about
interruptions. `p.Keeps faults I Q d` says of every run of `p` from `d` that `I` holds between any
two requests, so wherever the run is cut off, and that `Q` holds at a good end. When `faults` is
false it is total: no request fails and the run has a good end. One proof with `faults` left open
gives both.
-/
import MakOS.Device.Eval

namespace MakOS.Device

variable {S ε ε' α β σ : Type}

namespace Prog

def Keeps (faults : Prop) (I : Dev S → Prop) (Q : α → Dev S → Prop) : Prog S ε α → Dev S → Prop
  | .pure a, d => I d ∧ Q a d
  | .throw _, d => I d ∧ faults
  | .read lba count k, d => I d ∧
      (lba + count ≤ d.size → (k (some (d.sectors lba count))).Keeps faults I Q d) ∧
      (faults ∨ ¬ lba + count ≤ d.size → (k none).Keeps faults I Q d)
  | .write lba data k, d => I d ∧
      (lba + data.length ≤ d.size → (k true).Keeps faults I Q (d.apply (.write lba data))) ∧
      (lba + data.length ≤ d.size → faults → ∀ seen, (k false).Keeps faults I Q (d.apply (.writeFail lba data seen))) ∧
      (¬ lba + data.length ≤ d.size → (k false).Keeps faults I Q d)
  | .flush k, d => I d ∧ (k true).Keeps faults I Q (d.apply .flush) ∧ (faults → (k false).Keeps faults I Q d)

variable {faults : Prop} {I : Dev S → Prop} {Q : α → Dev S → Prop} {R : β → Dev S → Prop} {d : Dev S}

/-! ## Rules -/

theorem keeps_pure {a : α} (hI : I d) (hQ : Q a d) : (Prog.pure a : Prog S ε α).Keeps faults I Q d := ⟨hI, hQ⟩

variable {p : Prog S ε α}

theorem keeps_check {c : Prop} [Decidable c] {e : ε} (hI : I d) (hc : faults ∨ c)
    (hp : c → p.Keeps faults I Q d) : (if ¬ c then Prog.throw e else p).Keeps faults I Q d := by
  split
  · rename_i h
    exact ⟨hI, hc.resolve_right h⟩
  · rename_i h
    exact hp (not_not.1 h)

theorem Keeps.bind {f : α → Prog S ε β} : ∀ {p : Prog S ε α} {d : Dev S}, p.Keeps faults I Q d →
    (∀ a d', Q a d' → (f a).Keeps faults I R d') → (p >>= f).Keeps faults I R d
  | .pure a, d, h, hf => hf a d h.2
  | .throw _, _, h, _ => h
  | .read .., _, h, hf => ⟨h.1, fun hl => (h.2.1 hl).bind hf, fun hl => (h.2.2 hl).bind hf⟩
  | .write .., _, h, hf => ⟨h.1, fun hl => (h.2.1 hl).bind hf, fun hl ho seen => (h.2.2.1 hl ho seen).bind hf,
      fun hl => (h.2.2.2 hl).bind hf⟩
  | .flush _, _, h, hf => ⟨h.1, h.2.1.bind hf, fun ho => (h.2.2 ho).bind hf⟩

theorem Keeps.mono {Q' : α → Dev S → Prop} (h : p.Keeps faults I Q d)
    (hQ : ∀ a d', I d' → Q a d' → Q' a d') : p.Keeps faults I Q' d := by
  induction p generalizing d with
  | pure a => exact ⟨h.1, hQ a d h.1 h.2⟩
  | throw => exact h
  | read lba count k ih => exact ⟨h.1, fun hl => ih _ (h.2.1 hl), fun hl => ih _ (h.2.2 hl)⟩
  | write lba data k ih =>
    exact ⟨h.1, fun hl => ih _ (h.2.1 hl), fun hl ho seen => ih _ (h.2.2.1 hl ho seen), fun hl => ih _ (h.2.2.2 hl)⟩
  | flush k ih => exact ⟨h.1, ih _ h.2.1, fun ho => ih _ (h.2.2 ho)⟩

variable {io : ε} {lba : Nat}

theorem keeps_readMany {count : Nat} {Q : Vector S count → Dev S → Prop} (hl : lba + count ≤ d.size)
    (hI : I d) (hQ : Q (d.sectors lba count) d) : (readMany io lba count).Keeps faults I Q d :=
  ⟨hI, fun _ => ⟨hI, hQ⟩, fun hf => ⟨hI, hf.resolve_right fun h => h hl⟩⟩

theorem keeps_readOne {Q : S → Dev S → Prop} (hl : lba < d.size) (hI : I d)
    (hQ : Q (d.view lba) d) : (readOne io lba).Keeps faults I Q d :=
  ⟨hI, fun _ => ⟨hI, by simpa [Dev.sectors, Vector.get] using hQ⟩, fun hf => ⟨hI, hf.resolve_right fun h => h hl⟩⟩

theorem keeps_writeMany {data : List S} {Q : Unit → Dev S → Prop}
    (hl : lba + data.length ≤ d.size) (hI : I d) (hw : I (d.apply (.write lba data)))
    (hf : ∀ seen, I (d.apply (.writeFail lba data seen))) (hQ : Q () (d.apply (.write lba data))) :
    (writeMany io lba data).Keeps faults I Q d :=
  ⟨hI, fun _ => ⟨hw, hQ⟩, fun _ ho seen => ⟨hf seen, ho⟩, fun h => absurd hl h⟩

theorem keeps_sync (hI : I d) (hw : I (d.apply .flush)) : (sync io).Keeps faults I (fun _ d' => d' = d.apply .flush) d :=
  ⟨hI, ⟨hw, rfl⟩, fun ho => ⟨hI, ho⟩⟩

theorem keeps_foldEach {f : σ → α → Prog S ε σ} (J : List α → σ → Dev S → Prop) (hI : ∀ done s d, J done s d → I d) :
    ∀ {xs done : List α} {s : σ} {d : Dev S}, (∀ done' x rest, done ++ xs = done' ++ x :: rest → ∀ s d, J done' s d →
      (f s x).Keeps faults I (J (done' ++ [x])) d) → J done s d →
      (foldEach f xs s).Keeps faults I (J (done ++ xs)) d
  | [], done, s, d, _, hJ => ⟨hI _ _ _ hJ, by simpa using hJ⟩
  | x :: xs, done, s, d, hf, hJ => by
    refine (hf done x xs rfl s d hJ).bind fun s' d' hJ' => ?_
    have := keeps_foldEach J hI (fun done' y rest h => hf done' y rest (by simpa using h)) hJ'
    simpa using this

variable {f : α → Prog S ε Unit}

theorem keeps_forEach (J : List α → Dev S → Prop) (hI : ∀ done d, J done d → I d) :
    ∀ {xs done : List α} {d : Dev S}, (∀ done' x rest, done ++ xs = done' ++ x :: rest → ∀ d, J done' d →
      (f x).Keeps faults I (fun _ => J (done' ++ [x])) d) → J done d →
      (forEach f xs).Keeps faults I (fun _ => J (done ++ xs)) d
  | [], done, d, _, hJ => ⟨hI _ _ hJ, by simpa using hJ⟩
  | x :: xs, done, d, hf, hJ => by
    refine (hf done x xs rfl d hJ).bind fun _ d' hJ' => ?_
    have := keeps_forEach J hI (fun done' y rest h => hf done' y rest (by simpa using h)) hJ'
    simpa using this

theorem keeps_forEach_checks (P : α → Prop) (hI : I d) : ∀ {xs : List α},
    (∀ x ∈ xs, (f x).Keeps faults I (fun _ d' => d' = d ∧ P x) d) →
      (forEach f xs).Keeps faults I (fun _ d' => d' = d ∧ ∀ x ∈ xs, P x) d
  | [], _ => ⟨hI, rfl, nofun⟩
  | x :: xs, h => by
    refine (h x List.mem_cons_self).bind ?_
    rintro _ d' ⟨hd, hx⟩
    rw [hd]
    refine (keeps_forEach_checks P hI (List.forall_mem_cons.1 h).2).mono fun _ d'' _ hxs => ?_
    exact ⟨hxs.1, List.forall_mem_cons.2 ⟨hx, hxs.2⟩⟩

theorem value_read {lba count : Nat} {k : Option (Vector S count) → Prog S ε α} :
    (Prog.read lba count k).value d =
      if lba + count ≤ d.size then (k (some (d.sectors lba count))).value d else (k none).value d := by
  simp only [value, eval]; split <;> rfl

/-- A program that only reads needs no more than a good end when nothing fails. -/
theorem keeps_readOnly : ∀ {p : Prog S ε α}, p.ReadOnly → I d → (faults ∨ ∃ a, p.value d = .ok a) →
    p.Keeps faults I (fun _ d' => d' = d) d
  | .pure _, _, hI, _ => ⟨hI, rfl⟩
  | .throw _, _, hI, hv => ⟨hI, hv.resolve_right fun ⟨_, h⟩ => nomatch h⟩
  | .read lba count k, hp, hI, hv => by
    refine ⟨hI, fun hl => keeps_readOnly (hp _) hI ?_, fun hl => keeps_readOnly (hp _) hI ?_⟩
    · rwa [value_read, if_pos hl] at hv
    · rcases hl with hf | hl
      · exact .inl hf
      · rwa [value_read, if_neg hl] at hv
  | .write .., hp, _, _ | .flush _, hp, _, _ => absurd hp id

end Prog

/-! ## What the rules prove -/

variable {I : Dev S → Prop} {Q : α → Dev S → Prop} {p : Prog S ε α} {d : Dev S}

theorem Runs.keeps {faults : Prop}
    {es : List (Event S)} {r : Except ε α} (h : Runs p d es r) (hp : p.Keeps faults I Q d)
    (hf : faults ∨ ∀ e ∈ es, e.Done) :
    (∀ n, I (d.replay (es.take n))) ∧ (∀ a, r = .ok a → Q a (d.replay es)) ∧ ∀ e, r = .error e → faults := by
  induction h with
  | pure a d =>
    refine ⟨fun n => by simpa using hp.1, ?_, nofun⟩
    rintro _ ⟨⟩
    exact hp.2
  | throw e d => exact ⟨fun n => by simpa using hp.1, nofun, fun _ _ => hp.2⟩
  | read hl _ ih | write hl _ ih =>
    exact (ih (hp.2.1 hl) (hf.imp_right List.forall_mem_of_forall_mem_cons)).imp_left (replay_take_cons hp.1)
  | readFail hl _ ih =>
    have hf := hf.resolve_right fun h => h _ List.mem_cons_self
    exact (ih (hp.2.2 (.inl hf)) (.inl hf)).imp_left (replay_take_cons hp.1)
  | readOut hl _ ih => exact ih (hp.2.2 (.inr hl)) hf
  | writeFail seen hl _ ih =>
    have hf := hf.resolve_right fun h => h _ List.mem_cons_self
    exact (ih (hp.2.2.1 hl hf seen) (.inl hf)).imp_left (replay_take_cons hp.1)
  | writeOut hl _ ih => exact ih (hp.2.2.2 hl) hf
  | flush _ ih =>
    exact (ih hp.2.1 (hf.imp_right List.forall_mem_of_forall_mem_cons)).imp_left (replay_take_cons hp.1)
  | flushFail _ ih =>
    have hf := hf.resolve_right fun h => h _ List.mem_cons_self
    exact (ih (hp.2.2 hf) (.inl hf)).imp_left (replay_take_cons hp.1)

/-- Without faults the program has a good end. -/
theorem Prog.Keeps.completes (hp : p.Keeps False I Q d) : ∃ a, p.value d = .ok a ∧ Q a (p.after d) := by
  obtain ⟨-, hok, herror⟩ := (p.runs d).keeps hp (.inr (eval_done p d))
  cases hv : p.value d with
  | error e => exact (herror e hv).elim
  | ok a => exact ⟨a, rfl, Prog.after_eq p d ▸ hok a hv⟩

/-! ## What a reader depends on -/

/-- The program only reads, and only sectors satisfying `P`. -/
def Prog.ReadsWithin (P : Nat → Prop) : Prog S ε α → Prop
  | .pure _ | .throw _ => True
  | .read lba count k => (∀ i < count, P (lba + i)) ∧ ∀ v, (k v).ReadsWithin P
  | .write .. | .flush _ => False

namespace Prog

variable {P : Nat → Prop}

theorem ReadsWithin.readOnly : ∀ {p : Prog S ε α}, p.ReadsWithin P → p.ReadOnly
  | .pure _, _ | .throw _, _ => trivial
  | .read .., h => fun v => (h.2 v).readOnly
  | .write .., h | .flush _, h => absurd h id

theorem ReadsWithin.bind {f : α → Prog S ε β} (hf : ∀ a, (f a).ReadsWithin P) : ∀ {p : Prog S ε α},
    p.ReadsWithin P → (p >>= f).ReadsWithin P
  | .pure a, _ => hf a
  | .throw _, _ => trivial
  | .read .., h => ⟨h.1, fun v => (h.2 v).bind hf⟩
  | .write .., h | .flush _, h => absurd h id

theorem ReadsWithin.attempt : ∀ {p : Prog S ε α}, p.ReadsWithin P → (p.attempt : Prog S ε' _).ReadsWithin P
  | .pure _, _ | .throw _, _ => trivial
  | .read .., h => ⟨h.1, fun v => (h.2 v).attempt⟩
  | .write .., h | .flush _, h => absurd h id

theorem readsWithin_foldEach {f : σ → α → Prog S ε σ} : ∀ {xs : List α} {s : σ},
    (∀ s, ∀ x ∈ xs, (f s x).ReadsWithin P) → (foldEach f xs s).ReadsWithin P
  | [], _, _ => trivial
  | x :: _, s, h => (h s x List.mem_cons_self).bind fun _ =>
      readsWithin_foldEach fun s y hy => h s y (List.mem_cons_of_mem _ hy)

theorem readsWithin_lift (x : Except ε α) : (Prog.lift x : Prog S ε α).ReadsWithin P := by
  cases x <;> trivial

theorem ReadsWithin.value_eq {d d' : Dev S} (hsize : d.size = d'.size) (hview : ∀ lba, P lba → d.view lba = d'.view lba) :
    ∀ {p : Prog S ε α}, p.ReadsWithin P → p.value d = p.value d'
  | .pure _, _ | .throw _, _ => rfl
  | .read lba count k, h => by
    have hsectors : d.sectors lba count = d'.sectors lba count := by
      simp only [Dev.sectors]
      congr 1
      funext i
      exact hview _ (h.1 i.val i.isLt)
    rw [value_read, value_read, hsize, hsectors, (h.2 _).value_eq hsize hview, (h.2 none).value_eq hsize hview]
  | .write .., h | .flush _, h => absurd h id

end Prog

end MakOS.Device
