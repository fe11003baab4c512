/-
What `collect` reports of the watches of an instance: exactly the changes of those it asks about, from the first slot on
until the output is full.
-/
import MakOS.Data.Guarded
import MakOS.Readiness.Table

namespace MakOS.Readiness

open Data Watch

/-! ## What is known of a watch -/

/-- The event a watch was last set up with, what was ready when it was last asked about, and whether it was reported since
it was set up -/
structure Memory where
  event : Event
  seen : Word
  reported : Bool

/-- What is ready and is to be reported: of an edge-triggered watch only what is new -/
def Memory.changed (known : Memory) (ready : Word) : Word :=
  if known.event.edge then ready &&& ~~~known.seen else ready

/-- A watch that is asked about reports just its changes, and a one-shot watch is not asked about again after it was
reported. -/
def Exact (memory : Nat → Memory) : Note → Prop
  | .armed .. => True
  | .examined slot ready report =>
    let known := memory slot
    (known.event.oneShot = true → known.reported = false) ∧
      report = if known.changed ready = 0 then none else some ⟨known.changed ready, 0, known.event.data⟩

/-- The watch holds what is known of it. -/
structure Agrees (watch : Watch) (known : Memory) : Prop where
  event : watch.event = known.event
  seen : watch.lastReady = known.seen
  disabled : watch.disabled = (known.event.oneShot && known.reported)

/-- The watches from a slot on -/
def AgreeFrom (slot : Nat) (watches : List Watch) (memory : Nat → Memory) : Prop :=
  ∀ i watch, watches[i]? = some watch → watch.used = true → Agrees watch (memory (slot + i))

variable {watches : List Watch} {memory memory' : Nat → Memory} {readiness : Int → Word → Word} {slot room : Nat}

theorem AgreeFrom.congr (h : AgreeFrom slot watches memory) (hsame : ∀ i, slot ≤ i → memory' i = memory i) :
    AgreeFrom slot watches memory' := fun i watch hi hused => by
  rw [hsame _ (Nat.le_add_right ..)]
  exact h i watch hi hused

theorem AgreeFrom.set {watch : Watch} (h : AgreeFrom 0 watches memory)
    (hsame : ∀ i, i ≠ slot → memory' i = memory i) (hset : watch.used = true → Agrees watch (memory' slot)) :
    AgreeFrom 0 (watches.set slot watch) memory' := by
  intro i other hi hused
  rw [List.getElem?_set] at hi
  rw [Nat.zero_add]
  split at hi
  · rename_i heq
    subst heq
    split at hi
    · obtain rfl : watch = other := Option.some.inj hi
      exact hset hused
    · cases hi
  · rename_i hne
    rw [hsame i (Ne.symm hne), ← Nat.zero_add i]
    exact h i other hi hused

/-! ## One call -/

theorem Agrees.examine {watch : Watch} {known : Memory} (h : Agrees watch known) (henabled : watch.disabled = false) :
    Agrees (watch.examine readiness) { known with
      seen := watch.ready readiness
      reported := known.reported || (watch.report readiness).isSome } := by
  have hdisabled := henabled.symm.trans h.disabled
  refine ⟨h.event, rfl, ?_⟩
  simp only [Watch.examine, h.event, henabled, Bool.false_or]
  cases hone : known.event.oneShot with
  | false => simp
  | true =>
    have hnot : known.reported = false := by simpa [hone] using hdisabled.symm
    simp [hnot]

theorem Agrees.report {watch : Watch} {known : Memory} (h : Agrees watch known) : watch.report readiness =
    let changed := known.changed (watch.ready readiness)
    if changed = 0 then none else some ⟨changed, 0, known.event.data⟩ := by
  have hchanged : watch.deliver readiness = known.changed (watch.ready readiness) := by
    rw [deliver, Memory.changed, h.event, h.seen]
  rw [Watch.report, hchanged, h.event]

inductive Op
  | control (operation : Control) (target : Int) (event : Option Event)
  | collect (room : Nat) (readiness : Int → Word → Word)

def act (watches : List Watch) : Op → List Note × List Watch
  | .control operation target event => (controlWatches watches operation target event).toOption.getD ([], watches)
  | .collect room readiness => if room = 0 then ([], watches) else collectFrom readiness 0 room watches

def history (watches : List Watch) : List Op → List Note
  | [] => []
  | op :: ops => (act watches op).1 ++ history (act watches op).2 ops

def Watch.delivers (readiness : Int → Word → Word) (watch : Watch) : Bool :=
  watch.used && !watch.disabled && (watch.report readiness).isSome

def Reports (slot : Nat) (notes : List Note) : Prop := ∃ ready event, Note.examined slot ready (some event) ∈ notes

theorem reports_cons {i : Nat} {ready : Word} {report : Option Event} {notes : List Note} :
    Reports i (.examined slot ready report :: notes) ↔ i = slot ∧ report.isSome = true ∨ Reports i notes := by
  simp only [Reports, List.mem_cons, Note.examined.injEq, exists_or, Option.isSome_iff_exists]
  aesop

theorem not_reports_below {i : Nat} (hi : i < slot) : ¬Reports i (collectFrom readiness slot room watches).1 := by
  induction watches generalizing slot room with
  | nil => simp [collectFrom, Reports]
  | cons watch rest ih =>
    rw [collectFrom]
    split
    · exact ih (by omega)
    dsimp only
    generalize (if (watch.report readiness).isSome then room - 1 else room) = room'
    rw [reports_cons, not_or]
    refine ⟨fun h => by omega, ?_⟩
    split
    · simp [Reports]
    · exact ih (by omega)

/-- A slot is reported if it has something to report and the slots before it leave room. A slot that is not reached
stays as it is. -/
theorem reports_collectFrom (hroom : 0 < room) (i : Nat) :
    let collected := collectFrom readiness slot room watches
    let before := (watches.take i).countP (delivers readiness)
    (Reports (slot + i) collected.1 ↔ before < room ∧ ∃ watch ∈ watches[i]?, watch.delivers readiness = true) ∧
      (room ≤ before → collected.2[i]? = watches[i]?) := by
  induction watches generalizing slot room i with
  | nil => simp [collectFrom, Reports]
  | cons watch rest ih =>
    dsimp only at ih ⊢
    rw [collectFrom]
    split
    · rename_i hskipped
      have hnot : watch.delivers readiness = false := by
        rw [delivers]
        grind
      cases i with
      | zero => simpa [hnot, hroom.ne'] using not_reports_below (Nat.lt_succ_self slot)
      | succ i =>
        rw [List.take_succ_cons, List.countP_cons_of_neg (by simp [hnot]), ← Nat.add_assoc, Nat.add_right_comm]
        exact ih hroom i
    · rename_i henabled
      have hdelivers : watch.delivers readiness = (watch.report readiness).isSome := by
        rw [delivers]
        grind
      dsimp only
      generalize hroom' : (if (watch.report readiness).isSome then room - 1 else room) = room'
      simp only [reports_cons]
      cases i with
      | zero =>
        have hrest : ¬Reports slot (if room' = 0 then ([], rest) else collectFrom readiness (slot + 1) room' rest).1 := by
          split
          · simp [Reports]
          · exact not_reports_below (Nat.lt_succ_self slot)
        simp [hrest, hdelivers, hroom, hroom.ne']
      | succ i =>
        rw [List.take_succ_cons, List.countP_cons, hdelivers]
        split
        · -- the output is full
          have hfull : (watch.report readiness).isSome = true ∧ room = 1 := by grind
          simp [hfull, Reports]
        obtain ⟨hreports, hkept⟩ := @ih (slot + 1) room' (by omega) i
        have hcount : room' + (if (watch.report readiness).isSome then 1 else 0) = room := by grind
        rw [Nat.add_assoc, Nat.add_comm 1] at hreports
        refine ⟨?_, fun hfull => hkept (by omega)⟩
        rw [hreports, or_iff_right (by omega)]
        exact and_congr_left' (by omega)

/-- A call of `collect`: the size of its output and the answers it gets -/
abbrev Request := Nat × (Int → Word → Word)

def collectAll (watches : List Watch) (requests : List Request) : List Watch :=
  requests.foldl (fun watches request => (collectFrom request.2 0 request.1 watches).2) watches

section Level

variable {i : Nat} {watch : Watch} (hwatch : watches[i]? = some watch) (hused : watch.used = true)
  (henabled : watch.disabled = false) (hlevel : watch.event.edge = false)

include hwatch hused henabled hlevel

theorem reports_of_room {request : Request} (hrequest : 0 < request.1 ∧ watch.ready request.2 ≠ 0)
    (hcount : (watches.take i).countP (delivers request.2) < request.1) :
    Reports i (collectFrom request.2 0 request.1 watches).1 := by
  have hdeliver : watch.deliver request.2 = watch.ready request.2 := by
    rw [deliver, hlevel]
    rfl
  have hdelivers : watch.delivers request.2 = true := by
    rw [delivers, report, hdeliver, if_neg hrequest.2, hused, henabled]
    rfl
  rw [← Nat.zero_add i]
  exact (reports_collectFrom hrequest.1 i).1.2 ⟨hcount, watch, hwatch, hdelivers⟩

/-- An enabled level-triggered watch that stays ready is reported by one of the calls just if in one of them the slots
before it leave room for it. -/
theorem reported_iff_room {requests : List Request}
    (hrequests : ∀ request ∈ requests, 0 < request.1 ∧ watch.ready request.2 ≠ 0) :
    (∃ before request after, requests = before ++ request :: after ∧
      Reports i (collectFrom request.2 0 request.1 (collectAll watches before)).1) ↔
    ∃ before request after, requests = before ++ request :: after ∧
      ((collectAll watches before).take i).countP (delivers request.2) < request.1 := by
  constructor
  · rintro ⟨before, request, after, rfl, hreports⟩
    have hroom := (hrequests request (by simp)).1
    rw [← Nat.zero_add i] at hreports
    exact ⟨before, request, after, rfl, ((reports_collectFrom hroom i).1.1 hreports).1⟩
  rintro ⟨before, request, after, rfl, hcount⟩
  induction before generalizing watches with
  | nil =>
    exact ⟨[], request, after, rfl, reports_of_room hwatch hused henabled hlevel (hrequests request (by simp)) hcount⟩
  | cons first before ih =>
    obtain ⟨hfirst, hrest⟩ := List.forall_mem_cons.1 hrequests
    by_cases hserved : (watches.take i).countP (delivers first.2) < first.1
    · exact ⟨[], first, _, rfl, reports_of_room hwatch hused henabled hlevel hfirst hserved⟩
    -- the watch is not reached, and stays as it is
    have hkept := (@reports_collectFrom watches first.2 0 first.1 hfirst.1 i).2 (by omega)
    obtain ⟨before', request', after', heq, hreports⟩ := ih (hkept.trans hwatch) hcount hrest
    exact ⟨first :: before', request', after', congrArg (first :: ·) heq, hreports⟩

end Level

/-- Two watches that are always ready, the first of them reported before -/
def bothReady : List Watch :=
  [⟨true, 3, ⟨epollIn, 0, 0⟩, epollIn, false⟩, ⟨true, 4, ⟨epollIn, 0, 1⟩, 0, false⟩]

/-- With room for two events the second watch is reported. -/
theorem reported_second : ∃ before request after, [(2, fun _ interest => interest)] = before ++ request :: after ∧
    Reports 1 (collectFrom request.2 0 request.1 (collectAll bothReady before)).1 :=
  (@reported_iff_room bothReady 1 _ rfl rfl rfl (by decide) [(2, fun _ interest => interest)] (by decide)).2
    ⟨[], _, [], rfl, by decide⟩

/-- With room for one event each call reports the first watch only and leaves the watches as they are. -/
theorem second_starved : (∀ watch ∈ bothReady, watch.ready (fun _ interest => interest) ≠ 0) ∧
    collectFrom (fun _ interest => interest) 0 1 bothReady =
      ([.examined 0 epollIn (some ⟨epollIn, 0, 0⟩)], bothReady) := by
  decide

end MakOS.Readiness
