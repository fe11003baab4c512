/-
Histories in which any request may fail and the store is used on. `recover` goes by what it reads,
and after a failed flush that may be a header the medium does not have. While no call that writes
starts from such a header (`HeaderSettled`), recovery never falls behind the last call that returned
`Ok`: some slot always rests with what that call left or with something newer (`Anchored`).
-/
import MakOS.PackageStore.Crash

namespace MakOS.PackageStore

open Bytes Device Device.Prog

namespace Store

variable {store : Store} {d d' : Dev Sector} {st st' : Slots store}

/-! ## Histories -/

/-- A call as it was served: the device before it, its requests and its result. -/
structure Step where
  before : Dev Sector
  call : Call
  events : List (Event Sector)
  result : Except Error Nat

/-- Calls one after another, with any failures, and power losses in them; a call that power is lost
in has not returned, which is recorded as a failure. -/
inductive History (store : Store) : List Step → Dev Sector → Prop
  | blank (image : Nat → Sector) : (∀ slot, isBlank (image (store.slotBase slot)) = true) →
      History store [] (Dev.ofImage store.sectorCount image)
  | call {steps : List Step} {d : Dev Sector} {call : Call} {es : List (Event Sector)} {r : Except Error Nat} :
      History store steps d → Runs (call.prog store) d es r → History store (steps ++ [⟨d, call, es, r⟩]) (d.replay es)
  | powerLoss {steps : List Step} {d : Dev Sector} {call : Call} {es : List (Event Sector)} {r : Except Error Nat}
      (n : Nat) {image : Nat → Sector} : History store steps d → Runs (call.prog store) d es r →
      (d.replay (es.take n)).Crash image →
      History store (steps ++ [⟨d, call, es.take n, .error .io⟩]) (Dev.ofImage store.sectorCount image)

def lastOk (steps : List Step) : Option Step := steps.reverse.find? fun step => step.result.isOk

theorem lastOk_append (steps : List Step) (step : Step) :
    lastOk (steps ++ [step]) = if step.result.isOk then some step else lastOk steps := by
  unfold lastOk
  rw [List.reverse_append, List.reverse_singleton, List.singleton_append, List.find?_cons]
  cases step.result.isOk <;> rfl

/-- The header of the slot `recover` takes its snapshot from reads as it will after a power loss. -/
def HeaderSettled (store : Store) (d : Dev Sector) : Prop :=
  ∀ snapshot, store.recover.value d = .ok snapshot → (store.readSnapshot snapshot.slot).value d = .ok snapshot →
    d.Always (store.slotBase snapshot.slot) (· = d.view (store.slotBase snapshot.slot))

/-- The call started from a settled header, or wrote nothing. -/
def Step.Safe (store : Store) (step : Step) : Prop :=
  store.HeaderSettled step.before ∨ ∀ e ∈ step.events, e.writes = []

/-- The call issued a header that announces a snapshot. -/
def Step.Publishes (store : Store) (step : Step) : Prop :=
  ∃ e ∈ step.events, ∃ slot generation, ∃ p : Packages store,
    (store.slotBase slot, committedHeader generation p.list) ∈ e.writes

/-! ## What a call can put in a header -/

variable {g g' : Nat} {p : Packages store}

theorem committedHeader_generation (hg : g < 2 ^ 64) (hg' : g' < 2 ^ 64) {p' : Packages store}
    (h : committedHeader g p.list = committedHeader g' p'.list) : g = g' ∧ p.list.length = p'.list.length := by
  have hd := committedHeader_decode hg p
  rw [h, committedHeader_decode hg' p'] at hd
  have heq := Except.ok.inj hd
  exact ⟨(congrArg Header.generation heq).symm, (congrArg Header.count heq).symm⟩

variable {call : Call} {r : Except Error Nat} {es : List (Event Sector)}

/-- The headers a call issues announce nothing, or its packages at the next generation. -/
theorem outcome_header
    (ho : Outcome store st call r es st') : ∀ e ∈ es, ∀ s, (store.slotBase (target st), s) ∈ e.writes →
      Idle s ∨ (newest st).generation + 1 < 2 ^ 64 ∧ ∃ p : Packages store, Announces st call p ∧
        s = committedHeader ((newest st).generation + 1) p.list := by
  have hwrite : ∀ header s : Sector,
      (store.slotBase (target st), s) ∈ (Event.write (store.slotBase (target st)) [header]).writes → s = header := by
    intro header s hs
    rw [Event.writes, sectorWrites_one, List.mem_singleton] at hs
    exact congrArg Prod.snd hs
  have hstart : ∀ generation count, generation < 2 ^ 64 → count ≤ maxPackages →
      ∀ e ∈ store.commitStart (target st) generation count, ∀ s, (store.slotBase (target st), s) ∈ e.writes → Idle s := by
    intro generation count hg hc e he s hs
    simp only [commitStart, List.mem_cons, List.not_mem_nil, or_false] at he
    rcases he with rfl | rfl
    · rw [hwrite _ _ hs]
      exact idle_preparing hg hc
    · cases hs
  intro e he s hs
  cases ho with
  | rejected => cases he
  | committed edit p ha hg =>
    rcases List.mem_append.1 he with he | he
    · rcases List.mem_append.1 he with he | he
      · exact .inl (hstart _ _ hg p.sound.few e he s hs)
      · exact absurd ⟨s, hs⟩ (body_touches he)
    simp only [commitEnd, List.mem_cons, List.not_mem_nil, or_false] at he
    rcases he with rfl | rfl | rfl
    · cases hs
    · exact .inr ⟨hg, p, ha, hwrite _ _ hs⟩
    · cases hs
  | full edit next ha hg hfew =>
    rcases List.mem_append.1 he with he | he
    · exact .inl (hstart _ _ hg hfew e he s hs)
    · exact absurd ⟨s, hs⟩ (payload_touches he)
  | rolledBack g p hprev hg =>
    simp only [List.mem_cons, List.not_mem_nil, or_false] at he
    rcases he with rfl | rfl
    · exact .inr ⟨hg, p, ⟨g, hprev⟩, hwrite _ _ hs⟩
    · cases hs

/-! ## Slots that rest -/

variable {slot : Fin 2}

theorem not_touches_of_silent (hes : ∀ e ∈ es, e.writes = []) (lba : Nat) : ∀ e ∈ es, ¬ e.Touches lba := by
  rintro e he ⟨s, hs⟩
  rw [hes e he] at hs
  cases hs

/-- All requests of a call that is cut short are ones it issues, and no failure adds any. -/
theorem Rests.replay_silent {o : Option (Nat × Packages store)} (h : store.Rests d slot o) (hes : ∀ e ∈ es, e.writes = []) :
    store.Rests (d.replay es) slot o := by
  have hnot := not_touches_of_silent hes
  match o, h with
  | none, h => exact h.replay_of_not (hnot _)
  | some (g, p), ⟨hg, hdata, h⟩ => exact ⟨hg, hdata.replay_of_not fun e he i _ => hnot _ e he, h.replay_of_not (hnot _)⟩

/-- What a slot that rests with packages shows. -/
theorem Rests.shows_eq (h : store.Rests d slot (some (g, p)))
    (hshow : store.ShowsSlots d st) : ∃ p', st slot = some (g, p') := by
  have hs := hshow.2 slot
  rcases hst : st slot with _ | ⟨g', p'⟩
  · rw [hst] at hs
    exact absurd h.2.2.view (Idle.ne_committed hs h.1 p)
  · rw [hst] at hs
    obtain ⟨rfl, -⟩ := committedHeader_generation h.1 hs.1 (h.2.2.view.symm.trans hs.2.1)
    exact ⟨p', rfl⟩

/-- A snapshot recovered from a settled header rests. -/
theorem rests_newest (hshow : store.ShowsSlots d st)
    (hst : ∀ slot g p, st slot = some (g, p) → store.Holds d slot (some p)) (hsettled : store.HeaderSettled d) (hp : st (newest st).slot = some ((newest st).generation, p))
    (hpkgs : (newest st).pkgs = p.list) : store.Rests d (newest st).slot (some ((newest st).generation, p)) := by
  have hs := hshow.2 (newest st).slot
  rw [hp] at hs
  have hread : (store.readSnapshot (newest st).slot).value d = .ok (newest st).snapshot := by
    rw [value_readSnapshot hshow.1 (hshow.2 _), hp, Active.snapshot, hpkgs]
    rfl
  have hheader := hsettled (newest st).snapshot (value_recover hshow) hread
  exact ⟨hs.1, (hst _ _ _ hp).1, hheader.mono fun s h => h.trans hs.2.1⟩

/-- Some slot rests with the acknowledged packages, and the other one can only be newer or older; or
with newer ones. -/
def Anchored (store : Store) (d : Dev Sector) (acked : Contents) : Prop :=
  ∃ slot g, ∃ p : Packages store, store.Rests d slot (some (g, p)) ∧
    (acked.generation < g ∨ acked = ⟨g, p.list⟩ ∧
      d.Always (store.slotBase (otherSlot slot)) fun s => ∀ p' : Packages store, s ≠ committedHeader g p'.list)

variable {acked : Contents} {image : Nat → Sector}

theorem Anchored.crash (h : store.Anchored d acked) (hc : d.Crash image) :
    store.Anchored (Dev.ofImage store.sectorCount image) acked := by
  obtain ⟨slot, g, p, hrests, hcases⟩ := h
  exact ⟨slot, g, p, hrests.crash hc _, hcases.imp id fun ⟨he, ha⟩ => ⟨he, always_ofImage.2 (ha.crash hc)⟩⟩

/-- A slot that rests with packages can be taken to show these. -/
theorem Sane.shows_with (h : store.Sane d) (hrests : store.Rests d slot (some (g, p))) : ∃ st, store.ShowsSlots d st ∧
      (∀ slot g p, st slot = some (g, p) → store.Holds d slot (some p)) ∧ st slot = some (g, p) := by
  obtain ⟨st, hshow, hholds⟩ := h.shows
  refine ⟨Function.update st slot (some (g, p)), ⟨hshow.1, fun s => ?_⟩, fun s g' p' hs => ?_, Function.update_self ..⟩
  · by_cases hslot : s = slot
    · subst hslot
      rw [Function.update_self]
      exact hrests.shows
    · rw [Function.update_of_ne hslot]
      exact hshow.2 s
  · by_cases hslot : s = slot
    · subst hslot
      rw [Function.update_self] at hs
      cases hs
      exact ⟨hrests.2.1, hrests.2.2.mono fun s hs => .inr ⟨_, hrests.1, hs⟩⟩
    · rw [Function.update_of_ne hslot] at hs
      exact hholds s g' p' hs

/-- What is recovered next to a slot that rests with packages. -/
theorem newest_with (hst : st slot = some (g, p)) :
    newest st = ⟨slot, g, p.list⟩ ∨ (newest st).slot = otherSlot slot ∧ g ≤ (newest st).generation ∧
      ∃ q : Packages store, st (otherSlot slot) = some ((newest st).generation, q) ∧ (newest st).pkgs = q.list := by
  rcases newest_cases st with ⟨hnone, -⟩ | ⟨q, hq, hpkgs⟩
  · rw [hnone] at hst
    cases hst
  by_cases hslot : (newest st).slot = slot
  · left
    rw [hslot, hst] at hq
    cases hq
    rw [← hslot, ← hpkgs]
  · right
    have hother := eq_otherSlot hslot
    exact ⟨hother, le_newest hst, q, hother ▸ hq, hpkgs⟩

/-- A slot that shows another header than an anchor may have shows a later generation. -/
theorem lt_of_ne_committed {q : Packages store} (hshow : store.ShowsSlot d slot (some (g', q)))
    (hle : g ≤ g') (hne : ∀ p' : Packages store, d.view (store.slotBase slot) ≠ committedHeader g p'.list) : g < g' := by
  refine lt_of_le_of_ne hle ?_
  rintro rfl
  exact hne q hshow.2.1

/-- Recovery finds nothing older than what a slot is anchored at. -/
theorem Anchored.found (h : store.Anchored d acked) (hsane : store.Sane d) :
    ∃ found, store.contents.value d = .ok found ∧ (acked.generation < found.generation ∨ found = acked) := by
  obtain ⟨slot, g, p, hrests, hcases⟩ := h
  obtain ⟨st, hshow, -, hst⟩ := hsane.shows_with hrests
  refine ⟨_, value_contents hshow, ?_⟩
  rcases newest_with hst with hn | ⟨hother, hle, q, hq, -⟩
  · rw [hn]
    exact hcases.imp id fun h => h.1.symm
  left
  rcases hcases with hlt | ⟨rfl, ha⟩
  · exact lt_of_lt_of_le hlt hle
  · have hs := hshow.2 (otherSlot slot)
    rw [hq] at hs
    exact lt_of_ne_committed hs hle ha.view

/-- A call that starts from a settled header keeps the anchor, wherever it is interrupted. -/
theorem Anchored.passes (h : store.Anchored d acked) (hsane : store.Sane d)
    (hsettled : store.HeaderSettled d) (hp : Passes d ((call.prog store).effects d) d') : store.Anchored d' acked := by
  obtain ⟨slot, g, p, hrests, hcases⟩ := h
  obtain ⟨st, hshow, hholds, hst⟩ := hsane.shows_with hrests
  obtain ⟨st', ho⟩ := outcome_call hshow call
  rcases newest_with hst with hn | ⟨hother, hle, q, hq, hpkgs⟩
  · -- the anchor is the newest slot, and the call writes the other one
    have ht : target st = otherSlot slot := by rw [target, hn]
    refine ⟨slot, g, p, hrests.passes_other ?_ (outcome_inSlot ho) hp, hcases.imp id fun ⟨he, ha⟩ => ⟨he, ?_⟩⟩
    · rw [ht]
      exact otherSlot_ne slot
    refine ha.passes (fun e he s hs => ?_) hp
    rw [← ht] at hs
    intro p'
    rcases outcome_header ho e he s hs with hidle | ⟨hg, p'', -, rfl⟩
    · exact hidle.ne_committed hrests.1 p'
    intro heq
    have := (committedHeader_generation hg hrests.1 heq).1
    rw [hn] at this
    simp at this
  · -- the newest slot is the other one; it becomes the anchor
    have hs := hshow.2 (otherSlot slot)
    rw [hq] at hs
    have hnewest := rests_newest hshow hholds hsettled (hother ▸ hq) hpkgs
    refine ⟨_, _, q, hnewest.passes_other (otherSlot_ne _) (outcome_inSlot ho) hp, .inl ?_⟩
    rcases hcases with hlt | ⟨rfl, ha⟩
    · exact lt_of_lt_of_le hlt hle
    · exact lt_of_ne_committed hs hle ha.view

/-! ## Whole histories -/

/-- What holds after a history whose calls are all safe. -/
structure Kept (store : Store) (steps : List Step) (d : Dev Sector) : Prop where
  sane : store.Sane d
  /-- nothing has been announced in the second slot, or some slot rests with packages -/
  based : d.Always (store.slotBase 1) Idle ∨ ∃ slot x, store.Rests d slot (some x)
  anchored : ∀ step, lastOk steps = some step → ∃ acked,
    store.contents.value (step.before.replay step.events) = .ok acked ∧ store.Anchored d acked

variable {steps : List Step}

/-- Without a snapshot to recover, nothing has been announced in the second slot. -/
theorem Kept.idle (h : Kept store steps d) (hshow : store.ShowsSlots d st)
    (hnone : ∀ slot, st slot = none) : d.Always (store.slotBase 1) Idle := by
  refine h.based.resolve_right ?_
  rintro ⟨slot, ⟨g, p⟩, hrests⟩
  obtain ⟨p', hst⟩ := hrests.shows_eq hshow
  rw [hnone] at hst
  cases hst

/-- The first slot is written then. -/
theorem not_touches_second (ho : Outcome store st call r es st') (hempty : newest st = ⟨1, 0, []⟩) :
    ∀ e ∈ es, ¬ e.Touches (store.slotBase 1) := by
  intro e he ht
  have hin := outcome_inSlot ho e he _ ht
  rw [target, hempty] at hin
  have hlarge := store.large
  exact absurd (inSlot_unique hin ⟨le_refl _, by omega⟩) (by decide)

theorem Kept.interrupted (h : Kept store steps d) (hrun : Runs (call.prog store) d es r) (n : Nat)
    (hsafe : store.HeaderSettled d ∨ ∀ e ∈ es.take n, e.writes = []) : Kept store steps (d.replay (es.take n)) := by
  have hp := hrun.passes (careful_call call) n
  refine ⟨h.sane.passes hp, ?_, fun step hstep => ?_⟩
  · rcases hsafe with hsettled | hsilent
    · obtain ⟨st, hshow, hholds⟩ := h.sane.shows
      obtain ⟨st', ho⟩ := outcome_call hshow call
      rcases newest_cases st with ⟨hnone, hn⟩ | ⟨p, hst, hpkgs⟩
      · exact .inl ((h.idle hshow hnone).passes (fun e he s hs => absurd ⟨s, hs⟩ (not_touches_second ho hn e he)) hp)
      · exact .inr ⟨_, _, (rests_newest hshow hholds hsettled hst hpkgs).passes_other (otherSlot_ne _)
          (outcome_inSlot ho) hp⟩
    · exact h.based.imp (fun ha => ha.replay_of_not (not_touches_of_silent hsilent _))
        fun ⟨slot, x, hr⟩ => ⟨slot, x, hr.replay_silent hsilent⟩
  · obtain ⟨acked, hacked, hanchor⟩ := h.anchored step hstep
    refine ⟨acked, hacked, ?_⟩
    rcases hsafe with hsettled | hsilent
    · exact hanchor.passes h.sane hsettled hp
    obtain ⟨slot, g, p, hrests, hcases⟩ := hanchor
    exact ⟨slot, g, p, hrests.replay_silent hsilent, hcases.imp id fun ⟨he, ha⟩ =>
      ⟨he, ha.replay_of_not (not_touches_of_silent hsilent _)⟩⟩

theorem Kept.crash (h : Kept store steps d) (hc : d.Crash image) :
    Kept store steps (Dev.ofImage store.sectorCount image) := by
  refine ⟨h.sane.crash hc, ?_, fun step hstep => ?_⟩
  · exact h.based.imp (fun ha => always_ofImage.2 (ha.crash hc)) fun ⟨slot, x, hr⟩ => ⟨slot, x, hr.crash hc _⟩
  · obtain ⟨acked, hacked, hanchor⟩ := h.anchored step hstep
    exact ⟨acked, hacked, hanchor.crash hc⟩

variable {generation : Nat}

/-- A call that returns `Ok` wrote something. -/
theorem not_silent (ho : Outcome store st call (.ok generation) es st') : ∃ e ∈ es, e.writes ≠ [] := by
  cases ho with
  | committed edit p => exact ⟨_, List.mem_append_left _ (List.mem_append_left _ List.mem_cons_self), by simp [Event.writes]⟩
  | rolledBack g p => exact ⟨_, List.mem_cons_self .., by simp [Event.writes]⟩

/-- A safe call that returns `Ok` anchors what it leaves. -/
theorem Kept.acknowledged (h : Kept store steps d) (hrun : Runs (call.prog store) d es (.ok generation))
    (hsafe : store.HeaderSettled d ∨ ∀ e ∈ es, e.writes = []) :
    ∃ acked, store.contents.value (d.replay es) = .ok acked ∧ store.Anchored (d.replay es) acked := by
  obtain ⟨st, hshow, hholds⟩ := h.sane.shows
  obtain ⟨st', ho⟩ := outcome_call hshow call
  obtain ⟨hv, he, hafter⟩ := hrun.done ((hrun.careful (careful_call call)).resolve_right (by rintro ⟨⟩))
  rw [← hv] at ho
  have hsettled : store.HeaderSettled d := by
    refine hsafe.resolve_right fun hsilent => ?_
    obtain ⟨e, hmem, hw⟩ := not_silent ho
    rw [← he] at hmem
    exact hw (hsilent e (List.mem_of_mem_filter hmem))
  obtain ⟨p, -, rfl, hrests⟩ := rests_ok ho fun g p hst => (hholds _ g p hst).1
  rw [hafter]
  have hshow' := hshow.outcome ho
  have hn := newest_update_some st (Nat.lt_succ_self _) p
  refine ⟨_, value_contents hshow', target st, _, p, hrests, .inr ⟨by rw [hn], ?_⟩⟩
  -- the slot not written rests with the generation before, or announces nothing
  rw [otherSlot_otherSlot]
  rcases newest_cases st with ⟨hnone, hempty⟩ | ⟨q, hst, hpkgs⟩
  · have hidle := h.idle hshow hnone
    have hslot : (newest st).slot = 1 := by rw [hempty]
    rw [hslot]
    exact (hidle.replay_of_not (not_touches_second ho hempty)).mono fun s hs => hs.ne_committed hrests.1
  · have hkept := (rests_newest hshow hholds hsettled hst hpkgs).passes_other (otherSlot_ne _) (outcome_inSlot ho)
      (passes_end _ _)
    refine hkept.2.2.mono ?_
    rintro s rfl p' heq
    have := (committedHeader_generation hkept.1 hrests.1 heq).1
    omega

theorem history_kept (h : History store steps d) (hsafe : ∀ step ∈ steps, step.Safe store) : Kept store steps d := by
  induction h with
  | blank image hb =>
    refine ⟨sane_blank hb, .inl (always_ofImage.2 (.inl (hb 1))), fun step hstep => ?_⟩
    cases hstep
  | @call steps d call es r _ hrun ih =>
    have hkept := ih fun step hs => hsafe step (List.mem_append_left _ hs)
    have hstep : store.HeaderSettled d ∨ ∀ e ∈ es, e.writes = [] := hsafe ⟨d, call, es, r⟩ (by simp)
    have hnext := hkept.interrupted hrun es.length (by rwa [List.take_length])
    rw [List.take_length] at hnext
    refine ⟨hnext.sane, hnext.based, fun step hlast => ?_⟩
    rw [lastOk_append] at hlast
    cases r with
    | error error => exact hnext.anchored step hlast
    | ok generation =>
      cases hlast
      exact hkept.acknowledged hrun hstep
  | @powerLoss steps d call es r n image _ hrun hc ih =>
    have hkept := ih fun step hs => hsafe step (List.mem_append_left _ hs)
    have hnext := (hkept.interrupted hrun n (hsafe ⟨d, call, es.take n, .error .io⟩ (by simp))).crash hc
    refine ⟨hnext.sane, hnext.based, fun step hlast => ?_⟩
    rw [lastOk_append] at hlast
    exact hnext.anchored step hlast

/-! ## Empty stores -/

/-- The header does not announce an empty store. -/
def Filled (store : Store) (header : Sector) : Prop :=
  ∀ g (p : Packages store), g < 2 ^ 64 → header = committedHeader g p.list → p.list ≠ []

theorem history_reach (h : History store steps d) : Reach store (fun _ => True) d := by
  induction h with
  | blank image hb => exact .blank image hb
  | call _ hrun ih => exact .call ih hrun fun _ _ => trivial
  | powerLoss n _ hrun hc ih => exact .crash n ih hrun (fun _ _ => trivial) hc

/-- A call other than a removal announces no empty store unless one was announced before. -/
theorem announces_filled (hshow : store.ShowsSlots d st) (hfilled : ∀ slot, Filled store (d.view (store.slotBase slot))) (hcall : ∀ name, call ≠ .edit (.remove name)) (h : Announces st call p) :
    p.list ≠ [] := by
  cases call with
  | rollback =>
    obtain ⟨g, hst⟩ := h
    have hs := hshow.2 (target st)
    rw [hst] at hs
    exact hfilled (target st) g p hs.1 hs.2.1
  | edit edit =>
    have hmakes := (apply_ok h).2.2
    cases edit with
    | install manifest payload =>
      obtain ⟨-, -, -, -, hnext⟩ := hmakes
      rw [hnext]
      simp
    | replace manifest payload =>
      obtain ⟨-, -, index, hi, hnext⟩ := hmakes
      obtain ⟨hlt, -⟩ := indexOf_some hi
      rw [hnext]
      intro hnil
      rw [← List.length_eq_zero_iff, List.length_set] at hnil
      omega
    | remove name => exact absurd rfl (hcall name)

/-- Without a removal that announces its result no empty store is ever announced. -/
theorem history_filled (h : History store steps d)
    (hremove : ∀ step ∈ steps, ∀ name, step.call = .edit (.remove name) → ¬ step.Publishes store) :
    ∀ slot, d.Always (store.slotBase slot) (Filled store) := by
  -- one call, up to any of its requests
  have hcall : ∀ {steps : List Step} {d : Dev Sector} {call : Call} {es : List (Event Sector)} {r r' : Except Error Nat},
      History store steps d → (∀ slot, d.Always (store.slotBase slot) (Filled store)) → Runs (call.prog store) d es r →
      ∀ n, (∀ name, call = .edit (.remove name) → ¬ (Step.mk d call (es.take n) r').Publishes store) →
      ∀ slot, (d.replay (es.take n)).Always (store.slotBase slot) (Filled store) := by
    intro steps d call es r r' hist hfilled hrun n hnot slot
    by_cases hr : ∃ name, call = .edit (.remove name)
    · obtain ⟨name, hname⟩ := hr
      refine (hfilled slot).replay fun e he s hs g p _ heq _ => hnot name hname ⟨e, he, slot, g, p, ?_⟩
      exact heq ▸ hs
    obtain ⟨st, hshow, -⟩ := (reach_sane (history_reach hist)).shows
    obtain ⟨st', ho⟩ := outcome_call hshow call
    refine (hfilled slot).passes (fun e he s hs g p hg heq => ?_) (hrun.passes (careful_call call) n)
    have hlarge := store.large
    obtain rfl := inSlot_unique (⟨le_refl _, by omega⟩ : store.InSlot slot _) (outcome_inSlot ho e he _ ⟨s, hs⟩)
    rcases outcome_header ho e he s hs with hidle | ⟨hg', p', ha, rfl⟩
    · exact absurd heq (hidle.ne_committed hg p)
    have hne := announces_filled hshow (fun slot => (hfilled slot).view) (fun name h => hr ⟨name, h⟩) ha
    have hlen := (committedHeader_generation hg' hg heq).2
    intro hnil
    rw [hnil, List.length_nil, List.length_eq_zero_iff] at hlen
    exact hne hlen
  induction h with
  | blank image hb =>
    exact fun slot => always_ofImage.2 fun g p hg heq => absurd heq (Idle.ne_committed (.inl (hb slot)) hg p)
  | @call steps d call es r hist hrun ih =>
    have := hcall hist (ih fun step hs => hremove step (List.mem_append_left _ hs)) hrun es.length
      fun name hname => by
        rw [List.take_length]
        exact hremove ⟨d, call, es, r⟩ (by simp) name hname
    rwa [List.take_length] at this
  | @powerLoss steps d call es r n image hist hrun hc ih =>
    have := hcall hist (ih fun step hs => hremove step (List.mem_append_left _ hs)) hrun n
      (hremove ⟨d, call, es.take n, .error .io⟩ (by simp))
    exact fun slot => always_ofImage.2 ((this slot).crash hc)

/-- After any history whose calls each start from a settled header or write nothing, and so after a
power loss at any point of it, recovery finds nothing older than what the last call that returned
`Ok` left. It finds no empty store once an installation has returned `Ok`, as long as no removal has
announced its result. -/
theorem keeps_acknowledged {steps : List Step} (h : History store steps d) (hsafe : ∀ step ∈ steps, step.Safe store) :
    ∃ found, store.contents.value d = .ok found ∧
      (∀ step, lastOk steps = some step → ∃ acked,
        store.contents.value (step.before.replay step.events) = .ok acked ∧
          (acked.generation < found.generation ∨ found = acked)) ∧
      ((∃ step ∈ steps, ∃ manifest payload generation,
          step.call = .edit (.install manifest payload) ∧ step.result = .ok generation) →
        (∀ step ∈ steps, ∀ name, step.call = .edit (.remove name) → ¬ step.Publishes store) → found.pkgs ≠ []) := by
  have hkept := history_kept h hsafe
  obtain ⟨st, hshow, -⟩ := hkept.sane.shows
  refine ⟨_, value_contents hshow, fun step hstep => ?_, ?_⟩
  · obtain ⟨acked, hacked, hanchor⟩ := hkept.anchored step hstep
    obtain ⟨found, hfound, hcases⟩ := hanchor.found hkept.sane
    rw [value_contents hshow] at hfound
    cases hfound
    exact ⟨acked, hacked, hcases⟩
  rintro ⟨step, hmem, manifest, payload, generation, -, hok⟩ hremove
  obtain ⟨last, hlast⟩ : ∃ last, lastOk steps = some last :=
    Option.isSome_iff_exists.1 (List.find?_isSome.2 ⟨_, List.mem_reverse.2 hmem, by rw [hok]; rfl⟩)
  obtain ⟨acked, -, slot, g, p, hrests, -⟩ := hkept.anchored last hlast
  obtain ⟨p', hst⟩ := hrests.shows_eq hshow
  rcases newest_cases st with ⟨hnone, -⟩ | ⟨q, hq, hpkgs⟩
  · rw [hnone] at hst
    cases hst
  have hs := hshow.2 (newest st).slot
  rw [hq] at hs
  show (newest st).pkgs ≠ []
  rw [hpkgs]
  exact (history_filled h hremove (newest st).slot).view _ q hs.1 hs.2.1

/-! ## In the small store -/

theorem headerSettled_blankDevice : smallStore.HeaderSettled blankDevice := by
  intro snapshot hrecover hread
  rw [value_readSnapshot shows_blankDevice.1 (shows_blankDevice.2 _)] at hread
  cases hread

theorem keeps_tool : ∃ found, smallStore.contents.value installedDevice = .ok found ∧ found.pkgs ≠ [] := by
  have hrun := Prog.runs ((Edit.install tool [0]).prog smallStore) blankDevice
  rw [value_install_tool] at hrun
  have hblank : History smallStore [] blankDevice := .blank (fun _ => zeros 512) fun _ => isBlank_zeros
  have hist := @History.call _ _ _ (.edit (.install tool [0])) _ _ hblank hrun
  obtain ⟨found, hfound, -, hfilled⟩ := keeps_acknowledged hist (by
    intro step hs
    rw [List.nil_append, List.mem_singleton] at hs
    subst hs
    exact .inl headerSettled_blankDevice)
  rw [after_eq] at hfound
  refine ⟨found, hfound, hfilled ⟨_, List.mem_append_right _ (List.mem_singleton.2 rfl), tool, [0], 1, rfl, rfl⟩ ?_⟩
  intro step hs name hname
  rw [List.nil_append, List.mem_singleton] at hs
  subst hs
  cases hname

/-- The small store after a replacement whose last flush failed. -/
def unflushedDevice : Dev Sector :=
  installedDevice.replay (smallStore.commitStart 1 2 1 ++ smallStore.commitBody 1 (toolPackages 1).list ++
    [.flush, .write (smallStore.slotBase 1) [committedHeader 2 (toolPackages 1).list]])

theorem effects_replace_tool : ((Edit.replace tool [1]).prog smallStore).effects installedDevice =
    (smallStore.commitStart 1 2 1 ++ smallStore.commitBody 1 (toolPackages 1).list ++
      [.flush, .write (smallStore.slotBase 1) [committedHeader 2 (toolPackages 1).list]]) ++ [.flush] := by
  have ha : (Edit.replace tool [1]).apply (newest installedSlots).generation (newest installedSlots).pkgs =
      .ok (toolPackages 1).list := apply_replace_tool 1 (by decide) 0 [1] rfl
  rw [(edit_committed quiet_installedDevice.shows ha).2, List.append_assoc _ _ [Event.flush]]
  rfl

theorem replacedDevice_eq : replacedDevice = unflushedDevice.apply .flush := by
  have h : replacedDevice = installedDevice.replay (((Edit.replace tool [1]).prog smallStore).effects installedDevice) := rfl
  rw [h, effects_replace_tool, replay_append]
  rfl

theorem shows_of_flush (h : store.ShowsSlots (d.apply .flush) st) : store.ShowsSlots d st := h

theorem durable_unflushedDevice : unflushedDevice.durable (smallStore.slotBase 1) = preparingHeader 2 1 := by
  have hmarked := (always_marked smallStore installedDevice 1 2 1).replay_of_not
    fun e he => @body_touches smallStore 1 (toolPackages 1).list e he
  rw [unflushedDevice, replay_append, replay_append]
  exact hmarked.view

/-- The next replacement marks the first slot. -/
theorem effects_replace_unflushed : ∃ rest, ((Edit.replace tool [2]).prog smallStore).effects unflushedDevice =
    .write (smallStore.slotBase 0) [preparingHeader 3 1] :: rest := by
  have ha : (Edit.replace tool [2]).apply (newest replacedSlots).generation (newest replacedSlots).pkgs =
      .ok (toolPackages 2).list := apply_replace_tool 2 (by decide) 1 [2] rfl
  have hshows := quiet_replacedDevice.shows
  rw [replacedDevice_eq] at hshows
  exact ⟨_, (edit_committed (shows_of_flush hshows) ha).2⟩

/-- What the medium may then hold: the new mark, but not the header whose flush failed. -/
def lostImage : Nat → Sector := fun lba =>
  if lba = smallStore.slotBase 0 then preparingHeader 3 1 else unflushedDevice.durable lba

theorem crash_lostImage :
    (unflushedDevice.replay [.write (smallStore.slotBase 0) [preparingHeader 3 1]]).Crash lostImage := by
  intro lba
  by_cases h : lba = smallStore.slotBase 0
  · right
    rw [lostImage, h]
    exact List.mem_append_left _ (by rw [sectorWrites_one]; exact List.mem_singleton.2 rfl)
  · left
    rw [lostImage, if_neg h]
    rfl

theorem shows_lostImage : smallStore.ShowsSlots (Dev.ofImage smallStore.sectorCount lostImage) fun _ => none := by
  refine ⟨rfl, fun slot => ?_⟩
  show Idle (lostImage (smallStore.slotBase slot))
  match slot with
  | 0 =>
    exact idle_preparing (by decide) (by decide)
  | 1 =>
    rw [lostImage, durable_unflushedDevice]
    exact idle_preparing (by decide) (by decide)

/-- A package is installed; its replacement fails at the last flush; power is lost as the next one
marks the slot the installation is in. The store is then empty. -/
theorem failed_flush_loses_installation : ∃ steps image step,
    History smallStore steps (Dev.ofImage smallStore.sectorCount image) ∧
      lastOk steps = some step ∧ step.call = .edit (.install tool [0]) ∧
      (∀ step ∈ steps, ∀ name, step.call ≠ .edit (.remove name)) ∧
      smallStore.contents.value (step.before.replay step.events) = .ok ⟨1, [tool.pkg [0]]⟩ ∧
      smallStore.contents.value (Dev.ofImage smallStore.sectorCount image) = .ok ⟨0, []⟩ := by
  have hblank : History smallStore [] blankDevice := .blank (fun _ => zeros 512) fun _ => isBlank_zeros
  have hrun := Prog.runs ((Edit.install tool [0]).prog smallStore) blankDevice
  rw [value_install_tool] at hrun
  have h1 := @History.call _ _ _ (.edit (.install tool [0])) _ _ hblank hrun
  rw [after_eq] at h1
  change History smallStore _ installedDevice at h1
  obtain ⟨es, hfail, hes⟩ := runs_flushFail (careful_call (.edit (.replace tool [1]))) effects_replace_tool
  have h2 := @History.call _ _ _ (.edit (.replace tool [1])) _ _ h1 hfail
  rw [hes] at h2
  obtain ⟨rest, hrest⟩ := effects_replace_unflushed
  obtain ⟨n, hn⟩ := exists_take_replay unflushedDevice (show [.write (smallStore.slotBase 0) [preparingHeader 3 1]] <+:
    effects (((Edit.replace tool [2]).prog smallStore).eval unflushedDevice).2 from ⟨rest, hrest.symm⟩)
  have hcrash : (unflushedDevice.replay ((((Edit.replace tool [2]).prog smallStore).eval unflushedDevice).2.take n)).Crash
      lostImage := by
    rw [hn]
    exact crash_lostImage
  have h3 := @History.powerLoss _ _ _ (.edit (.replace tool [2])) _ _ n lostImage h2
    (Prog.runs ((Edit.replace tool [2]).prog smallStore) unflushedDevice) hcrash
  refine ⟨_, _, _, h3, rfl, rfl, ?_, ?_, value_contents shows_lostImage⟩
  · intro step hs name hname
    simp only [List.nil_append, List.mem_append, List.mem_singleton] at hs
    rcases hs with (rfl | rfl) | rfl <;> cases hname
  · have := value_contents quiet_installedDevice.shows
    rwa [after_eq]

end Store

end MakOS.PackageStore
