/-
Runs in which no request fails. Between calls each slot is at rest (`Quiet`): its header has one
possible content, or announces nothing. A power loss in a call leaves the slot the call does not
write at rest and the other one as it was, announcing nothing, or as the call leaves it, and each of
these recovers to what the store held before the call or to what it holds after it.
-/
import MakOS.PackageStore.Reach

namespace MakOS.PackageStore

open Bytes Device Device.Prog

namespace Store

variable {store : Store} {d d' : Dev Sector} {st st' : Slots store}

/-! ## Slots at rest -/

/-- The slot holds the same whether or not power is lost. -/
def Rests (store : Store) (d : Dev Sector) (slot : Fin 2) : Option (Nat × Packages store) → Prop
  | none => d.Always (store.slotBase slot) Idle
  | some (generation, p) => generation < 2 ^ 64 ∧ d.Settled (store.slotBase slot + 1) (slotData p.list) ∧
      d.Always (store.slotBase slot) (· = committedHeader generation p.list)

def Quiet (store : Store) (d : Dev Sector) (st : Slots store) : Prop :=
  d.size = store.sectorCount ∧ ∀ slot, store.Rests d slot (st slot)

variable {slot : Fin 2} {o : Option (Nat × Packages store)}

theorem Rests.shows (h : store.Rests d slot o) : store.ShowsSlot d slot o :=
  match o, h with
  | none, h => Dev.Always.view h
  | some (_, _), ⟨hg, hdata, h⟩ => ⟨hg, h.view, hdata.shows⟩

theorem Quiet.shows (h : store.Quiet d st) : store.ShowsSlots d st := ⟨h.1, fun slot => (h.2 slot).shows⟩

theorem Rests.crash (h : store.Rests d slot o) {image : Nat → Sector} (hc : d.Crash image) (size : Nat) :
    store.Rests (Dev.ofImage size image) slot o :=
  match o, h with
  | none, h => always_ofImage.2 (Dev.Always.crash h hc)
  | some (_, _), ⟨hg, hdata, h⟩ => ⟨hg, hdata.crash hc size, always_ofImage.2 (Dev.Always.crash h hc)⟩

variable {es : List (Event Sector)}

theorem Rests.passes_other {target : Fin 2} (h : store.Rests d slot o)
    (hne : slot ≠ target) (hes : ∀ e ∈ es, ∀ lba, e.Touches lba → store.InSlot target lba)
    (hp : Passes d es d') : store.Rests d' slot o :=
  have hother := Store.passes_other hne hes hp
  match o, h with
  | none, h => hother.1 h
  | some (_, p), ⟨hg, hdata, h⟩ => ⟨hg, hother.2 p hdata, hother.1 h⟩

variable {image : Nat → Sector}

/-- Marking a slot at rest: after a power loss it rests as before, or announces nothing. -/
theorem Rests.marking (h : store.Rests d slot o) {header : Sector}
    (hh : Idle header) (hp : Passes d [.write (store.slotBase slot) [header]] d') (hc : d'.Crash image) (size : Nat) :
    store.Rests (Dev.ofImage size image) slot o ∨ store.Rests (Dev.ofImage size image) slot none := by
  match o, h with
  | none, h => exact .inr (always_ofImage.2 (((always_writing h hp).crash hc).elim id fun hs => hs ▸ hh))
  | some (g, p), ⟨hg, hdata, h⟩ =>
    rcases (always_writing h hp).crash hc with hs | hs
    · exact .inl ⟨hg, (settled_writing hdata ⟨[.flush], rfl⟩ hp).crash hc size, always_ofImage.2 hs⟩
    · exact .inr (always_ofImage.2 (hs ▸ hh))

theorem quiet_update (hsize : d.size = store.sectorCount)
    (hother : ∀ s, s ≠ slot → store.Rests d s (st s)) (h : store.Rests d slot o) :
    store.Quiet d (Function.update st slot o) := by
  refine ⟨hsize, fun s => ?_⟩
  by_cases hs : s = slot
  · subst hs
    rwa [Function.update_self]
  · rw [Function.update_of_ne hs]
    exact hother s hs

/-! ## One call -/

/-- The packages a call may announce. -/
def Announces (st : Slots store) (call : Call) (p : Packages store) : Prop :=
  match call with
  | .edit edit => edit.apply (newest st).generation (newest st).pkgs = .ok p.list
  | .rollback => ∃ g, st (target st) = some (g, p)

variable {call : Call} {generation : Nat}

/-- A call that returns `Ok` leaves the slot it wrote at rest. -/
theorem rests_ok (ho : Outcome store st call (.ok generation) es st')
    (hdata : ∀ g p, st (target st) = some (g, p) → d.Settled (store.slotBase (target st) + 1) (slotData p.list)) :
    ∃ p, Announces st call p ∧ st' = Function.update st (target st) (some ((newest st).generation + 1, p)) ∧
      store.Rests (d.replay es) (target st) (some ((newest st).generation + 1, p)) := by
  cases ho with
  | committed edit p ha hg =>
    obtain ⟨hdata, hheader⟩ := replay_commit d (target st) ((newest st).generation + 1) p.list.length p.list
    exact ⟨p, ha, rfl, hg, hdata, hheader⟩
  | rolledBack g p hprev hg =>
    refine ⟨p, ⟨g, hprev⟩, rfl, hg, settled_writing (hdata g p hprev) List.prefix_rfl (passes_end _ _), ?_⟩
    exact always_published ..

variable {r : Except Error Nat}

/-- A call that is not interrupted leaves the slots at rest. -/
theorem Quiet.outcome (h : store.Quiet d st) (ho : Outcome store st call r es st') : store.Quiet (d.replay es) st' := by
  have hsize : (d.replay es).size = store.sectorCount := (size_replay d es).trans h.1
  have hother : ∀ s, s ≠ target st → store.Rests (d.replay es) s (st s) := fun s hs =>
    (h.2 s).passes_other hs (outcome_inSlot ho) (passes_end d es)
  have hok : ∀ generation, r = .ok generation → store.Quiet (d.replay es) st' := by
    rintro generation rfl
    obtain ⟨p, -, rfl, hrests⟩ := rests_ok ho fun g p hst => by
      have hr := h.2 (target st)
      rw [hst] at hr
      exact hr.2.1
    exact quiet_update hsize hother hrests
  cases ho with
  | rejected => exact h
  | committed | rolledBack => exact hok _ rfl
  | full edit next _ hg hfew =>
    refine quiet_update hsize hother ?_
    exact ((always_marked store d _ _ _).mono fun s hs => hs ▸ idle_preparing hg hfew).replay_of_not
      fun e he => payload_touches he

/-- After a power loss in a call the slot it writes is as it was, announces nothing, or is as the
call leaves it. -/
theorem Quiet.interrupted (h : store.Quiet d st)
    (ho : Outcome store st call r es st') (hp : Passes d es d') (hc : d'.Crash image) :
    ∃ o, store.Quiet (Dev.ofImage store.sectorCount image) (Function.update st (target st) o) ∧
      (o = st (target st) ∨ o = none ∨ Function.update st (target st) o = st') := by
  have hother : ∀ s, s ≠ target st → store.Rests (Dev.ofImage store.sectorCount image) s (st s) := fun s hs =>
    ((h.2 s).passes_other hs (outcome_inSlot ho) hp).crash hc _
  suffices hfound : ∃ o, store.Rests (Dev.ofImage store.sectorCount image) (target st) o ∧
      (o = st (target st) ∨ o = none ∨ Function.update st (target st) o = st') by
    obtain ⟨o, hr, ho⟩ := hfound
    exact ⟨o, quiet_update rfl hother hr, ho⟩
  cases ho with
  | rejected =>
    rw [hp.nil_inv] at hc
    exact ⟨_, (h.2 _).crash hc _, .inl rfl⟩
  | committed edit p _ hg =>
    have hidle := idle_preparing hg p.sound.few
    rcases passes_commit hp with hp | ha | ⟨hdata, ha⟩ | ⟨hdata, ha⟩
    · rcases (h.2 (target st)).marking hidle hp hc store.sectorCount with hr | hr
      · exact ⟨_, hr, .inl rfl⟩
      · exact ⟨_, hr, .inr (.inl rfl)⟩
    · exact ⟨none, always_ofImage.2 (ha.crash hc ▸ hidle), .inr (.inl rfl)⟩
    · rcases ha.crash hc with hs | hs
      · exact ⟨none, always_ofImage.2 (hs ▸ hidle), .inr (.inl rfl)⟩
      · exact ⟨some (_, p), ⟨hg, hdata.crash hc _, always_ofImage.2 hs⟩, .inr (.inr rfl)⟩
    · exact ⟨some (_, p), ⟨hg, hdata.crash hc _, always_ofImage.2 (ha.crash hc)⟩, .inr (.inr rfl)⟩
  | full edit next _ hg hfew =>
    have hidle := idle_preparing hg hfew
    rcases passes_full hp with hp | ha
    · rcases (h.2 (target st)).marking hidle hp hc store.sectorCount with hr | hr
      · exact ⟨_, hr, .inl rfl⟩
      · exact ⟨_, hr, .inr (.inl rfl)⟩
    · exact ⟨none, always_ofImage.2 (ha.crash hc ▸ hidle), .inr (.inl rfl)⟩
  | rolledBack g p hprev hg =>
    have hrests := h.2 (target st)
    rw [hprev] at hrests
    have hdata := (settled_writing hrests.2.1 List.prefix_rfl hp).crash hc store.sectorCount
    rcases passes_publish hp with hp | ha
    · rcases (always_writing hrests.2.2 hp).crash hc with hs | hs
      · exact ⟨some (_, p), ⟨hrests.1, hdata, always_ofImage.2 hs⟩, .inl hprev.symm⟩
      · exact ⟨some (_, p), ⟨hg, hdata, always_ofImage.2 hs⟩, .inr (.inr rfl)⟩
    · exact ⟨some (_, p), ⟨hg, hdata, always_ofImage.2 (ha.crash hc)⟩, .inr (.inr rfl)⟩

/-! ## What is recovered -/

theorem otherSlot_otherSlot : ∀ slot : Fin 2, otherSlot (otherSlot slot) = slot := by decide

theorem eq_otherSlot : ∀ {slot slot' : Fin 2}, slot ≠ slot' → slot = otherSlot slot' := by decide

variable {p : Packages store}

theorem newest_of {g : Nat} (h : st slot = some (g, p))
    (hother : ∀ g' p', st (otherSlot slot) = some (g', p') → g' < g) : newest st = ⟨slot, g, p.list⟩ := by
  unfold newest
  match slot with
  | 0 =>
    rw [h]
    rcases h1 : st 1 with _ | ⟨g', p'⟩
    · rfl
    · have := hother g' p' h1
      simp only
      rw [if_pos (by omega)]
  | 1 =>
    rw [h]
    rcases h0 : st 0 with _ | ⟨g', p'⟩
    · rfl
    · have := hother g' p' h0
      simp only
      rw [if_neg (by omega)]

/-- The newest slot stays the newest when the other one announces nothing. -/
theorem newest_update_none (st : Slots store) : newest (Function.update st (target st) none) = newest st := by
  rcases newest_cases st with ⟨hnone, -⟩ | ⟨p, hst, hpkgs⟩
  · rw [← hnone (target st), Function.update_eq_self]
  have hkept : Function.update st (target st) none (newest st).slot = some ((newest st).generation, p) := by
    rw [Function.update_of_ne (otherSlot_ne _), hst]
  rw [newest_of hkept fun g' p' h => ?_]
  · rw [← hpkgs]
  · rw [Function.update_self] at h
    cases h

/-- A slot of a later generation is the newest. -/
theorem newest_update_some (st : Slots store) (hg : (newest st).generation < generation)
    (p : Packages store) : newest (Function.update st (target st) (some (generation, p))) = ⟨target st, generation, p.list⟩ := by
  refine newest_of (Function.update_self ..) fun g' p' h => ?_
  rw [otherSlot_otherSlot, Function.update_of_ne (otherSlot_ne _)] at h
  exact lt_of_le_of_lt (le_newest h) hg

/-- Everything a store is recovered with. -/
structure Contents where
  generation : Nat
  pkgs : List Pkg
  deriving DecidableEq, Repr

/-- The packages of a snapshot's entries, with their payloads. -/
def readPkgs (store : Store) (slot : Fin 2) : List Entry → M (List Pkg)
  | [] => .pure []
  | entry :: rest => do
    let payload ← store.readPayloadBytes slot entry
    let pkgs ← readPkgs store slot rest
    return ⟨entry.name, entry.version, entry.dependencies, payload⟩ :: pkgs

def contents (store : Store) : M Contents := do
  let snapshot ← store.recover
  let pkgs ← store.readPkgs snapshot.slot snapshot.entries
  return ⟨snapshot.generation, pkgs⟩

theorem readOnly_readPayloadBytes (slot : Fin 2) (entry : Entry) : (store.readPayloadBytes slot entry).ReadOnly :=
  readOnly_eachSector_pure slot (· ++ ·) _ _ _

theorem readOnly_readPkgs (slot : Fin 2) : ∀ entries : List Entry, (store.readPkgs slot entries).ReadOnly
  | [] => by trivial
  | entry :: rest => by
    exact readOnly_bind (fun _ => readOnly_bind (fun _ => by trivial) (readOnly_readPkgs slot rest))
      (readOnly_readPayloadBytes slot entry)

theorem value_readPkgs {slot : Fin 2} (hsize : d.size = store.sectorCount) {p : Packages store}
    (h : d.Shows (store.slotBase slot + 1) (slotData p.list)) : ∀ {before pkgs : List Pkg}, p.list = before ++ pkgs →
    (store.readPkgs slot (layout (payloadSectors before).length pkgs)).value d = .ok pkgs
  | _, [], _ => rfl
  | before, pkg :: rest, hl => by
    have hpkg := value_readPayloadBytes hsize (showsPayload_of_slotData p h hl)
    have hrest := @value_readPkgs slot hsize p h (before ++ [pkg]) rest (by rw [hl, List.append_assoc]; rfl)
    have hnext : (payloadSectors (before ++ [pkg])).length = (payloadSectors before).length + pkg.sectors.length := by
      simp [payloadSectors]
    rw [hnext] at hrest
    rw [layout, readPkgs, value_bind_readOnly (readOnly_readPayloadBytes slot _) hpkg,
      value_bind_readOnly (readOnly_readPkgs slot _) hrest]
    rfl

theorem value_contents (h : store.ShowsSlots d st) :
    store.contents.value d = .ok ⟨(newest st).generation, (newest st).pkgs⟩ := by
  have hpkgs : (store.readPkgs (newest st).slot (layout 0 (newest st).pkgs)).value d = .ok (newest st).pkgs := by
    rcases newest_cases st with ⟨-, hn⟩ | ⟨p, hst, hp⟩
    · rw [hn]; rfl
    have hshow := h.2 (newest st).slot
    rw [hst] at hshow
    rw [hp]
    exact @value_readPkgs store d _ h.1 p hshow.2.2 [] p.list rfl
  unfold contents
  rw [value_bind_readOnly readOnly_recover (value_recover h)]
  exact value_bind_readOnly (readOnly_readPkgs _ _) hpkgs

/-! ## Whole runs -/

theorem Quiet.crash (h : store.Quiet d st) (hc : d.Crash image) : store.Quiet (Dev.ofImage store.sectorCount image) st :=
  ⟨rfl, fun slot => (h.2 slot).crash hc _⟩

theorem Quiet.edit (h : store.Quiet d st) {edit : Edit}
    (ha : edit.apply (newest st).generation (newest st).pkgs = .ok p.list) : store.Quiet ((edit.prog store).after d)
      (Function.update st (target st) (some ((newest st).generation + 1, p))) := by
  rw [after, (edit_committed h.shows ha).2]
  exact h.outcome (.committed edit p ha (apply_ok ha).1)

def installedDevice : Dev Sector := ((Edit.install tool [0]).prog smallStore).after blankDevice

def installedSlots : Slots smallStore := Function.update (fun _ => none) 0 (some (1, toolPackages 0))

theorem quiet_installedDevice : smallStore.Quiet installedDevice installedSlots := by
  have hblank : smallStore.Quiet blankDevice fun _ => none := ⟨rfl, fun _ => always_ofImage.2 (.inl isBlank_zeros)⟩
  exact hblank.edit (apply_install_tool 0)

def replacedDevice : Dev Sector := ((Edit.replace tool [1]).prog smallStore).after installedDevice

def replacedSlots : Slots smallStore := Function.update installedSlots 1 (some (2, toolPackages 1))

theorem apply_replace_tool (generation : Nat) (hg : generation + 1 < 2 ^ 64) (old : UInt8) (payload : List UInt8)
    (hp : payload.isEmpty = false) :
    (Edit.replace tool payload).apply generation [tool.pkg [old]] = .ok [tool.pkg payload] := by
  have hnext : nextGeneration generation = .ok (generation + 1) := if_pos hg
  rw [Edit.apply, hp]
  rw [hnext]
  rfl

theorem quiet_replacedDevice : smallStore.Quiet replacedDevice replacedSlots :=
  quiet_installedDevice.edit (apply_replace_tool 1 (by decide) 0 [1] rfl)

theorem reach_replacedDevice {allowed : Event Sector → Prop} (hdone : ∀ e : Event Sector, e.Done → allowed e) :
    Reach smallStore allowed replacedDevice :=
  ((reach_blankDevice allowed).after hdone (.edit (.install tool [0]))).after hdone (.edit (.replace tool [1]))

end Store

end MakOS.PackageStore
