/-
The devices a package store can be found on: blank at first, then after any calls, whatever request
fails in them, and after power losses at any point of a call. On every one of them each slot holds
nothing or a sound set of packages, however its header is found (`Holds`).
-/
import MakOS.Device.Interrupt
import MakOS.PackageStore.Edit

namespace MakOS.PackageStore

open Bytes Device Device.Prog

namespace Store

variable {store : Store}

/-! ## Every call gives up on the first failed request -/

theorem careful_read (sector : Nat) : (read sector).Careful .io := ⟨rfl, fun _ => trivial⟩

theorem careful_write (sector : Nat) (input : Sector) : (write sector input).Careful .io := ⟨rfl, trivial⟩

theorem careful_flush : flush.Careful .io := ⟨rfl, trivial⟩

theorem careful_eachSector {σ : Type} (slot : Fin 2) {f : σ → List UInt8 → M σ}
    (hf : ∀ s bytes, (f s bytes).Careful .io) (remaining offset : Nat) (s : σ) :
    (store.eachSector slot f remaining offset s).Careful .io := by
  fun_induction eachSector with
  | case1 => trivial
  | case2 remaining offset s hne ih =>
    exact careful_bind (fun _ => careful_bind (fun _ => careful_bind ih (hf _ _)) (careful_read _)) (careful_lift _ _)

theorem careful_readSnapshot (slot : Fin 2) : (store.readSnapshot slot).Careful .io := by
  have hpayload (entry : Entry) : (store.validatePayload slot entry).Careful .io := by
    unfold validatePayload
    repeat' first | refine careful_bind (fun _ => ?_) ?_ | split
    all_goals first | trivial | exact careful_eachSector slot (fun _ _ => by trivial) ..
  unfold readSnapshot readEntries readCatalog
  repeat' first | refine careful_bind (fun _ => ?_) ?_ | split
  all_goals first | trivial | exact careful_read _ | exact careful_lift _ _ | exact careful_forEach hpayload _

theorem careful_readSlots {α : Type} {k : Except Error Snapshot → Except Error Snapshot → M α}
    (hk : ∀ a b, (k a b).Careful .io) : (store.readSlots k).Careful .io := by
  -- after a failed read of the first slot only the second one is still read
  refine careful_attempt_bind ?_ (fun first => careful_attempt_bind ?_ (fun second => ?_) (careful_readSnapshot 1))
    (careful_readSnapshot 0)
  · exact givesUp_of_readOnly (fun second => by simp [isIo, GivesUp]) (readOnly_readSnapshot 1)
  · simp [isIo, GivesUp]
  · split
    · trivial
    · exact hk first second

theorem careful_recover : store.recover.Careful .io := careful_readSlots fun _ _ => careful_lift _ _

theorem careful_placePayloads (active : Snapshot) (slot : Fin 2) (replacement : Option (List UInt8 × List UInt8))
    (entries : List Entry) (cursor : Nat) : (store.placePayloads active slot replacement entries cursor).Careful .io := by
  have hpiece (target : Nat) (bytes : List UInt8) : (store.writePiece slot target bytes).Careful .io :=
    careful_bind (fun _ => careful_bind (fun _ => by trivial) (careful_write _ _)) (careful_lift _ _)
  have hcopy (progress : Nat × UInt32) (bytes : List UInt8) : (store.copyPiece slot progress bytes).Careful .io :=
    careful_bind (fun _ => by trivial) (hpiece ..)
  induction entries generalizing cursor with
  | nil => trivial
  | cons entry rest ih =>
    unfold placePayloads placePayload writeNewPayload copyPayload
    generalize alignSector cursor = aligned
    repeat' first | refine careful_bind (fun _ => ?_) ?_ | split
    all_goals
      first | trivial | exact careful_lift _ _ | exact ih _ | exact careful_foldEach hpiece _ _ | exact careful_eachSector _ hcopy ..

theorem careful_commit (active next : Snapshot) (replacement : Option (List UInt8 × List UInt8)) :
    (store.commit active next replacement).Careful .io := by
  unfold commit beginCommit finishCommit writeCatalog
  split
  · trivial
  repeat' refine careful_bind (fun _ => ?_) ?_
  all_goals
    first | exact careful_flush | exact careful_write _ _ | exact careful_placePayloads .. | exact careful_forEach (fun _ => careful_write _ _) _

theorem careful_call (call : Call) : (call.prog store).Careful .io := by
  cases call with
  | edit edit =>
    cases edit
    all_goals
      unfold Call.prog Edit.prog install replace remove
      repeat' first | exact careful_recover | refine careful_bind (fun _ => ?_) ?_ | split
      all_goals first | trivial | exact careful_lift _ _ | exact careful_commit ..
  | rollback =>
    refine careful_readSlots fun first second => ?_
    unfold rollbackTo
    repeat' refine careful_bind (fun _ => ?_) ?_
    all_goals first | trivial | exact careful_lift _ _ | exact careful_read _

/-! ## The states a commit passes through -/

theorem slotData_inSlot (slot : Fin 2) (p : Packages store) {i : Nat} (hi : i < (slotData p.list).length) :
    store.InSlot slot (store.slotBase slot + 1 + i) := by
  have hfits := p.fits
  rw [slotData, List.length_append, length_catalog] at hi
  unfold payloadStartSector at hfits
  exact ⟨by omega, by omega⟩

variable {slot : Fin 2} {data : List Sector} {e : Event Sector}

theorem payload_touches
    (he : e ∈ writesAt (store.slotBase slot + payloadStartSector) data) : ¬ e.Touches (store.slotBase slot) := by
  intro ht
  have := touches_writesAt he ht
  unfold payloadStartSector at this
  omega

/-- The requests of a call before the header is committed do not touch it once it is marked. -/
theorem body_touches {slot : Fin 2} {pkgs : List Pkg} {e : Event Sector} (he : e ∈ store.commitBody slot pkgs) :
    ¬ e.Touches (store.slotBase slot) := by
  intro ht
  rcases List.mem_append.1 he with he | he
  · exact payload_touches he ht
  · have := touches_writesAt he ht
    omega

theorem always_published (d : Dev Sector) (lba : Nat) (header : Sector) :
    ((d.apply (.write lba [header])).apply .flush).Always lba (· = header) := by
  have h := always_flush (d.apply (.write lba [header])) lba
  rwa [show (d.apply (.write lba [header])).view lba = header from overlay_one ..] at h

theorem always_marked (store : Store) (d : Dev Sector) (slot : Fin 2) (generation count : Nat) :
    (d.replay (store.commitStart slot generation count)).Always (store.slotBase slot)
      (· = preparingHeader generation count) := always_published ..

theorem shows_body (d : Dev Sector) (slot : Fin 2) (pkgs : List Pkg) :
    (d.replay (store.commitBody slot pkgs)).Shows (store.slotBase slot + 1) (slotData pkgs) := by
  rw [slotData, shows_append, commitBody, replay_append]
  refine ⟨shows_writesAt _ _ _, ?_⟩
  have h := shows_writesAt d (store.slotBase slot + payloadStartSector) (payloadSectors pkgs)
  refine h.replay_of_not fun e he i _ ht => ?_
  have := touches_writesAt he ht
  rw [length_catalog] at this
  unfold payloadStartSector at this
  omega

variable {header : Sector}

theorem header_apart (he : e.writes = [(store.slotBase slot, header)])
    (i : Nat) : ¬ e.Touches (store.slotBase slot + 1 + i) := by
  rintro ⟨s, hs⟩
  rw [he, List.mem_singleton] at hs
  have := congrArg Prod.fst hs
  omega

variable {d : Dev Sector} {pkgs : List Pkg}

theorem replay_commitEnd (generation : Nat) (hdata : d.Shows (store.slotBase slot + 1) (slotData pkgs)) :
    (d.replay (store.commitEnd slot generation pkgs)).Settled (store.slotBase slot + 1) (slotData pkgs) ∧
      (d.replay (store.commitEnd slot generation pkgs)).Always (store.slotBase slot)
        (· = committedHeader generation pkgs) := by
  constructor
  · intro i hi
    have hheader : (Event.write (store.slotBase slot) [committedHeader generation pkgs]).writes =
        [(store.slotBase slot, committedHeader generation pkgs)] := sectorWrites_one _ _
    exact ((hdata.settled_flush i hi).apply_of_not (header_apart hheader i)).apply_of_not not_touches_flush
  · exact always_published ..

variable {d' : Dev Sector} {generation : Nat}

/-- Serving the last requests of a commit, whose slot is marked and filled. -/
theorem passes_commitEnd {marked : Sector}
    (hheader : d.Always (store.slotBase slot) (· = marked)) (hdata : d.Shows (store.slotBase slot + 1) (slotData pkgs))
    (h : Passes d (store.commitEnd slot generation pkgs) d') : d'.Always (store.slotBase slot) (· = marked) ∨
      (d'.Settled (store.slotBase slot + 1) (slotData pkgs) ∧ d'.Always (store.slotBase slot) fun s =>
        s = marked ∨ s = committedHeader generation pkgs) ∨ d'.Settled (store.slotBase slot + 1) (slotData pkgs) ∧
        d'.Always (store.slotBase slot) (· = committedHeader generation pkgs) := by
  have hflushed : (d.apply .flush).Always (store.slotBase slot) (· = marked) := hheader.apply_of_not not_touches_flush
  -- with the committed header issued, both headers are possible until the last flush
  have hissued : ∀ e : Event Sector, e.writes = [(store.slotBase slot, committedHeader generation pkgs)] →
      ((d.apply .flush).apply e).Settled (store.slotBase slot + 1) (slotData pkgs) ∧
        ((d.apply .flush).apply e).Always (store.slotBase slot) fun s =>
          s = marked ∨ s = committedHeader generation pkgs := by
    intro e he
    refine ⟨fun i hi => (hdata.settled_flush i hi).apply_of_not (header_apart he i), ?_⟩
    refine (hflushed.mono fun s hs => .inl hs).apply fun s hs => .inr ?_
    rw [he, List.mem_singleton] at hs
    exact congrArg Prod.snd hs
  rcases h.cons_inv with rfl | ⟨_, _, _, he, _⟩ | h
  · exact .inl hheader
  · cases he
  rcases h.cons_inv with rfl | ⟨_, _, seen, he, rfl⟩ | h
  · exact .inl hflushed
  · cases he
    exact .inr (.inl (hissued _ (sectorWrites_one _ _)))
  rcases h.cons_inv with rfl | ⟨_, _, _, he, _⟩ | h
  · exact .inr (.inl (hissued _ (sectorWrites_one _ _)))
  · cases he
  · rw [h.nil_inv]
    exact .inr (.inr (replay_commitEnd generation hdata))

variable {count : Nat}

/-- A header that is written and flushed is being published, or is published. -/
theorem passes_publish {lba : Nat} (h : Passes d [.write lba [header], .flush] d') :
    Passes d [.write lba [header]] d' ∨ d'.Always lba (· = header) := by
  rw [show ∀ a b : Event Sector, [a, b] = [a] ++ [b] from fun _ _ => rfl] at h
  rcases h.append_inv with h | h
  · exact .inl h
  rcases h.cons_inv with rfl | ⟨_, _, _, he, _⟩ | h
  · exact .inl (passes_end _ _)
  · cases he
  · rw [h.nil_inv]
    exact .inr (always_published d lba header)

/-- A commit is marking its slot, filling it, publishing it, or over. -/
theorem passes_commit (h : Passes d (store.commitStart slot generation pkgs.length ++ store.commitBody slot pkgs ++
      store.commitEnd slot generation pkgs) d') :
    Passes d [.write (store.slotBase slot) [preparingHeader generation pkgs.length]] d' ∨
      d'.Always (store.slotBase slot) (· = preparingHeader generation pkgs.length) ∨
      (d'.Settled (store.slotBase slot + 1) (slotData pkgs) ∧ d'.Always (store.slotBase slot) fun s =>
        s = preparingHeader generation pkgs.length ∨ s = committedHeader generation pkgs) ∨
      d'.Settled (store.slotBase slot + 1) (slotData pkgs) ∧
        d'.Always (store.slotBase slot) (· = committedHeader generation pkgs) := by
  have hmarked := always_marked store d slot generation pkgs.length
  rw [List.append_assoc] at h
  rcases h.append_inv with h | h
  · exact (passes_publish h).imp id .inl
  right
  rcases h.append_inv with h | h
  · exact .inl (hmarked.passes (fun e he s hs => absurd ⟨s, hs⟩ (body_touches he)) h)
  · exact passes_commitEnd (hmarked.replay_of_not fun e he => body_touches he) (shows_body _ slot pkgs) h

/-- A commit that runs to its end leaves its slot settled. -/
theorem replay_commit (d : Dev Sector) (slot : Fin 2) (generation count : Nat) (pkgs : List Pkg) :
    (d.replay (store.commitStart slot generation count ++ store.commitBody slot pkgs ++
        store.commitEnd slot generation pkgs)).Settled (store.slotBase slot + 1) (slotData pkgs) ∧
      (d.replay (store.commitStart slot generation count ++ store.commitBody slot pkgs ++
        store.commitEnd slot generation pkgs)).Always (store.slotBase slot) (· = committedHeader generation pkgs) := by
  rw [replay_append, replay_append]
  exact replay_commitEnd generation (shows_body _ slot pkgs)

/-- A commit that runs out of space is marking its slot or filling it. -/
theorem passes_full
    (h : Passes d (store.commitStart slot generation count ++ writesAt (store.slotBase slot + payloadStartSector) data) d') :
    Passes d [.write (store.slotBase slot) [preparingHeader generation count]] d' ∨
      d'.Always (store.slotBase slot) (· = preparingHeader generation count) := by
  rcases h.append_inv with h | h
  · exact passes_publish h
  · exact .inr ((always_marked store d slot generation count).passes
      (fun e he s hs => absurd ⟨s, hs⟩ (payload_touches he)) h)

theorem always_writing {lba : Nat} {P : Sector → Prop} (h : d.Always lba P)
    (hp : Passes d [.write lba [header]] d') : d'.Always lba fun s => P s ∨ s = header := by
  refine (h.mono fun s hs => .inl hs).passes (fun e he s hs => .inr ?_) hp
  rw [List.mem_singleton.1 he, Event.writes, sectorWrites_one, List.mem_singleton] at hs
  exact congrArg Prod.snd hs

variable {es : List (Event Sector)}

theorem settled_writing
    (h : d.Settled (store.slotBase slot + 1) data) (hes : es <+: [.write (store.slotBase slot) [header], .flush])
    (hp : Passes d es d') : d'.Settled (store.slotBase slot + 1) data := by
  refine h.passes (fun e he i hi ht => ?_) hp
  have he := hes.subset he
  simp only [List.mem_cons, List.not_mem_nil, or_false] at he
  rcases he with rfl | rfl
  · have := touches_write_one.1 ht
    omega
  · exact not_touches_flush ht

variable {st st' : Slots store} {call : Call} {r : Except Error Nat}

/-- A call only touches the slot that is not the newest. -/
theorem outcome_inSlot
    (h : Outcome store st call r es st') : ∀ e ∈ es, ∀ lba, e.Touches lba → store.InSlot (target st) lba := by
  have hlarge := store.large
  have hheader : ∀ (header : Sector) lba, (Event.write (store.slotBase (target st)) [header]).Touches lba →
      store.InSlot (target st) lba := by
    intro header lba ht
    obtain rfl := touches_write_one.1 ht
    exact ⟨le_refl _, by omega⟩
  cases h with
  | rejected => intro e he; cases he
  | committed edit p =>
    have hfits := p.fits
    intro e he lba ht
    rcases List.mem_append.1 he with he | he
    · rcases List.mem_append.1 he with he | he
      · exact commitStart_inSlot _ _ _ e he lba ht
      rcases List.mem_append.1 he with he | he
      · exact writesAt_inSlot hfits e he lba ht
      refine writesAt_inSlot ?_ e he lba ht
      rw [length_catalog]
      unfold payloadStartSector at hfits
      omega
    · simp only [commitEnd, List.mem_cons, List.not_mem_nil, or_false] at he
      rcases he with rfl | rfl | rfl
      · exact absurd ht not_touches_flush
      · exact hheader _ lba ht
      · exact absurd ht not_touches_flush
  | full edit next =>
    have hfits := @fitting_fits store 0 next (by omega)
    rw [Nat.zero_add] at hfits
    intro e he lba ht
    rcases List.mem_append.1 he with he | he
    · exact commitStart_inSlot _ _ _ e he lba ht
    · exact writesAt_inSlot hfits e he lba ht
  | rolledBack g p =>
    intro e he lba ht
    simp only [List.mem_cons, List.not_mem_nil, or_false] at he
    rcases he with rfl | rfl
    · exact hheader _ lba ht
    · exact absurd ht not_touches_flush

theorem idle_preparing (hg : generation < 2 ^ 64) (hc : count ≤ maxPackages) : Idle (preparingHeader generation count) := .inr ⟨generation, count, hg, hc, rfl⟩

/-- What a request whose packages do not fit leaves in its slot. -/
theorem view_full (d : Dev Sector) (slot : Fin 2) (generation count : Nat) (data : List Sector) :
    (d.replay (store.commitStart slot generation count ++
        writesAt (store.slotBase slot + payloadStartSector) data)).view (store.slotBase slot) =
      preparingHeader generation count := by
  rw [replay_append, view_replay_of_not fun e he => payload_touches he]
  exact (always_marked store d slot generation count).view

variable {target : Fin 2}

/-- Requests for one slot leave what the other one shows alone. -/
theorem ShowsSlot.replay_other {o : Option (Nat × Packages store)} (h : store.ShowsSlot d slot o)
    (hne : slot ≠ target) (hes : ∀ e ∈ es, ∀ lba, e.Touches lba → store.InSlot target lba) :
    store.ShowsSlot (d.replay es) slot o := by
  have hlarge := store.large
  have hheader : (d.replay es).view (store.slotBase slot) = d.view (store.slotBase slot) :=
    view_replay_of_not fun e he ht => hne (inSlot_unique ⟨le_refl _, by omega⟩ (hes e he _ ht))
  match o, h with
  | none, h =>
    show Idle _
    rw [hheader]
    exact h
  | some (g, p), ⟨hg, hview, hdata⟩ =>
    refine ⟨hg, hheader.trans hview, hdata.replay_of_not fun e he i hi ht => ?_⟩
    exact hne (inSlot_unique (slotData_inSlot slot p hi) (hes e he _ ht))

/-- What the slots show after a call. -/
theorem ShowsSlots.outcome (h : store.ShowsSlots d st) (ho : Outcome store st call r es st') :
    store.ShowsSlots (d.replay es) st' := by
  have hin := outcome_inSlot ho
  have hupdate : ∀ o, store.ShowsSlot (d.replay es) (target st) o →
      store.ShowsSlots (d.replay es) (Function.update st (target st) o) := by
    refine fun o hshow => ⟨(size_replay _ _).trans h.1, fun slot => ?_⟩
    by_cases hslot : slot = target st
    · subst hslot
      rwa [Function.update_self]
    · rw [Function.update_of_ne hslot]
      exact (h.2 slot).replay_other hslot hin
  cases ho with
  | rejected => exact h
  | committed edit p _ hg =>
    obtain ⟨hdata, hheader⟩ := replay_commit d (target st) ((newest st).generation + 1) p.list.length p.list
    exact hupdate (some (_, p)) ⟨hg, hheader.view, hdata.shows⟩
  | full edit next _ hg hfew =>
    refine hupdate none ?_
    show Idle _
    rw [view_full]
    exact idle_preparing hg hfew
  | rolledBack g p hprev hg =>
    have hshow := h.2 (target st)
    rw [hprev] at hshow
    refine hupdate (some (_, p)) ⟨hg, overlay_one _ _ _, hshow.2.2.replay_of_not fun e he i hi ht => ?_⟩
    simp only [List.mem_cons, List.not_mem_nil, or_false] at he
    rcases he with rfl | rfl
    · have := touches_write_one.1 ht
      omega
    · exact not_touches_flush ht

/-! ## Reachable devices -/

/-- The devices of a store: its headers blank at first, then after calls with requests that are
`allowed`, and after power losses at any point of such a call. -/
inductive Reach (store : Store) (allowed : Event Sector → Prop) : Dev Sector → Prop
  | blank (image : Nat → Sector) : (∀ slot, isBlank (image (store.slotBase slot)) = true) →
      Reach store allowed (Dev.ofImage store.sectorCount image)
  | call {d : Dev Sector} {call : Call} {es : List (Event Sector)} {r : Except Error Nat} : Reach store allowed d →
      Runs (call.prog store) d es r → (∀ e ∈ es, allowed e) → Reach store allowed (d.replay es)
  | crash {d : Dev Sector} {call : Call} {es : List (Event Sector)} {r : Except Error Nat} (n : Nat)
      {image : Nat → Sector} : Reach store allowed d → Runs (call.prog store) d es r → (∀ e ∈ es, allowed e) →
      (d.replay (es.take n)).Crash image → Reach store allowed (Dev.ofImage store.sectorCount image)

variable {allowed : Event Sector → Prop}

theorem Reach.after (h : Reach store allowed d)
    (hdone : ∀ e : Event Sector, e.Done → allowed e) (call : Call) : Reach store allowed ((call.prog store).after d) := by
  rw [← after_eq]
  exact .call h (Prog.runs _ _) fun e he => hdone e (eval_done _ _ e he)

/-- What a slot holds, however its header is found: nothing, or packages. -/
def Holds (store : Store) (d : Dev Sector) (slot : Fin 2) : Option (Packages store) → Prop
  | none => d.Always (store.slotBase slot) Idle
  | some p => d.Settled (store.slotBase slot + 1) (slotData p.list) ∧ d.Always (store.slotBase slot) fun s =>
      Idle s ∨ ∃ generation < 2 ^ 64, s = committedHeader generation p.list

def Sane (store : Store) (d : Dev Sector) : Prop := d.size = store.sectorCount ∧ ∀ slot, ∃ c, store.Holds d slot c

variable {c : Option (Packages store)}

theorem passes_other (hne : slot ≠ target) (hes : ∀ e ∈ es, ∀ lba, e.Touches lba → store.InSlot target lba)
    (hp : Passes d es d') :
    (∀ {P : Sector → Prop}, d.Always (store.slotBase slot) P → d'.Always (store.slotBase slot) P) ∧
      ∀ p : Packages store, d.Settled (store.slotBase slot + 1) (slotData p.list) →
        d'.Settled (store.slotBase slot + 1) (slotData p.list) := by
  have hlarge := store.large
  refine ⟨fun h => h.passes (fun e he s hs => ?_) hp, fun p h => h.passes (fun e he i hi ht => ?_) hp⟩
  · exact absurd (inSlot_unique ⟨le_refl _, by omega⟩ (hes e he _ ⟨s, hs⟩)) hne
  · exact hne (inSlot_unique (slotData_inSlot slot p hi) (hes e he _ ht))

theorem Holds.passes_other (h : store.Holds d slot c) (hne : slot ≠ target)
    (hes : ∀ e ∈ es, ∀ lba, e.Touches lba → store.InSlot target lba) (hp : Passes d es d') : store.Holds d' slot c :=
  have hother := Store.passes_other hne hes hp
  match c, h with
  | none, h => hother.1 h
  | some p, ⟨hdata, h⟩ => ⟨hother.2 p hdata, hother.1 h⟩

variable {image : Nat → Sector}

theorem Holds.crash (h : store.Holds d slot c) (hc : d.Crash image) (size : Nat) : store.Holds (Dev.ofImage size image) slot c :=
  match c, h with
  | none, h => always_ofImage.2 (Dev.Always.crash h hc)
  | some _, ⟨hdata, h⟩ => ⟨hdata.crash hc size, always_ofImage.2 (Dev.Always.crash h hc)⟩

/-- What a slot that holds something shows. -/
theorem Holds.shows (h : store.Holds d slot c) :
    ∃ o, store.ShowsSlot d slot o ∧ ∀ g p, o = some (g, p) → store.Holds d slot (some p) := by
  match c, h with
  | none, h => exact ⟨none, h.view, fun _ _ ho => by cases ho⟩
  | some p, ⟨hdata, h⟩ =>
    rcases h.view with hidle | ⟨g, hg, hview⟩
    · exact ⟨none, hidle, fun _ _ ho => by cases ho⟩
    · refine ⟨some (g, p), ⟨hg, hview, hdata.shows⟩, ?_⟩
      rintro _ _ ⟨⟩
      exact ⟨hdata, h⟩

theorem Sane.shows (h : store.Sane d) :
    ∃ st, store.ShowsSlots d st ∧ ∀ slot g p, st slot = some (g, p) → store.Holds d slot (some p) := by
  have := fun slot => (h.2 slot).choose_spec.shows
  choose st hshow hholds using this
  exact ⟨st, ⟨h.1, hshow⟩, hholds⟩

theorem Holds.mark (h : store.Holds d slot c) (hh : Idle header) (hp : Passes d [.write (store.slotBase slot) [header]] d') :
    store.Holds d' slot c := by
  match c, h with
  | none, h => exact (always_writing h hp).mono fun s hs => hs.elim id fun hs => hs ▸ hh
  | some p, ⟨hdata, h⟩ =>
    refine ⟨settled_writing hdata ⟨[.flush], rfl⟩ hp, (always_writing h hp).mono fun s hs => ?_⟩
    rcases hs with hs | rfl
    · exact hs
    · exact .inl hh

/-- A call keeps every slot holding something, wherever it is interrupted. -/
theorem Sane.outcome (h : store.Sane d)
    (hst : ∀ slot g p, st slot = some (g, p) → store.Holds d slot (some p)) (ho : Outcome store st call r es st') (hp : Passes d es d') : store.Sane d' := by
  refine ⟨hp.size.trans h.1, fun slot => ?_⟩
  obtain ⟨c, hc⟩ := h.2 slot
  by_cases hslot : slot = target st
  swap
  · exact ⟨c, hc.passes_other hslot (outcome_inSlot ho) hp⟩
  subst hslot
  have hprep : ∀ generation count, generation < 2 ^ 64 → count ≤ maxPackages → Idle (preparingHeader generation count) :=
    fun generation count hg hcount => .inr ⟨generation, count, hg, hcount, rfl⟩
  cases ho with
  | rejected => exact ⟨c, hp.nil_inv ▸ hc⟩
  | committed edit p _ hg =>
    have hidle := hprep _ _ hg p.sound.few
    rcases passes_commit hp with hp | h | ⟨hdata, h⟩ | ⟨hdata, h⟩
    · exact ⟨c, hc.mark hidle hp⟩
    · exact ⟨none, h.mono fun s hs => hs ▸ hidle⟩
    · refine ⟨some p, hdata, h.mono fun s hs => ?_⟩
      rcases hs with rfl | rfl
      · exact .inl hidle
      · exact .inr ⟨_, hg, rfl⟩
    · exact ⟨some p, hdata, h.mono fun s hs => .inr ⟨_, hg, hs⟩⟩
  | full edit next _ hg hfew =>
    have hidle := hprep _ _ hg hfew
    rcases passes_full hp with hp | h
    · exact ⟨c, hc.mark hidle hp⟩
    · exact ⟨none, h.mono fun s hs => hs ▸ hidle⟩
  | rolledBack g p hprev hg =>
    obtain ⟨hdata, hheader⟩ := hst _ g p hprev
    refine ⟨some p, settled_writing hdata List.prefix_rfl hp, ?_⟩
    rcases passes_publish hp with hp | h
    · exact (always_writing hheader hp).mono fun s hs => hs.elim id fun hs => .inr ⟨_, hg, hs⟩
    · exact h.mono fun s hs => .inr ⟨_, hg, hs⟩

theorem sane_blank (h : ∀ slot, isBlank (image (store.slotBase slot)) = true) :
    store.Sane (Dev.ofImage store.sectorCount image) :=
  ⟨rfl, fun slot => ⟨none, always_ofImage.2 (.inl (h slot))⟩⟩

theorem Sane.passes (h : store.Sane d) (hp : Passes d ((call.prog store).effects d) d') : store.Sane d' := by
  obtain ⟨st, hshow, hholds⟩ := h.shows
  obtain ⟨st', ho⟩ := outcome_call hshow call
  exact h.outcome hholds ho hp

theorem Sane.crash (h : store.Sane d) (hc : d.Crash image) : store.Sane (Dev.ofImage store.sectorCount image) :=
  ⟨rfl, fun slot => (h.2 slot).imp fun _ hholds => hholds.crash hc _⟩

/-- Every slot of a reachable device holds something, whatever failed and wherever power was lost. -/
theorem reach_sane (h : Reach store allowed d) : store.Sane d := by
  induction h with
  | blank image hb => exact sane_blank hb
  | @call d call es r _ hrun _ ih =>
    have := ih.passes (hrun.passes (careful_call call) es.length)
    rwa [List.take_length] at this
  | crash n _ hrun _ hc ih => exact (ih.passes (hrun.passes (careful_call _) n)).crash hc

/-! ## A small store -/

/-- Two slots of six sectors, of which one takes payload. -/
def smallStore : Store := ⟨12, 0, 6, by decide, by decide, by decide⟩

def blankDevice : Dev Sector := Dev.ofImage smallStore.sectorCount fun _ => zeros 512

/-- The package `a` of version 1.0, without dependencies. -/
def tool : Manifest := ⟨[0x61], [0x31, 0x2e, 0x30], []⟩

theorem isBlank_zeros : isBlank (zeros 512) = true := by
  rw [isBlank, zeros, List.all_eq_true]
  intro byte h
  rw [List.eq_of_mem_replicate h]
  rfl

theorem reach_blankDevice (allowed : Event Sector → Prop) : Reach smallStore allowed blankDevice :=
  .blank _ fun _ => isBlank_zeros

theorem sound_tool (byte : UInt8) : Sound [tool.pkg [byte]] where
  few := show 1 ≤ 8 by decide
  names := List.nodup_singleton _
  manifests := by
    intro pkg hp
    rw [List.mem_singleton.1 hp]
    exact (validateManifest_ok.1 (by decide) : ValidManifest tool)
  payloads := by
    intro pkg hp
    rw [List.mem_singleton.1 hp]
    exact List.cons_ne_nil _ _
  dependencies := rfl

/-- The one package of the small store, with a payload of one byte. -/
def toolPackages (byte : UInt8) : Packages smallStore where
  list := [tool.pkg [byte]]
  sound := sound_tool byte
  fits := by
    rw [payloadSectors_cons, List.length_append, length_sectors]
    show 5 + ((1 + 511) / 512 + 0) ≤ 6
    decide
  addressable := by decide

theorem apply_install_tool (byte : UInt8) :
    (Edit.install tool [byte]).apply 0 [] = .ok (toolPackages byte).list := rfl

theorem shows_blankDevice : smallStore.ShowsSlots blankDevice fun _ => none :=
  ⟨rfl, fun _ => .inl isBlank_zeros⟩

theorem value_install_tool (byte : UInt8) : ((Edit.install tool [byte]).prog smallStore).value blankDevice = .ok 1 :=
  (@edit_committed _ _ _ shows_blankDevice (.install tool [byte]) (toolPackages byte) (apply_install_tool byte)).1

/-! ## Dependencies of reachable snapshots -/

/-- Names are unique, every requirement is met and no package depends on itself through others. -/
structure SoundEntries (entries : List Entry) : Prop where
  unique : (entries.map Entry.name).Nodup
  satisfied : ∀ entry ∈ entries, ∀ dependency ∈ entry.dependencies, Satisfied entries dependency
  acyclic : ∀ i, ¬ Relation.TransGen (DependsOn entries) i i

theorem map_name_layout : ∀ (start : Nat) (pkgs : List Pkg), (layout start pkgs).map Entry.name = pkgs.map Pkg.name
  | _, [] => rfl
  | _, _ :: rest => by rw [layout, List.map_cons, map_name_layout]; rfl

theorem soundEntries_layout (h : Sound pkgs) : SoundEntries (layout 0 pkgs) := by
  obtain ⟨hmet, hacyclic⟩ := (validateDependencies_ok (by rw [length_layout]; exact h.few)).1 h.dependencies
  refine ⟨?_, hmet, hacyclic⟩
  rw [map_name_layout]
  exact h.names

/-- Whatever failed and wherever power was lost, a store recovers to sound entries, and both slots
have sound entries wherever they have any; and the check of the dependencies decides just that. -/
theorem snapshots_sound {store : Store} {d : Dev Sector} (h : Reach store (fun _ => True) d) :
    (∃ snapshot, store.recover.value d = .ok snapshot ∧ SoundEntries snapshot.entries) ∧
      (∀ slot snapshot, (store.readSnapshot slot).value d = .ok snapshot → SoundEntries snapshot.entries) ∧
      ∀ entries : List Entry, entries.length ≤ maxPackages →
        (validateDependencies entries = .ok () ↔
          (∀ entry ∈ entries, ∀ dependency ∈ entry.dependencies, Satisfied entries dependency) ∧
            ∀ i, ¬ Relation.TransGen (DependsOn entries) i i) := by
  obtain ⟨st, hshow, -⟩ := (reach_sane h).shows
  refine ⟨⟨_, value_recover hshow, soundEntries_layout (sound_newest st)⟩, ?_, fun _ => validateDependencies_ok⟩
  intro slot snapshot hread
  rw [value_readSnapshot hshow.1 (hshow.2 slot)] at hread
  rcases hst : st slot with _ | ⟨generation, p⟩
  · rw [hst] at hread
    cases hread
  · rw [hst] at hread
    cases hread
    exact soundEntries_layout p.sound

theorem snapshots_sound_tool : ∃ snapshot,
    smallStore.recover.value (blankDevice.replay ((smallStore.install tool [0]).eval blankDevice).2) = .ok snapshot ∧
      SoundEntries snapshot.entries :=
  (snapshots_sound (Reach.call (reach_blankDevice _) (Prog.runs ((Call.edit (.install tool [0])).prog smallStore) blankDevice)
    fun _ _ => trivial)).1

end Store

end MakOS.PackageStore
