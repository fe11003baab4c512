/-
What the operations of the store do to a set of packages. `Edit.apply` is the meaning of `install`,
`replace` and `remove` on package lists; the operations themselves either reject the request as it
does, without a write, or commit the list it gives.
-/
import MakOS.PackageStore.Commit

namespace MakOS.PackageStore

open MakOS.Bytes MakOS.Device

/-! ## Requests and their meaning -/

inductive Edit
  | install (manifest : Manifest) (payload : List UInt8)
  | replace (manifest : Manifest) (payload : List UInt8)
  | remove (name : List UInt8)

def Edit.prog (store : Store) : Edit → M Nat
  | .install manifest payload => store.install manifest payload
  | .replace manifest payload => store.replace manifest payload
  | .remove name => store.remove name

def Manifest.pkg (manifest : Manifest) (payload : List UInt8) : Pkg :=
  ⟨manifest.name, manifest.version, manifest.dependencies, payload⟩

def indexOf (pkgs : List Pkg) (name : List UInt8) : Option Nat := pkgs.findIdx? fun pkg => pkg.name == name

/-- The packages an accepted request leads to, or why it is rejected. -/
def Edit.apply (generation : Nat) (pkgs : List Pkg) : Edit → Except Error (List Pkg)
  | .install manifest payload => do
    validateManifest manifest
    if payload.isEmpty then .error .noSpace
    else if (indexOf pkgs manifest.name).isSome then .error .alreadyInstalled
    else if pkgs.length = maxPackages then .error .noSpace
    else do
      let _ ← nextGeneration generation
      validateDependencies (layout 0 (pkgs ++ [manifest.pkg payload]))
      return pkgs ++ [manifest.pkg payload]
  | .replace manifest payload => do
    validateManifest manifest
    if payload.isEmpty then .error .noSpace
    else match indexOf pkgs manifest.name with
      | none => .error .notInstalled
      | some index => do
        let _ ← nextGeneration generation
        validateDependencies (layout 0 (pkgs.set index (manifest.pkg payload)))
        return pkgs.set index (manifest.pkg payload)
  | .remove name => do
    validateName name
    match indexOf pkgs name with
    | none => .error .notInstalled
    | some index => do
      let _ ← nextGeneration generation
      (validateDependencies (layout 0 (pkgs.eraseIdx index))).mapError Store.dependedOn
      return pkgs.eraseIdx index

/-! ## Entries of package lists -/

def Entry.bare (entry : Entry) : Entry := { entry with payloadOffset := 0, payloadLength := 0, payloadCrc := 0 }

theorem findEntryIndex_bare (entries : List Entry) (name : List UInt8) :
    findEntryIndex (entries.map Entry.bare) name = findEntryIndex entries name := by
  unfold findEntryIndex
  rw [List.findIdx?_map]
  rfl

theorem findEntry_bare (entries : List Entry) (name : List UInt8) :
    findEntry (entries.map Entry.bare) name = (findEntry entries name).map Entry.bare := by
  unfold findEntry
  rw [findEntryIndex_bare]
  cases findEntryIndex entries name with
  | none => rfl
  | some index => simp

theorem checkRequirement_bare (entries : List Entry) (dependency : Dependency) :
    checkRequirement (entries.map Entry.bare) dependency = checkRequirement entries dependency := by
  unfold checkRequirement
  rw [findEntry_bare]
  cases findEntry entries dependency.name with
  | none => rfl
  | some target => rfl

theorem children_bare (entries : List Entry) (index : Nat) : children (entries.map Entry.bare) index = children entries index := by
  unfold children
  rw [List.getElem?_map]
  cases entries[index]? with
  | none => rfl
  | some entry => simp only [findEntryIndex_bare]; rfl

/-- Dependency checking does not look at payloads. -/
theorem validateDependencies_bare (entries : List Entry) :
    validateDependencies (entries.map Entry.bare) = validateDependencies entries := by
  have hchildren : children (entries.map Entry.bare) = children entries := funext (children_bare entries)
  have hroot : checkRoot (entries.map Entry.bare) = checkRoot entries := by
    funext root
    rw [checkRoot, checkRoot, dependencyCycle, dependencyCycle, hchildren]
  have hreq : checkRequirement (entries.map Entry.bare) = checkRequirement entries := funext (checkRequirement_bare entries)
  unfold validateDependencies
  rw [hroot, hreq, List.length_map]
  congr 1
  exact List.forM_map

theorem describes_manifest (manifest : Manifest) (payload : List UInt8) :
    Store.Describes (entryFromManifest manifest payload.length) (manifest.pkg payload) := ⟨rfl, rfl, rfl, rfl, rfl⟩

theorem describes_layout : ∀ (start : Nat) (pkgs : List Pkg), List.Forall₂ Store.Describes (layout start pkgs) pkgs
  | _, [] => .nil
  | _, _ :: rest => .cons ⟨rfl, rfl, rfl, rfl, rfl⟩ (describes_layout _ rest)

variable {pkgs : List Pkg}

theorem validateDependencies_describes {entries : List Entry} (h : List.Forall₂ Store.Describes entries pkgs) :
    validateDependencies entries = validateDependencies (layout 0 pkgs) := by
  have hbare : ∀ {entries : List Entry} {pkgs : List Pkg}, List.Forall₂ Store.Describes entries pkgs →
      entries.map Entry.bare = pkgs.map fun pkg => (pkg.entry 0).bare := by
    intro entries pkgs h
    induction h with
    | nil => rfl
    | cons h _ ih =>
      obtain ⟨h1, h2, h3, h4, -⟩ := h
      rw [List.map_cons, ih, Entry.bare, h1, h2, h3, h4]
      rfl
  rw [← validateDependencies_bare, hbare h, ← hbare (describes_layout 0 pkgs), validateDependencies_bare]

section Lists

variable {α β : Type} {R : α → β → Prop}

variable {a : α} {b : β}

theorem forall₂_set (hab : R a b) : ∀ {xs : List α} {ys : List β} (i : Nat), List.Forall₂ R xs ys →
    List.Forall₂ R (xs.set i a) (ys.set i b)
  | _, _, _, .nil => .nil
  | _, _, 0, .cons _ hs => .cons hab hs
  | _, _, i + 1, .cons h hs => .cons h (forall₂_set hab i hs)

theorem forall₂_eraseIdx : ∀ {xs : List α} {ys : List β} (i : Nat), List.Forall₂ R xs ys →
    List.Forall₂ R (xs.eraseIdx i) (ys.eraseIdx i)
  | _, _, _, .nil => .nil
  | _, _, 0, .cons _ hs => hs
  | _, _, i + 1, .cons h hs => .cons h (forall₂_eraseIdx i hs)

end Lists

theorem findEntryIndex_layout (name : List UInt8) : ∀ (start : Nat) (pkgs : List Pkg),
    findEntryIndex (layout start pkgs) name = indexOf pkgs name
  | _, [] => rfl
  | start, pkg :: rest => by
    have ih := findEntryIndex_layout name (start + pkg.sectors.length) rest
    unfold findEntryIndex indexOf at ih ⊢
    rw [layout, List.findIdx?_cons, List.findIdx?_cons, ih]
    rfl

theorem isSome_findEntry_layout (name : List UInt8) (pkgs : List Pkg) :
    (findEntry (layout 0 pkgs) name).isSome = (indexOf pkgs name).isSome := by
  unfold findEntry
  cases h : findEntryIndex (layout 0 pkgs) name with
  | none => rw [findEntryIndex_layout] at h; rw [h]; rfl
  | some index =>
    have hi := (findEntryIndex_some h).1
    rw [findEntryIndex_layout] at h
    rw [h, Option.bind_some, List.getElem?_eq_getElem hi]
    rfl

theorem findEntry_layout {pkg : Pkg} {after : List Pkg} : ∀ {before : List Pkg} {start : Nat},
    (∀ p ∈ before, p.name ≠ pkg.name) →
    findEntry (layout start (before ++ pkg :: after)) pkg.name = some (pkg.entry (start + (payloadSectors before).length))
  | [], start, _ => by
    rw [findEntry_eq_find, List.nil_append, layout, List.find?_cons_of_pos (by simp [Pkg.entry])]
    rfl
  | p :: before, start, h => by
    have hp : ((p.entry start).used && (p.entry start).name == pkg.name) = false := by
      simpa [Pkg.entry] using h p List.mem_cons_self
    have ih := @findEntry_layout pkg after before (start + p.sectors.length) (List.forall_mem_cons.1 h).2
    rw [findEntry_eq_find] at ih ⊢
    rw [List.cons_append, layout, List.find?_cons_of_neg (by simp [hp]), ih, payloadSectors_cons, List.length_append,
      Nat.add_assoc]

variable {name : List UInt8}

theorem indexOf_some {index : Nat} (h : indexOf pkgs name = some index) :
    ∃ hi : index < pkgs.length, pkgs[index].name = name := by
  obtain ⟨hi, hp, -⟩ := List.findIdx?_eq_some_iff_getElem.1 h
  exact ⟨hi, by simpa using hp⟩

theorem indexOf_none (h : indexOf pkgs name = none) : ∀ p ∈ pkgs, p.name ≠ name := by
  intro p hp
  have := List.findIdx?_eq_none_iff.1 h p hp
  simpa using this

/-! ## Accepted requests -/

variable {generation : Nat}

theorem nextGeneration_ok {next : Nat} (h : nextGeneration generation = .ok next) :
    next = generation + 1 ∧ generation + 1 < 2 ^ 64 := by
  unfold nextGeneration at h
  split at h
  · rename_i hlt; cases h; exact ⟨rfl, hlt⟩
  · cases h

theorem mapError_ok {ε ε' α : Type} {f : ε → ε'} {x : Except ε α} {a : α} (h : x.mapError f = .ok a) : x = .ok a := by
  cases x with
  | error e => cases h
  | ok b => cases h; rfl

variable {next : List Pkg} {manifest : Manifest} {payload : List UInt8}

/-- What an accepted request makes of the packages -/
def Edit.Makes (pkgs next : List Pkg) : Edit → Prop
  | .install manifest payload => ValidManifest manifest ∧ payload ≠ [] ∧ indexOf pkgs manifest.name = none ∧
      pkgs.length ≠ maxPackages ∧ next = pkgs ++ [manifest.pkg payload]
  | .replace manifest payload => ValidManifest manifest ∧ payload ≠ [] ∧
      ∃ index, indexOf pkgs manifest.name = some index ∧ next = pkgs.set index (manifest.pkg payload)
  | .remove name => ∃ index, indexOf pkgs name = some index ∧ next = pkgs.eraseIdx index

theorem checked_ok {check : Except Error Unit} {made : List Pkg}
    (h : (do let _ ← nextGeneration generation; check; return made) = .ok next) :
    generation + 1 < 2 ^ 64 ∧ check = .ok () ∧ next = made := by
  obtain ⟨g, hg, h⟩ := except_bind_ok h
  obtain ⟨_, hd, h⟩ := except_bind_ok h
  cases h
  exact ⟨(nextGeneration_ok hg).2, hd, rfl⟩

theorem apply_ok {edit : Edit} (h : edit.apply generation pkgs = .ok next) :
    generation + 1 < 2 ^ 64 ∧ validateDependencies (layout 0 next) = .ok () ∧ edit.Makes pkgs next := by
  cases edit with
  | install manifest payload =>
    obtain ⟨_, hm, h⟩ := except_bind_ok h
    split at h
    · cases h
    rename_i hp
    split at h
    · cases h
    rename_i hi
    split at h
    · cases h
    rename_i hl
    obtain ⟨hg, hd, rfl⟩ := checked_ok h
    exact ⟨hg, hd, validateManifest_ok.1 hm, by simpa using hp, by simpa using hi, hl, rfl⟩
  | replace manifest payload =>
    obtain ⟨_, hm, h⟩ := except_bind_ok h
    split at h
    · cases h
    rename_i hp
    split at h
    · cases h
    rename_i index hi
    obtain ⟨hg, hd, rfl⟩ := checked_ok h
    exact ⟨hg, hd, validateManifest_ok.1 hm, by simpa using hp, index, hi, rfl⟩
  | remove name =>
    obtain ⟨_, -, h⟩ := except_bind_ok h
    split at h
    · cases h
    rename_i index hi
    obtain ⟨hg, hd, rfl⟩ := checked_ok h
    exact ⟨hg, mapError_ok hd, index, hi, rfl⟩

theorem Sound.edited (hs : Sound pkgs) (hfew : next.length ≤ maxPackages) (hnames : (next.map Pkg.name).Nodup)
    (hd : validateDependencies (layout 0 next) = .ok ())
    (hmem : ∀ p ∈ next, p ∈ pkgs ∨ ValidManifest p.manifest ∧ p.payload ≠ []) : Sound next :=
  ⟨hfew, hnames, fun p hp => (hmem p hp).elim (hs.manifests p) And.left,
    fun p hp => (hmem p hp).elim (hs.payloads p) And.right, hd⟩

theorem sound_apply {edit : Edit} (hs : Sound pkgs) (h : edit.apply generation pkgs = .ok next) : Sound next := by
  obtain ⟨-, hd, hmakes⟩ := apply_ok h
  cases edit with
  | install manifest payload =>
    obtain ⟨hm, hp, hi, hl, rfl⟩ := hmakes
    have hfew := hs.few
    refine hs.edited ?_ ?_ hd fun p hmem => (List.mem_append.1 hmem).imp_right fun hmem => ?_
    · rw [List.length_append, List.length_singleton]
      omega
    · rw [List.map_append, List.nodup_append]
      refine ⟨hs.names, List.nodup_singleton _, fun a ha b hb hab => ?_⟩
      obtain ⟨p, hp, rfl⟩ := List.mem_map.1 ha
      obtain rfl := List.mem_singleton.1 hb
      exact indexOf_none hi p hp hab
    · obtain rfl := List.mem_singleton.1 hmem
      exact ⟨hm, hp⟩
  | replace manifest payload =>
    obtain ⟨hm, hp, index, hi, rfl⟩ := hmakes
    obtain ⟨hlt, hname⟩ := indexOf_some hi
    have hnames : (pkgs.set index (manifest.pkg payload)).map Pkg.name = pkgs.map Pkg.name := by
      have hlt' : index < (pkgs.map Pkg.name).length := by rw [List.length_map]; exact hlt
      have : (manifest.pkg payload).name = (pkgs.map Pkg.name)[index] := by
        rw [List.getElem_map, hname]; rfl
      rw [List.map_set, this, List.set_getElem_self]
    refine hs.edited (by rw [List.length_set]; exact hs.few) (hnames ▸ hs.names) hd fun p hmem => ?_
    refine (List.mem_or_eq_of_mem_set hmem).imp_right ?_
    rintro rfl
    exact ⟨hm, hp⟩
  | remove name =>
    obtain ⟨index, hi, rfl⟩ := hmakes
    have hsub : (pkgs.eraseIdx index).Sublist pkgs := List.eraseIdx_sublist ..
    exact hs.edited (le_trans hsub.length_le hs.few) ((hsub.map _).nodup hs.names) hd fun p hmem => .inl (hsub.subset hmem)

namespace Store

variable {store : Store}

/-! ## The active snapshot -/

structure Active where
  slot : Fin 2
  generation : Nat
  pkgs : List Pkg

def Active.snapshot (active : Active) : Snapshot := ⟨active.slot, active.generation, layout 0 active.pkgs⟩

/-- The snapshot `recover` takes: the newer one, that of the first slot when they tie. -/
def newest (st : Fin 2 → Option (Nat × Packages store)) : Active :=
  match st 0, st 1 with
  | some (g, p), some (g', p') => if g ≥ g' then ⟨0, g, p.list⟩ else ⟨1, g', p'.list⟩
  | some (g, p), none => ⟨0, g, p.list⟩
  | none, some (g, p) => ⟨1, g, p.list⟩
  | none, none => ⟨1, 0, []⟩

theorem newest_cases (st : Fin 2 → Option (Nat × Packages store)) :
    ((∀ slot, st slot = none) ∧ newest st = ⟨1, 0, []⟩) ∨
      ∃ p, st (newest st).slot = some ((newest st).generation, p) ∧ (newest st).pkgs = p.list := by
  unfold newest
  rcases h0 : st 0 with _ | ⟨g, p⟩ <;> rcases h1 : st 1 with _ | ⟨g', p'⟩
  · refine .inl ⟨fun slot => ?_, rfl⟩
    match slot with
    | 0 => exact h0
    | 1 => exact h1
  · exact .inr ⟨p', h1, rfl⟩
  · exact .inr ⟨p, h0, rfl⟩
  · by_cases hg : g ≥ g'
    · simp only [if_pos hg]
      exact .inr ⟨p, h0, rfl⟩
    · simp only [if_neg hg]
      exact .inr ⟨p', h1, rfl⟩

variable {st : Fin 2 → Option (Nat × Packages store)}

theorem le_newest {slot : Fin 2} {g : Nat} {p : Packages store} (h : st slot = some (g, p)) : g ≤ (newest st).generation := by
  unfold newest
  match slot with
  | 0 =>
    rw [h]
    rcases st 1 with _ | ⟨g', p'⟩
    · exact le_refl _
    · by_cases hg : g ≥ g'
      · simp only [if_pos hg]; exact le_refl _
      · simp only [if_neg hg]; omega
  | 1 =>
    rw [h]
    rcases st 0 with _ | ⟨g', p'⟩
    · exact le_refl _
    · by_cases hg : g' ≥ g
      · simp only [if_pos hg]; exact hg
      · simp only [if_neg hg]; exact le_refl _

theorem sound_newest (st : Fin 2 → Option (Nat × Packages store)) : Sound (newest st).pkgs := by
  rcases newest_cases st with ⟨-, h⟩ | ⟨p, -, h⟩
  · rw [h]; exact ⟨Nat.zero_le _, List.nodup_nil, by simp, by simp, rfl⟩
  · rw [h]; exact p.sound

theorem chooseActive_snapshotOf (st : Fin 2 → Option (Nat × Packages store)) :
    chooseActive (snapshotOf 0 (st 0)) (snapshotOf 1 (st 1)) = .ok (newest st).snapshot := by
  unfold newest
  rcases st 0 with _ | ⟨g, p⟩ <;> rcases st 1 with _ | ⟨g', p'⟩
  · rfl
  · rfl
  · rfl
  · simp only [snapshotOf, chooseActive]
    by_cases hg : g ≥ g'
    · rw [if_pos hg, if_pos hg]; rfl
    · rw [if_neg hg, if_neg hg]; rfl

theorem readOnly_recover : store.recover.ReadOnly := readOnly_readSlots fun _ _ => readOnly_lift _

variable {d : Dev Sector}

variable (h : store.ShowsSlots d st)
include h

theorem value_recover : store.recover.value d = .ok (newest st).snapshot := by
  rw [recover, (readSlots_shows h _).1, Prog.value_lift, chooseActive_snapshotOf]

theorem available_old {replacement : Option (List UInt8 × List UInt8)} {pkg : Pkg} (hp : pkg ∈ (newest st).pkgs)
    (hr : replacement.filter (fun r => r.1 == pkg.name) = none) : Available store d (newest st).snapshot replacement pkg := by
  have hs := sound_newest st
  obtain ⟨before, after, hl⟩ := List.append_of_mem hp
  rcases newest_cases st with ⟨-, he⟩ | ⟨p, hst, hpkgs⟩
  · rw [he] at hp; cases hp
  have hshow := h.2 (newest st).slot
  rw [hst] at hshow
  refine .stored (payloadSectors before).length pkg hr ?_ rfl ?_
  · have hnames := hs.names
    rw [hl, List.map_append, List.nodup_append] at hnames
    have hfind := @findEntry_layout pkg after before 0 fun q hq he =>
      hnames.2.2 q.name (List.mem_map_of_mem hq) pkg.name List.mem_cons_self he
    rw [Nat.zero_add] at hfind
    rw [Active.snapshot, hl]
    exact hfind
  · exact showsPayload_of_slotData p hshow.2.2 (hpkgs ▸ hl)

omit h

theorem otherSlot_ne (slot : Fin 2) : slot ≠ otherSlot slot := by
  match slot with
  | 0 => decide
  | 1 => decide

/-! ## The operations -/

/-- The program rejects the request as `result` says, without a write, or commits the packages `result` gives. -/
def Performs (store : Store) (d : Dev Sector) (st : Fin 2 → Option (Nat × Packages store)) (p : M Nat) :
    Except Error (List Pkg) → Prop
  | .error error => p.Does d (.error error) []
  | .ok next => ∃ entries replacement, List.Forall₂ Describes entries next ∧
      (∀ pkg ∈ next, Available store d (newest st).snapshot replacement pkg) ∧
      ∀ {r es}, (store.commit (newest st).snapshot ⟨otherSlot (newest st).slot, (newest st).generation + 1, entries⟩
        replacement).Does d r es → p.Does d (r.map fun _ => (newest st).generation + 1) es

section Performs

theorem performs_throw (error : Error) : store.Performs d st (.throw error) (.error error) := ⟨rfl, rfl⟩

theorem performs_lift {α : Type} {x : Except Error α} {f : α → M Nat} {g : α → Except Error (List Pkg)}
    (h : ∀ a, x = .ok a → store.Performs d st (f a) (g a)) : store.Performs d st (Prog.lift x >>= f) (x >>= g) := by
  cases x with
  | error error => exact ⟨rfl, rfl⟩
  | ok a => exact h a rfl

variable {x : Except Error (List Pkg)}

theorem performs_ite {c : Prop} [Decidable c] {p q : M Nat} {y : Except Error (List Pkg)}
    (h : c → store.Performs d st p x) (h' : ¬ c → store.Performs d st q y) :
    store.Performs d st (if c then p else q) (if c then x else y) := by
  by_cases hc : c
  · rw [if_pos hc, if_pos hc]; exact h hc
  · rw [if_neg hc, if_neg hc]; exact h' hc

theorem performs_recover (h : store.ShowsSlots d st) {f : Snapshot → M Nat}
    (hf : store.Performs d st (f (newest st).snapshot) x) : store.Performs d st (store.recover >>= f) x := by
  have hdoes := fun {r es} (hd : (f (newest st).snapshot).Does d r es) => hd.bind_readOnly readOnly_recover (value_recover h)
  cases x with
  | error error => exact hdoes hf
  | ok next =>
    obtain ⟨entries, replacement, hentries, ha, hcommits⟩ := hf
    exact ⟨entries, replacement, hentries, ha, fun hd => hdoes (hcommits hd)⟩

theorem performs_commit {entries : List Entry} {next : List Pkg} {replacement : Option (List UInt8 × List UInt8)}
    (hd : List.Forall₂ Describes entries next)
    (ha : ∀ pkg ∈ next, Available store d (newest st).snapshot replacement pkg) {generation : Nat}
    (hg : generation = (newest st).generation + 1) :
    store.Performs d st (do
      store.commit (newest st).snapshot ⟨otherSlot (newest st).slot, generation, entries⟩ replacement
      return generation) (.ok next) := by
  subst hg
  exact ⟨entries, replacement, hd, ha, fun hcommit => hcommit.map _⟩

theorem filter_none {name name' : List UInt8} {payload : List UInt8} (h : name ≠ name') :
    (some (name, payload)).filter (fun r => r.1 == name') = none := by
  simp [h]

theorem filter_some (name payload : List UInt8) :
    (some (name, payload)).filter (fun r => r.1 == name) = some (name, payload) := by
  simp

include h

theorem performs_install (manifest : Manifest) (payload : List UInt8) :
    store.Performs d st (store.install manifest payload)
      ((Edit.install manifest payload).apply (newest st).generation (newest st).pkgs) := by
  refine performs_lift fun _ _ => performs_ite (fun _ => performs_throw _) fun _ => performs_recover h ?_
  have hentries := List.rel_append (describes_layout 0 (newest st).pkgs) (.cons (describes_manifest manifest payload) .nil)
  rw [Active.snapshot]
  simp only [isSome_findEntry_layout, length_layout, validateDependencies_describes hentries]
  refine performs_ite (fun _ => performs_throw _) fun hnone => performs_ite (fun _ => performs_throw _) fun _ => ?_
  have hnone : indexOf (newest st).pkgs manifest.name = none := by simpa using hnone
  refine performs_lift fun generation hg => performs_lift fun _ _ =>
    performs_commit hentries (fun pkg hp => ?_) (nextGeneration_ok hg).1
  rcases List.mem_append.1 hp with hp | hp
  · exact available_old h hp (filter_none (indexOf_none hnone pkg hp).symm)
  · obtain rfl := List.mem_singleton.1 hp
    exact .given manifest.name (filter_some _ _)

theorem performs_replace (manifest : Manifest) (payload : List UInt8) :
    store.Performs d st (store.replace manifest payload)
      ((Edit.replace manifest payload).apply (newest st).generation (newest st).pkgs) := by
  have hs := sound_newest st
  refine performs_lift fun _ _ => performs_ite (fun _ => performs_throw _) fun _ => performs_recover h ?_
  rw [Active.snapshot]
  simp only [findEntryIndex_layout]
  cases hi : indexOf (newest st).pkgs manifest.name with
  | none => exact performs_throw _
  | some index =>
    have hentries := forall₂_set (describes_manifest manifest payload) index (describes_layout 0 (newest st).pkgs)
    simp only [validateDependencies_describes hentries]
    refine performs_lift fun generation hg => performs_lift fun _ _ =>
      performs_commit hentries (fun pkg hp => ?_) (nextGeneration_ok hg).1
    obtain ⟨hlt, hname⟩ := indexOf_some hi
    obtain ⟨j, hj, rfl⟩ := List.mem_iff_getElem.1 hp
    rw [List.getElem_set]
    by_cases hij : index = j
    · rw [if_pos hij]
      exact .given manifest.name (filter_some _ _)
    rw [List.length_set] at hj
    rw [if_neg hij]
    refine available_old h (List.getElem_mem hj) (filter_none fun he => hij ?_)
    -- names are distinct, so no other package has the replaced one's name
    have hnodup := List.pairwise_iff_getElem.1 (List.pairwise_map.1 hs.names)
    rcases Nat.lt_trichotomy index j with hlt' | heq | hlt'
    · exact absurd (hname.trans he) (hnodup index j hlt hj hlt')
    · exact heq
    · exact absurd (hname.trans he).symm (hnodup j index hj hlt hlt')

theorem performs_remove (name : List UInt8) :
    store.Performs d st (store.remove name) ((Edit.remove name).apply (newest st).generation (newest st).pkgs) := by
  refine performs_lift fun _ _ => performs_recover h ?_
  rw [Active.snapshot]
  simp only [findEntryIndex_layout]
  cases hi : indexOf (newest st).pkgs name with
  | none => exact performs_throw _
  | some index =>
    have hentries := forall₂_eraseIdx index (describes_layout 0 (newest st).pkgs)
    simp only [validateDependencies_describes hentries]
    refine performs_lift fun generation hg => performs_lift fun _ _ =>
      performs_commit hentries (fun pkg hp => ?_) (nextGeneration_ok hg).1
    exact available_old h ((List.eraseIdx_sublist ..).subset hp) rfl

theorem performs_edit {edit : Edit} (ha : edit.apply (newest st).generation (newest st).pkgs = x) :
    store.Performs d st (edit.prog store) x := by
  subst ha
  cases edit with
  | install manifest payload => exact performs_install h manifest payload
  | replace manifest payload => exact performs_replace h manifest payload
  | remove name => exact performs_remove h name

end Performs

end Store

/-! ## What a call can do -/

inductive Call
  | edit (edit : Edit)
  | rollback

def Call.prog (store : Store) : Call → M Nat
  | .edit change => change.prog store
  | .rollback => store.rollback

/-- What the two slots hold: nothing, or the packages of a generation. -/
abbrev Slots (store : Store) := Fin 2 → Option (Nat × Packages store)

/-- The slot a call writes. -/
abbrev target {store : Store} (st : Slots store) : Fin 2 := otherSlot (Store.newest st).slot

/-- The result and the requests of a call when nothing fails, on a device that shows `st`, and what
the device shows afterwards. -/
inductive Outcome (store : Store) (st : Slots store) :
    Call → Except Error Nat → List (Event Sector) → Slots store → Prop
  | rejected (call : Call) (error : Error) : Outcome store st call (.error error) [] st
  | committed (edit : Edit) (p : Packages store) :
      edit.apply (Store.newest st).generation (Store.newest st).pkgs = .ok p.list →
      (Store.newest st).generation + 1 < 2 ^ 64 →
      Outcome store st (.edit edit) (.ok ((Store.newest st).generation + 1))
        (store.commitStart (target st) ((Store.newest st).generation + 1) p.list.length ++
          store.commitBody (target st) p.list ++
          store.commitEnd (target st) ((Store.newest st).generation + 1) p.list)
        (Function.update st (target st) (some ((Store.newest st).generation + 1, p)))
  | full (edit : Edit) (next : List Pkg) :
      edit.apply (Store.newest st).generation (Store.newest st).pkgs = .ok next →
      (Store.newest st).generation + 1 < 2 ^ 64 → next.length ≤ maxPackages →
      Outcome store st (.edit edit) (.error .noSpace)
        (store.commitStart (target st) ((Store.newest st).generation + 1) next.length ++
          writesAt (store.slotBase (target st) + payloadStartSector) (payloadSectors (store.fitting 0 next)))
        (Function.update st (target st) none)
  | rolledBack (g : Nat) (p : Packages store) : st (target st) = some (g, p) →
      (Store.newest st).generation + 1 < 2 ^ 64 →
      Outcome store st .rollback (.ok ((Store.newest st).generation + 1))
        [.write (store.slotBase (target st)) [committedHeader ((Store.newest st).generation + 1) p.list], .flush]
        (Function.update st (target st) (some ((Store.newest st).generation + 1, p)))

namespace Store

variable {store : Store} {d : Dev Sector} {st : Fin 2 → Option (Nat × Packages store)}

variable {edit : Edit} {next : List Pkg}

variable (h : store.ShowsSlots d st)
include h

theorem edit_committed {edit : Edit} {p : Packages store}
    (ha : edit.apply (newest st).generation (newest st).pkgs = .ok p.list) :
    (edit.prog store).Does d (.ok ((newest st).generation + 1))
      (store.commitStart (target st) ((newest st).generation + 1) p.list.length ++ store.commitBody (target st) p.list ++
        store.commitEnd (target st) ((newest st).generation + 1) p.list) := by
  obtain ⟨entries, replacement, hd, hav, hcommits⟩ := performs_edit h ha
  exact hcommits (commit_ok h.1 p.addressable (otherSlot_ne _) hd hav p.fits ((newest st).generation + 1))

theorem edit_full (ha : edit.apply (newest st).generation (newest st).pkgs = .ok next) (hcap : store.capacity < 2 ^ 64)
    (hfits : ¬ payloadStartSector + (payloadSectors next).length ≤ store.slotSectors) :
    (edit.prog store).Does d (.error .noSpace)
      (store.commitStart (target st) ((newest st).generation + 1) next.length ++
        writesAt (store.slotBase (target st) + payloadStartSector) (payloadSectors (store.fitting 0 next))) := by
  obtain ⟨entries, replacement, hd, hav, hcommits⟩ := performs_edit h ha
  exact hcommits (commit_noSpace h.1 hcap (otherSlot_ne _) hd hav hfits ((newest st).generation + 1))

theorem edit_error {error : Error} (ha : edit.apply (newest st).generation (newest st).pkgs = .error error) :
    (edit.prog store).Does d (.error error) [] := performs_edit h ha

/-- A request that fails its checks, or that no slot of the store could take. -/
theorem edit_rejected (edit : Edit)
    (hr : (∃ error, edit.apply (newest st).generation (newest st).pkgs = .error error) ∨ store.capacity ≥ 2 ^ 64) :
    ∃ error, (edit.prog store).Does d (.error error) [] := by
  cases ha : edit.apply (newest st).generation (newest st).pkgs with
  | error error => exact ⟨error, edit_error h ha⟩
  | ok next =>
    obtain ⟨entries, replacement, -, -, hcommits⟩ := performs_edit h ha
    rw [ha] at hr
    exact ⟨.noSpace, hcommits (commit_large (hr.resolve_left (by rintro ⟨_, ⟨⟩⟩)) _)⟩

theorem outcome_edit (edit : Edit) :
    ∃ st', Outcome store st (.edit edit) ((edit.prog store).value d) ((edit.prog store).effects d) st' := by
  by_cases hr : (∃ error, edit.apply (newest st).generation (newest st).pkgs = .error error) ∨ store.capacity ≥ 2 ^ 64
  · obtain ⟨error, hv, he⟩ := edit_rejected h edit hr
    rw [hv, he]
    exact ⟨st, .rejected _ error⟩
  cases ha : edit.apply (newest st).generation (newest st).pkgs with
  | error error => exact absurd (.inl ⟨error, ha⟩) hr
  | ok next =>
    have hsound := sound_apply (sound_newest st) ha
    have hcap := not_or.1 hr
    by_cases hfits : payloadStartSector + (payloadSectors next).length ≤ store.slotSectors
    · obtain ⟨hv, he⟩ := @edit_committed store d st h edit ⟨next, hsound, hfits, by omega⟩ ha
      rw [hv, he]
      exact ⟨_, .committed edit ⟨next, hsound, hfits, by omega⟩ ha (apply_ok ha).1⟩
    · obtain ⟨hv, he⟩ := edit_full h ha (by omega) hfits
      rw [hv, he]
      exact ⟨_, .full edit next ha (apply_ok ha).1 hsound.few⟩

omit h

theorem chooseBoth_none (hst : st (target st) = none) :
    chooseBoth (snapshotOf 0 (st 0)) (snapshotOf 1 (st 1)) = .error .notInstalled := by
  rcases h0 : st 0 with _ | ⟨g, p⟩ <;> rcases h1 : st 1 with _ | ⟨g', p'⟩
  · rfl
  · rfl
  · rfl
  · -- with both slots filled the target is one of them
    match ht : target st with
    | 0 => rw [ht, h0] at hst; cases hst
    | 1 => rw [ht, h1] at hst; cases hst

variable {g : Nat} {p : Packages store}

theorem chooseBoth_some (hst : st (target st) = some (g, p)) : chooseBoth (snapshotOf 0 (st 0)) (snapshotOf 1 (st 1)) =
      .ok ((newest st).snapshot, ⟨target st, g, layout 0 p.list⟩) := by
  unfold target newest at *
  rcases h0 : st 0 with _ | ⟨g0, p0⟩ <;> rcases h1 : st 1 with _ | ⟨g1, p1⟩ <;> rw [h0, h1] at hst <;> simp only at hst
  · rw [show otherSlot 1 = (0 : Fin 2) from rfl, h0] at hst; cases hst
  · rw [show otherSlot 1 = (0 : Fin 2) from rfl, h0] at hst; cases hst
  · rw [show otherSlot 0 = (1 : Fin 2) from rfl, h1] at hst; cases hst
  · simp only [snapshotOf, chooseBoth]
    by_cases hg : g0 ≥ g1
    · simp only [if_pos hg] at hst ⊢
      rw [show otherSlot 0 = (1 : Fin 2) from rfl, h1] at hst
      cases hst
      rfl
    simp only [if_neg hg] at hst ⊢
    rw [show otherSlot 1 = (0 : Fin 2) from rfl, h0] at hst
    cases hst
    rfl

include h

theorem rollback_shows {both : Except Error (Snapshot × Snapshot)} {r : Except Error Nat}
    {es : List (Event Sector)} (hc : chooseBoth (snapshotOf 0 (st 0)) (snapshotOf 1 (st 1)) = both)
    (hb : (Prog.lift both >>= store.rollbackTo).Does d r es) : store.rollback.Does d r es := by
  subst hc
  exact ⟨(readSlots_shows h _).1.trans hb.1, (readSlots_shows h _).2.trans hb.2⟩

theorem rollback_none (hst : st (target st) = none) : store.rollback.Does d (.error .notInstalled) [] :=
  rollback_shows h (chooseBoth_none hst) (Prog.does_throw _ d)

theorem rollback_some (hst : st (target st) = some (g, p)) (hlt : (newest st).generation + 1 < 2 ^ 64) :
    store.rollback.Does d (.ok ((newest st).generation + 1))
      [.write (store.slotBase (target st)) [committedHeader ((newest st).generation + 1) p.list], .flush] := by
  have hslot := store.slotBase_le (target st)
  have hlarge := store.large
  have hshow := h.2 (target st)
  rw [hst] at hshow
  obtain ⟨hg, hview, -⟩ := hshow
  have hread : (read (store.slotBase (target st))).value d = .ok (committedHeader g p.list) := by
    rw [value_read (by have := h.1; omega), hview]
  have hn : nextGeneration (newest st).generation = .ok ((newest st).generation + 1) := if_pos hlt
  refine rollback_shows h (chooseBoth_some hst) ?_
  simp only [rollbackTo, Active.snapshot, hn, Prog.lift_ok_bind]
  refine Prog.Does.bind_readOnly ?_ (readOnly_read _) hread
  rw [committedHeader_decode hg p, Prog.lift_ok_bind]
  exact (write_does (k := 0) _ h.1 (by omega)).bind ((Prog.does_sync _).map _)

theorem rollback_last (hst : st (target st) = some (g, p))
    (hlt : ¬ (newest st).generation + 1 < 2 ^ 64) : store.rollback.Does d (.error .noSpace) [] := by
  have hn : nextGeneration (newest st).generation = .error .noSpace := if_neg hlt
  refine rollback_shows h (chooseBoth_some hst) ?_
  simp only [rollbackTo, Active.snapshot, hn, Prog.lift_ok_bind]
  exact Prog.does_throw _ d

theorem outcome_rollback :
    ∃ st', Outcome store st .rollback (store.rollback.value d) (store.rollback.effects d) st' := by
  cases hst : st (target st) with
  | none =>
    obtain ⟨hv, he⟩ := rollback_none h hst
    rw [hv, he]
    exact ⟨st, .rejected _ .notInstalled⟩
  | some x =>
    obtain ⟨g, p⟩ := x
    by_cases hlt : (newest st).generation + 1 < 2 ^ 64
    · obtain ⟨hv, he⟩ := rollback_some h hst hlt
      rw [hv, he]
      exact ⟨_, .rolledBack g p hst hlt⟩
    · obtain ⟨hv, he⟩ := rollback_last h hst hlt
      rw [hv, he]
      exact ⟨st, .rejected _ .noSpace⟩

theorem outcome_call (call : Call) :
    ∃ st', Outcome store st call ((call.prog store).value d) ((call.prog store).effects d) st' := by
  cases call with
  | edit edit => exact outcome_edit h edit
  | rollback => exact outcome_rollback h

end Store

end MakOS.PackageStore
