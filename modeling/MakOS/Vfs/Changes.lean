/-
What a call can do to the references between descriptors, descriptions and pipes, said once. A call that opens
something fills free entries; any other call goes through a series of changes, each of which moves one reference:
from a descriptor to the list of pending releases, from a queue to that list, from that list to a descriptor, or
out of it. The invariants of the tables follow by cases on these changes.
-/
import MakOS.Vfs.Descriptors

namespace MakOS.Vfs

open Data Relation

/-- What matters of a description to those who refer to it -/
def FileDescription.shape (description : FileDescription) : Nat × DescriptionKind :=
  (description.references, description.kind)

def Pipe.shape (pipe : Pipe) : Nat × Nat × List (Fin maxFileDescriptions) := (pipe.readers, pipe.writers, pipe.rights)

/-- The same references in both states: they differ in numbers, offsets, bytes and locks only. -/
structure Same (s s' : State) : Prop where
  files : ∀ i : Fin maxOpenFiles, s'.files[i].map OpenFile.description = s.files[i].map OpenFile.description
  descriptions : ∀ d : Fin maxFileDescriptions,
    s'.descriptions[d].map FileDescription.shape = s.descriptions[d].map FileDescription.shape
  pipes : ∀ p : Fin maxPipes, s'.pipes[p].map Pipe.shape = s.pipes[p].map Pipe.shape

namespace Same

variable {s s' t : State}

theorem refl (s : State) : Same s s := ⟨fun _ => rfl, fun _ => rfl, fun _ => rfl⟩

theorem symm (h : Same s s') : Same s' s :=
  ⟨fun i => (h.files i).symm, fun d => (h.descriptions d).symm, fun p => (h.pipes p).symm⟩

theorem trans (h : Same s t) (h' : Same t s') : Same s s' :=
  ⟨fun i => (h'.files i).trans (h.files i), fun d => (h'.descriptions d).trans (h.descriptions d),
    fun p => (h'.pipes p).trans (h.pipes p)⟩

/-- A change of other fields -/
theorem of_tables (hfiles : s'.files = s.files) (hdescriptions : s'.descriptions = s.descriptions)
    (hpipes : s'.pipes = s.pipes) : Same s s' := by
  constructor
  · intro i; rw [hfiles]
  · intro d; rw [hdescriptions]
  · intro p; rw [hpipes]

/-- Writing an entry with the same value of `f` -/
theorem map_set {α β : Type} {N : Nat} {table : Slots (Option α) N} {i : Fin N} {f : α → β} {old new : α}
    (h : table[i] = some old) (hsame : f new = f old) (j : Fin N) : (table.set i (some new))[j].map f = table[j].map f := by
  rw [getElem_set]
  split
  · simp_all
  · rfl

variable {i : Fin maxOpenFiles}

theorem setFile {file file' : OpenFile} (h : s.files[i] = some file)
    (hsame : file'.description = file.description) : Same s { s with files := s.files.set i (some file') } :=
  ⟨map_set h hsame, fun _ => rfl, fun _ => rfl⟩

variable {d : Fin maxFileDescriptions} {x : FileDescription}

theorem setDescription {y : FileDescription} (h : s.descriptions[d] = some x)
    (hsame : y.shape = x.shape) : Same s { s with descriptions := s.descriptions.set d (some y) } :=
  ⟨fun _ => rfl, map_set h hsame, fun _ => rfl⟩

variable {p : Fin maxPipes}

theorem setPipe {pipe pipe' : Pipe} (h : s.pipes[p] = some pipe) (hsame : pipe'.shape = pipe.shape) :
    Same s { s with pipes := s.pipes.set p (some pipe') } := ⟨fun _ => rfl, fun _ => rfl, map_set h hsame⟩

/-- A description that is used before is used after, in the same way. -/
theorem description (h : Same s s')
    (hx : s.descriptions[d] = some x) : ∃ y, s'.descriptions[d] = some y ∧ y.references = x.references ∧ y.kind = x.kind := by
  have hd := h.descriptions d
  rw [hx, Option.map_some, Option.map_eq_some_iff] at hd
  obtain ⟨y, hy, hshape⟩ := hd
  exact ⟨y, hy, congrArg Prod.fst hshape, congrArg Prod.snd hshape⟩

theorem noFile (h : Same s s') (hx : s.files[i] = none) : s'.files[i] = none := by
  have hi := h.files i
  rwa [hx, Option.map_none, Option.map_eq_none_iff] at hi

theorem noDescription (h : Same s s') (hx : s.descriptions[d] = none) : s'.descriptions[d] = none := by
  have hd := h.descriptions d
  rwa [hx, Option.map_none, Option.map_eq_none_iff] at hd

end Same

/-! ## Changes -/

/-- Which rights may be queued in which buffer -/
abbrev Policy := State → Fin maxPipes → List (Fin maxFileDescriptions) → Prop

/-- One change of the references, with the releases that are pending before and after it -/
inductive Change (allowed : Policy) : State × List Item → State × List Item → Prop
  | same {s s' : State} {work : List Item} : Same s s' → Change allowed (s, work) (s', work)
  | share {s : State} {work : List Item} {slot : Fin maxOpenFiles} {file : OpenFile} {x : FileDescription} :
      s.files[slot] = none → s.descriptions[file.description] = some x → x.references < byteMax →
      Change allowed (s, work) (s.share slot file, work)
  | send {s : State} {work : List Item} {index : Fin maxPipes} {pipe pipe' : Pipe} :
      s.pipes[index] = some pipe → pipe.rights = [] → pipe'.readers = pipe.readers → pipe'.writers = pipe.writers →
      (∀ d ∈ pipe'.rights, ∃ x, s.descriptions[d] = some x ∧ x.references + pipe'.rights.count d ≤ byteMax) →
      allowed s index pipe'.rights →
      Change allowed (s, work) ({ s with
        descriptions := pipe'.rights.foldl addReference s.descriptions
        pipes := s.pipes.set index (some pipe') }, work)
  | take {s : State} {work : List Item} {index : Fin maxPipes} {pipe pipe' : Pipe} :
      s.pipes[index] = some pipe → pipe'.readers = pipe.readers → pipe'.writers = pipe.writers → pipe'.rights = [] →
      Change allowed (s, work)
        ({ s with pipes := s.pipes.set index (some pipe') }, pipe.rights.map .description ++ work)
  | adopt {s : State} {work : List Item} {slot : Fin maxOpenFiles} {file : OpenFile} :
      s.files[slot] = none →
      Change allowed (s, .description file.description :: work) ({ s with files := s.files.set slot (some file) }, work)
  | drop {s : State} {work : List Item} {slot : Fin maxOpenFiles} {file : OpenFile} :
      s.files[slot] = some file →
      Change allowed (s, work) ({ s with files := s.files.set slot none }, .description file.description :: work)
  | release {s : State} {work : List Item} {item : Item} :
      Change allowed (s, item :: work) ((s.releaseStep item).1, (s.releaseStep item).2 ++ work)

abbrev Changes (allowed : Policy) : State × List Item → State × List Item → Prop := ReflTransGen (Change allowed)

/-- New descriptions, in entries that were free -/
inductive Install : State → State → Prop
  | single {s : State} {slot : Fin maxOpenFiles} {file : OpenFile} {x : FileDescription} :
      s.files[slot] = none → s.descriptions[file.description] = none → x.references = 1 → x.kind.pipes = [] →
      Install s (s.install slot file x)
  | pipe {s : State} {index : Fin maxPipes} {slot slot' : Fin maxOpenFiles} {file file' : OpenFile}
      {x x' : FileDescription} :
      s.pipes[index] = none → s.files[slot] = none → s.files[slot'] = none → slot ≠ slot' →
      s.descriptions[file.description] = none → s.descriptions[file'.description] = none →
      file.description ≠ file'.description → x.references = 1 → x'.references = 1 →
      x.kind = .pipeRead index → x'.kind = .pipeWrite index →
      Install s (({ s with pipes := s.pipes.set index (some .fresh) }.install slot file x).install slot' file' x')
  | pair {s : State} {index index' : Fin maxPipes} {slot slot' : Fin maxOpenFiles} {file file' : OpenFile}
      {x x' : FileDescription} :
      s.pipes[index] = none → s.pipes[index'] = none → index ≠ index' →
      s.files[slot] = none → s.files[slot'] = none → slot ≠ slot' →
      s.descriptions[file.description] = none → s.descriptions[file'.description] = none →
      file.description ≠ file'.description → x.references = 1 → x'.references = 1 →
      x.kind = .socketPair index index' → x'.kind = .socketPair index' index →
      Install s (({ s with pipes := (s.pipes.set index (some .fresh)).set index' (some .fresh) }.install slot file
        x).install slot' file' x')

inductive Effect (allowed : Policy) (s : State) : State → Prop
  | opens {t s' : State} : Same s t → Install t s' → Effect allowed s s'
  | moves {s' : State} : Changes allowed (s, []) (s', []) → Effect allowed s s'

variable {allowed : Policy} {s s' t : State}

variable {work : List Item}

theorem Effect.refl : Effect allowed s s := .moves .refl

theorem Effect.same (h : Same s s') : Effect allowed s s' := .moves (.single (.same h))

/-! ## Releases -/

theorem releaseAll_changes (s : State) (indices : List (Fin maxFileDescriptions)) :
    Changes allowed (s, indices.map .description) (s.releaseAll indices, []) := by
  have h := @State.releaseAll_inv fun t work => Changes allowed (s, indices.map .description) (t, work)
  exact h (fun _ _ _ hbefore => hbefore.tail .release) .refl

variable {slot : Fin maxOpenFiles}

theorem dropFile_changes {file : OpenFile} (h : s.files[slot] = some file) :
    Changes allowed (s, []) (s.dropFile slot file, []) :=
  (ReflTransGen.single (Change.drop h)).trans (releaseAll_changes _ [file.description])

theorem closeSlot_changes {file : OpenFile} (h : s.files[slot] = some file) :
    Changes allowed (s, []) (s.closeSlot slot file, []) := by
  unfold State.closeSlot
  split
  · exact dropFile_changes h
  · exact (dropFile_changes h).tail (.same (.of_tables rfl rfl rfl))

/-- A loop over the slots, each turn of which is a series of changes -/
theorem foldl_changes {turn : State → Fin maxOpenFiles → State}
    (hturn : ∀ t slot, Changes allowed (t, []) (turn t slot, [])) (slots : List (Fin maxOpenFiles)) (s : State) :
    Changes allowed (s, []) (slots.foldl turn s, []) := by
  induction slots generalizing s with
  | nil => exact .refl
  | cons slot rest ih => exact (hturn s slot).trans (ih (turn s slot))

theorem closeOnExec_changes (s : State) (pid : Nat) : Changes allowed (s, []) (s.closeOnExec pid, []) := by
  refine foldl_changes (fun t slot => ?_) _ s
  unfold State.closeOnExecSlot
  split
  · exact .refl
  · split
    · exact closeSlot_changes ‹_›
    · exact .refl

theorem forgetOwner_same (s : State) (pid : Nat) : Same s (s.forgetOwner pid) := .of_tables rfl rfl rfl

theorem closeAll_changes (s : State) (pid : Nat) : Changes allowed (s, []) (s.closeAll pid, []) := by
  refine (foldl_changes (fun t slot => ?_) _ s).tail (.same (forgetOwner_same _ pid))
  unfold State.closeOwnedSlot
  split
  · exact .refl
  · split
    · exact dropFile_changes ‹_›
    · exact .refl

/-- Descriptors take over pending references, in different slots that are free. -/
theorem adopt_changes {ownerPid : Nat} :
    ∀ {entries : List (Fin maxOpenFiles × Nat × Fin maxFileDescriptions)} {s : State},
      (∀ entry ∈ entries, s.files[entry.1] = none) → (entries.map Prod.fst).Nodup →
      Changes allowed (s, entries.map (fun entry => .description entry.2.2) ++ work) (s.adopt ownerPid entries, work) := by
  intro entries
  induction entries with
  | nil => exact fun _ _ => .refl
  | cons entry rest ih =>
    intro s hfree hnodup
    rw [List.map_cons, List.nodup_cons] at hnodup
    have hfirst := hfree entry List.mem_cons_self
    refine .head (@Change.adopt allowed s _ entry.1 ⟨entry.2.1, entry.2.2, false, ownerPid⟩ hfirst)
      (ih (fun other hother => ?_) hnodup.2)
    have hne : other.1 ≠ entry.1 := fun heq => hnodup.1 (heq ▸ List.mem_map_of_mem hother)
    rw [getElem_set_of_ne hne]
    exact hfree other (List.mem_cons_of_mem _ hother)

/-! ## Counts fit their byte -/

/-- Each count is what a `u8` can hold. -/
def Fits (descriptions : Slots (Option FileDescription) maxFileDescriptions) : Prop :=
  ∀ (d : Fin maxFileDescriptions) (x : FileDescription), descriptions[d] = some x → x.references ≤ byteMax

/-- What adding references does to each description, in a byte -/
def FileDescription.addReferences (count : Nat) (x : FileDescription) : FileDescription :=
  { x with references := (x.references + count) % (byteMax + 1) }

theorem addReferences_zero {x : FileDescription} (h : x.references ≤ byteMax) : x.addReferences 0 = x := by
  unfold FileDescription.addReferences
  rw [Nat.add_zero, Nat.mod_eq_of_lt (by omega)]

theorem addReferences_add (m n : Nat) (x : FileDescription) :
    (x.addReferences m).addReferences n = x.addReferences (m + n) := by
  simp [FileDescription.addReferences, Nat.add_assoc]

theorem addReferences_le (n : Nat) (x : FileDescription) : (x.addReferences n).references ≤ byteMax :=
  Nat.le_of_lt_succ (Nat.mod_lt _ (Nat.succ_pos _))

variable {descriptions : Slots (Option FileDescription) maxFileDescriptions}

theorem getElem_addReference (hfits : Fits descriptions) (index d : Fin maxFileDescriptions) :
    (addReference descriptions index)[d] = descriptions[d].map (.addReferences (if index = d then 1 else 0)) := by
  unfold addReference
  by_cases hd : d = index
  · subst hd
    cases hx : descriptions[d] with
    | none => simp [hx]
    | some x => simp [FileDescription.addReferences]
  have hother : descriptions[d].map (.addReferences (if index = d then 1 else 0)) = descriptions[d] := by
    rw [if_neg (Ne.symm hd)]
    cases hx : descriptions[d] with
    | none => rfl
    | some x => rw [Option.map_some, addReferences_zero (hfits d x hx)]
  rw [hother]
  split
  · rfl
  · rw [getElem_set_of_ne hd]

theorem fits_addReference
    (hfits : Fits descriptions) (index : Fin maxFileDescriptions) : Fits (addReference descriptions index) := by
  intro d x hx
  rw [getElem_addReference hfits, Option.map_eq_some_iff] at hx
  obtain ⟨y, -, rfl⟩ := hx
  exact addReferences_le _ y

theorem getElem_foldl_addReference {indices : List (Fin maxFileDescriptions)} :
    ∀ {descriptions : Slots (Option FileDescription) maxFileDescriptions}, Fits descriptions →
      ∀ d : Fin maxFileDescriptions,
        (indices.foldl addReference descriptions)[d] = descriptions[d].map (.addReferences (indices.count d)) := by
  induction indices with
  | nil =>
    intro descriptions hfits d
    cases hx : descriptions[d] with
    | none => simp [hx]
    | some x =>
      rw [List.count_nil, Option.map_some, addReferences_zero (hfits d x hx)]
      exact hx
  | cons index rest ih =>
    intro descriptions hfits d
    rw [List.foldl_cons, ih (fits_addReference hfits index), getElem_addReference hfits, Option.map_map]
    congr 1
    funext x
    rw [Function.comp_apply, addReferences_add, List.count_cons, Nat.add_comm]
    simp

theorem fits_foldl_addReference (indices : List (Fin maxFileDescriptions)) (hfits : Fits descriptions) :
    Fits (indices.foldl addReference descriptions) := by
  induction indices generalizing descriptions with
  | nil => exact hfits
  | cons index rest ih => exact ih (fits_addReference hfits index)

/-! ## No change makes a description -/

/-- Every description that is used after was used before, for the same thing. -/
def Older (descriptions descriptions' : Slots (Option FileDescription) maxFileDescriptions) : Prop :=
  ∀ (d : Fin maxFileDescriptions) (y : FileDescription), descriptions'[d] = some y →
    ∃ x, descriptions[d] = some x ∧ y.kind = x.kind

theorem Older.refl (descriptions : Slots (Option FileDescription) maxFileDescriptions) : Older descriptions descriptions :=
  fun _ y hy => ⟨y, hy, rfl⟩

theorem Older.trans {a b c : Slots (Option FileDescription) maxFileDescriptions} (h : Older a b) (h' : Older b c) :
    Older a c := by
  intro d y hy
  obtain ⟨x, hx, hkind⟩ := h' d y hy
  obtain ⟨w, hw, hkind'⟩ := h d x hx
  exact ⟨w, hw, hkind.trans hkind'⟩

theorem older_foldl_addReference (indices : List (Fin maxFileDescriptions)) (hfits : Fits descriptions) :
    Older descriptions (indices.foldl addReference descriptions) := by
  intro d y hy
  rw [getElem_foldl_addReference hfits, Option.map_eq_some_iff] at hy
  obtain ⟨x, hx, rfl⟩ := hy
  exact ⟨x, hx, rfl⟩

namespace State

theorem destroyPipe_files (s : State) (p : Fin maxPipes) : (s.destroyPipe p).1.files = s.files := by
  unfold destroyPipe
  split <;> rfl

theorem releaseDescription_files (s : State) (d : Fin maxFileDescriptions) :
    (s.releaseDescription d).1.files = s.files := by
  unfold releaseDescription
  split
  · rfl
  split
  · rfl
  split
  · exact (DropsEnds.dropEnds _ _).files
  · rfl

/-- A release does not touch the open files. -/
theorem releaseStep_files (s : State) : (item : Item) → (s.releaseStep item).1.files = s.files
  | .description index => s.releaseDescription_files index
  | .pipe index => s.destroyPipe_files index

@[simp] theorem releaseAll_files (s : State) (indices : List (Fin maxFileDescriptions)) :
    (s.releaseAll indices).files = s.files :=
  @releaseAll_inv (fun t _ => t.files = s.files) (fun t item _ h => (t.releaseStep_files item).trans h) _ _ rfl

theorem closeSlot_files (s : State) (slot : Fin maxOpenFiles) (file : OpenFile) :
    (s.closeSlot slot file).files = s.files.set slot none := by
  unfold closeSlot
  split
  · exact releaseAll_files _ _
  · exact releaseAll_files _ _

/-- A release lowers one count, or frees the description. -/
theorem releaseStep_descriptions (s : State) (item : Item) (d : Fin maxFileDescriptions) (y : FileDescription)
    (hy : (s.releaseStep item).1.descriptions[d] = some y) :
    ∃ x, s.descriptions[d] = some x ∧ y.kind = x.kind ∧ y.references ≤ x.references := by
  have hsame : s.descriptions[d] = some y → ∃ x, s.descriptions[d] = some x ∧ y.kind = x.kind ∧
      y.references ≤ x.references := fun h => ⟨y, h, rfl, le_rfl⟩
  cases item with
  | pipe index =>
    cases hp : s.pipes[index] with
    | none =>
      rw [releaseStep, destroyPipe_none hp] at hy
      exact hsame hy
    | some pipe =>
      rw [releaseStep, destroyPipe_some hp] at hy
      exact hsame hy
  | description index =>
    rw [releaseStep] at hy
    cases hx : s.descriptions[index] with
    | none =>
      simp only [releaseDescription, hx] at hy
      exact hsame hy
    | some x =>
      rcases Nat.lt_trichotomy x.references 1 with hzero | hone | hmore
      · simp only [releaseDescription, hx, if_pos (show x.references = 0 by omega)] at hy
        exact hsame hy
      · rw [releaseDescription_last hx hone, (DropsEnds.dropEnds _ _).descriptions] at hy
        by_cases hd : d = index
        · subst hd
          simp at hy
        · rw [getElem_set_of_ne hd] at hy
          exact hsame hy
      · rw [releaseDescription_more hx hmore] at hy
        by_cases hd : d = index
        · subst hd
          simp only [getElem_set_self, Option.some.injEq] at hy
          subst hy
          exact ⟨x, hx, rfl, Nat.sub_le _ _⟩
        · simp only [getElem_set_of_ne hd] at hy
          exact hsame hy

end State

variable {a b : State × List Item}

theorem Change.fits_older (h : Change allowed a b) (hfits : Fits a.1.descriptions) :
    Fits b.1.descriptions ∧ Older a.1.descriptions b.1.descriptions := by
  cases h with
  | same hsame =>
    constructor
    · intro d y hy
      obtain ⟨x, hx, href, -⟩ := hsame.symm.description hy
      exact href ▸ hfits d x hx
    · intro d y hy
      obtain ⟨x, hx, -, hkind⟩ := hsame.symm.description hy
      exact ⟨x, hx, hkind.symm⟩
  | share hfree hx hlt =>
    exact ⟨fits_addReference hfits _, older_foldl_addReference [_] hfits⟩
  | send hpipe hempty hr hw hroom hallowed =>
    exact ⟨fits_foldl_addReference _ hfits, older_foldl_addReference _ hfits⟩
  | take hpipe hr hw hrights | adopt hfree | drop hfile => exact ⟨hfits, .refl _⟩
  | release =>
    constructor
    · intro d y hy
      obtain ⟨x, hx, -, hle⟩ := State.releaseStep_descriptions _ _ d y hy
      exact hle.trans (hfits d x hx)
    · intro d y hy
      obtain ⟨x, hx, hkind, -⟩ := State.releaseStep_descriptions _ _ d y hy
      exact ⟨x, hx, hkind⟩

theorem Changes.fits_older (h : Changes allowed a b) (hfits : Fits a.1.descriptions) :
    Fits b.1.descriptions ∧ Older a.1.descriptions b.1.descriptions := by
  induction h with
  | refl => exact ⟨hfits, .refl _⟩
  | tail _ hstep ih =>
    obtain ⟨hfits', holder⟩ := ih
    obtain ⟨hfits'', holder'⟩ := hstep.fits_older hfits'
    exact ⟨hfits'', holder.trans holder'⟩

end MakOS.Vfs
