/-
The references of descriptions are counted: a description has as many references as there are descriptors and
queued rights that name it, and is free when there are none. The count is a byte. A fork looks once at each
description of the parent for a count of 255 and then adds one for each descriptor, so a parent with several
descriptors of one description can take the count past 255, where it starts again at 0. In the runs whose forks
all leave room for their descriptors the count is right after every call.
-/
import MakOS.Data.Guarded
import MakOS.Vfs.Calls

namespace MakOS.Vfs

open Data Data.Act State

def naming (d : Fin maxFileDescriptions) (entry : Option OpenFile) : Bool := entry.any fun file => file.description == d

def queuedFor (d : Fin maxFileDescriptions) (entry : Option Pipe) : Nat := entry.elim 0 fun pipe => pipe.rights.count d

namespace State

/-- The open files that name a description, and the queued rights that do -/
def named (s : State) (d : Fin maxFileDescriptions) : Nat :=
  s.files.toList.countP (naming d) + total (queuedFor d) s.pipes

def references (s : State) (d : Fin maxFileDescriptions) : Nat := s.descriptions[d].elim 0 FileDescription.references

end State

/-- The count of each used description is what names it, and the free ones are those that nothing names. -/
def Counted (s : State) : Prop :=
  ∀ d : Fin maxFileDescriptions,
    (∀ x, s.descriptions[d] = some x → x.references = s.named d) ∧ (s.descriptions[d] = none ↔ s.named d = 0)

/-- The same within a call, where some releases are pending -/
structure Balanced (s : State) (work : List Item) : Prop where
  counts : ∀ d : Fin maxFileDescriptions, s.references d = s.named d + work.count (.description d)
  positive : ∀ (d : Fin maxFileDescriptions) (x : FileDescription), s.descriptions[d] = some x → 0 < x.references
  fits : Fits s.descriptions

variable {allowed : Policy} {s s' t : State} {work : List Item} {d : Fin maxFileDescriptions}

/-! ## Writing one entry -/

theorem named_setFile (s : State) (slot : Fin maxOpenFiles) (entry : Option OpenFile) (d : Fin maxFileDescriptions) :
    { s with files := s.files.set slot entry }.named d + (if naming d s.files[slot] then 1 else 0) =
      s.named d + if naming d entry then 1 else 0 := by
  have h := countP_set (naming d) s.files slot entry
  simp only [named]
  omega

theorem named_setPipe (s : State) (index : Fin maxPipes) (entry : Option Pipe) (d : Fin maxFileDescriptions) :
    { s with pipes := s.pipes.set index entry }.named d + queuedFor d s.pipes[index] = s.named d + queuedFor d entry := by
  have h := total_set (queuedFor d) s.pipes index entry
  simp only [named]
  omega

theorem naming_some (d : Fin maxFileDescriptions) (file : OpenFile) : naming d (some file) = (file.description == d) := rfl

variable {x : FileDescription}

theorem references_of_some (h : s.descriptions[d] = some x) : s.references d = x.references := by
  rw [references, h]
  rfl

theorem references_of_none (h : s.descriptions[d] = none) : s.references d = 0 := by
  rw [references, h]
  rfl

theorem references_set (s : State) (e d : Fin maxFileDescriptions) (entry : Option FileDescription) :
    { s with descriptions := s.descriptions.set e entry }.references d =
      if d = e then entry.elim 0 FileDescription.references else s.references d := by
  unfold references
  split
  · rename_i h
    subst h
    simp
  · rename_i h
    simp only [getElem_set_of_ne h]

theorem named_congr (hfiles : ∀ i : Fin maxOpenFiles, s'.files[i].map OpenFile.description = s.files[i].map OpenFile.description)
    (hrights : ∀ p : Fin maxPipes, s'.pipes[p].map Pipe.rights = s.pipes[p].map Pipe.rights) (d : Fin maxFileDescriptions) :
    s'.named d = s.named d := by
  have hnaming : ∀ entry, naming d entry = (entry.map OpenFile.description).any (· == d) := by
    rintro (_ | file) <;> rfl
  have hqueued : ∀ entry, queuedFor d entry = (entry.map Pipe.rights).elim 0 (·.count d) := by
    rintro (_ | pipe) <;> rfl
  unfold named
  congr 1
  · exact countP_congr_slots fun i => by rw [hnaming, hnaming, hfiles]
  · exact total_congr fun p => by rw [hqueued, hqueued, hrights]

theorem Same.named (h : Same s s') (d : Fin maxFileDescriptions) : s'.named d = s.named d := by
  refine named_congr h.files (fun p => ?_) d
  have hp := congrArg (Option.map fun shape => shape.2.2) (h.pipes p)
  rwa [Option.map_map, Option.map_map] at hp

theorem Same.references (h : Same s s') (d : Fin maxFileDescriptions) : s'.references d = s.references d := by
  cases hd : s.descriptions[d] with
  | none => rw [references_of_none hd, references_of_none (h.noDescription hd)]
  | some x =>
    obtain ⟨y, hy, href, -⟩ := h.description hd
    rw [references_of_some hd, references_of_some hy, href]

theorem count_description_map (rights : List (Fin maxFileDescriptions)) (d : Fin maxFileDescriptions) :
    (rights.map Item.description).count (.description d) = rights.count d :=
  List.count_map_of_injective rights Item.description (fun _ _ h => Item.description.inj h) d

/-! ## One change -/

/-- What holds of every description and of the new entry holds after the entry is written. -/
theorem forall_set {descriptions : Slots (Option FileDescription) maxFileDescriptions} {index : Fin maxFileDescriptions}
    {entry : Option FileDescription} {Q : FileDescription → Prop}
    (h : ∀ (d : Fin maxFileDescriptions) (x : FileDescription), descriptions[d] = some x → Q x)
    (hentry : ∀ y, entry = some y → Q y) (d : Fin maxFileDescriptions) (y : FileDescription)
    (hy : (descriptions.set index entry)[d] = some y) : Q y := by
  rw [getElem_set] at hy
  split at hy
  · exact hentry y hy
  · exact h d y hy

/-- The references of `indices` are added to descriptions that are used and have room for them. -/
def Room (s : State) (indices : List (Fin maxFileDescriptions)) : Prop :=
  ∀ d ∈ indices, ∃ x, s.descriptions[d] = some x ∧ x.references + indices.count d ≤ byteMax

variable {indices : List (Fin maxFileDescriptions)} {y : FileDescription}

/-- The description after references are added to it -/
theorem added_some (hfits : Fits s.descriptions)
    (hroom : Room s indices) (hy : (indices.foldl addReference s.descriptions)[d] = some y) :
    ∃ x, s.descriptions[d] = some x ∧ y.kind = x.kind ∧ y.references = x.references + indices.count d := by
  rw [getElem_foldl_addReference hfits, Option.map_eq_some_iff] at hy
  obtain ⟨x, hx, rfl⟩ := hy
  refine ⟨x, hx, rfl, Nat.mod_eq_of_lt (Nat.lt_succ_of_le ?_)⟩
  by_cases hmem : d ∈ indices
  · obtain ⟨w, hw, hle⟩ := hroom d hmem
    rw [hx] at hw
    cases hw
    exact hle
  · rw [List.count_eq_zero_of_not_mem hmem]
    exact hfits d x hx

theorem references_added (hfits : Fits s.descriptions) (hroom : Room s indices) (d : Fin maxFileDescriptions) :
    { s with descriptions := indices.foldl addReference s.descriptions }.references d =
      s.references d + indices.count d := by
  cases hx : s.descriptions[d] with
  | none =>
    have hmem : d ∉ indices := by
      intro hmem
      obtain ⟨w, hw, -⟩ := hroom d hmem
      rw [hx] at hw
      cases hw
    have hnone : (indices.foldl addReference s.descriptions)[d] = none := by
      rw [getElem_foldl_addReference hfits, hx, Option.map_none]
    rw [references_of_none hx, references_of_none hnone, List.count_eq_zero_of_not_mem hmem]
  | some x =>
    have hsome : (indices.foldl addReference s.descriptions)[d] = some (x.addReferences (indices.count d)) := by
      rw [getElem_foldl_addReference hfits, hx, Option.map_some]
    obtain ⟨w, hw, -, href⟩ := added_some hfits hroom hsome
    rw [hx] at hw
    cases hw
    rw [references_of_some hx, references_of_some hsome, href]

namespace Balanced

variable {work' : List Item}

variable (h : Balanced s work)
include h

theorem unchanged (hsame : s'.descriptions = s.descriptions) (hcounts : ∀ d : Fin maxFileDescriptions,
      s'.named d + work'.count (.description d) = s.named d + work.count (.description d)) : Balanced s' work' := by
  constructor
  · intro d
    rw [hcounts, ← h.counts, references, hsame]
    rfl
  · intro d x hx
    rw [hsame] at hx
    exact h.positive d x hx
  · rw [hsame]
    exact h.fits

/-- The descriptions gain the references of `indices`, as many as the tables do. -/
theorem added {indices : List (Fin maxFileDescriptions)} (hroom : Room s indices)
    (hsame : s'.descriptions = indices.foldl addReference s.descriptions)
    (hnamed : ∀ d : Fin maxFileDescriptions, s'.named d = s.named d + indices.count d) : Balanced s' work := by
  constructor
  · intro d
    have hadded := references_added h.fits hroom d
    have hcounts := h.counts d
    have hfold : s'.references d = s.references d + indices.count d := by
      rw [← hadded, references, hsame]
      rfl
    have := hnamed d
    omega
  · intro d y hy
    rw [hsame] at hy
    obtain ⟨x, hx, -, href⟩ := added_some h.fits hroom hy
    have := h.positive d x hx
    omega
  · rw [hsame]
    exact fits_foldl_addReference _ h.fits

theorem same (hsame : Same s s') : Balanced s' work := by
  constructor
  · intro d
    rw [hsame.references, hsame.named]
    exact h.counts d
  · intro d y hy
    obtain ⟨x, hx, href, -⟩ := hsame.symm.description hy
    exact href ▸ h.positive d x hx
  · intro d y hy
    obtain ⟨x, hx, href, -⟩ := hsame.symm.description hy
    exact href ▸ h.fits d x hx

variable {slot : Fin maxOpenFiles} {file : OpenFile} {x : FileDescription}

theorem share
    (hfree : s.files[slot] = none) (hx : s.descriptions[file.description] = some x) (hlt : x.references < byteMax) :
    Balanced (s.share slot file) work := by
  have hroom : Room s [file.description] := by
    intro d hd
    rw [List.mem_singleton] at hd
    subst hd
    refine ⟨x, hx, ?_⟩
    rw [List.count_singleton_self]
    exact hlt
  refine h.added hroom rfl fun d => ?_
  have hnamed := named_setFile s slot (some file) d
  rw [hfree] at hnamed
  rw [List.count_singleton]
  exact hnamed

theorem send {index : Fin maxPipes} {pipe pipe' : Pipe} (hpipe : s.pipes[index] = some pipe)
    (hempty : pipe.rights = []) (hroom : Room s pipe'.rights) :
    Balanced { s with
      descriptions := pipe'.rights.foldl addReference s.descriptions
      pipes := s.pipes.set index (some pipe') } work := by
  refine h.added hroom rfl fun d => ?_
  have hnamed := named_setPipe s index (some pipe') d
  rw [hpipe, queuedFor, Option.elim, hempty] at hnamed
  exact hnamed

theorem take {index : Fin maxPipes} {pipe pipe' : Pipe} (hpipe : s.pipes[index] = some pipe)
    (hrights : pipe'.rights = []) :
    Balanced { s with pipes := s.pipes.set index (some pipe') } (pipe.rights.map .description ++ work) := by
  refine h.unchanged rfl fun d => ?_
  have hnamed := named_setPipe s index (some pipe') d
  rw [hpipe, queuedFor, queuedFor, Option.elim, Option.elim, hrights, List.count_nil] at hnamed
  rw [List.count_append, count_description_map]
  omega

omit h

theorem adopt {slot : Fin maxOpenFiles} {file : OpenFile} (h : Balanced s (.description file.description :: work))
    (hfree : s.files[slot] = none) : Balanced { s with files := s.files.set slot (some file) } work := by
  refine h.unchanged rfl fun d => ?_
  have hnamed := named_setFile s slot (some file) d
  rw [hfree, naming_some] at hnamed
  rw [List.count_cons]
  simp only [naming, Option.any_none, Bool.false_eq_true, if_false, beq_iff_eq, Item.description.injEq] at hnamed ⊢
  omega

theorem drop (h : Balanced s work) (hfile : s.files[slot] = some file) :
    Balanced { s with files := s.files.set slot none } (.description file.description :: work) := by
  refine h.unchanged rfl fun d => ?_
  have hnamed := named_setFile s slot none d
  rw [hfile, naming_some] at hnamed
  rw [List.count_cons]
  simp only [naming, Option.any_none, Bool.false_eq_true, if_false, beq_iff_eq, Item.description.injEq] at hnamed ⊢
  omega

variable {index : Fin maxFileDescriptions}

/-- One description has one reference less, or is free if it had one. -/
theorem lowered {entry : Option FileDescription} (h : Balanced s (.description index :: work)) (hx : s.descriptions[index] = some x)
    (hentry : entry.elim 0 FileDescription.references = x.references - 1)
    (hpos : ∀ y, entry = some y → 0 < y.references) (hsame : s'.descriptions = s.descriptions.set index entry)
    (hnamed : ∀ d : Fin maxFileDescriptions, s'.named d = s.named d)
    (hcount : ∀ d : Fin maxFileDescriptions, work'.count (.description d) = work.count (.description d)) :
    Balanced s' work' := by
  have hlower : ∀ y, entry = some y → y.references ≤ x.references := by
    rintro y rfl
    exact hentry.trans_le (Nat.sub_le _ _)
  constructor
  · intro d
    have hcounts := h.counts d
    have href := references_set s index d entry
    rw [references, hsame, hnamed, hcount]
    rw [references] at href
    rw [href]
    by_cases hd : d = index
    · subst hd
      rw [references_of_some hx, List.count_cons_self] at hcounts
      rw [if_pos rfl]
      omega
    · rw [List.count_cons_of_ne (by simpa using Ne.symm hd)] at hcounts
      rw [if_neg hd]
      exact hcounts
  · rw [hsame]
    exact forall_set h.positive hpos
  · rw [hsame]
    exact forall_set h.fits fun y hy => (hlower y hy).trans (h.fits _ x hx)

/-- The pending release is one of the references, so the description is used. -/
theorem releaseDescription (h : Balanced s (.description index :: work)) :
    Balanced (s.releaseDescription index).1 ((s.releaseDescription index).2 ++ work) := by
  have hcounts := h.counts index
  rw [List.count_cons_self] at hcounts
  cases hx : s.descriptions[index] with
  | none =>
    rw [references_of_none hx] at hcounts
    omega
  | some x =>
    have hpos := h.positive index x hx
    rcases Nat.lt_or_ge 1 x.references with hmore | hone
    · rw [releaseDescription_more hx hmore]
      refine h.lowered hx rfl (fun y hy => ?_) rfl (fun _ => rfl) fun _ => rfl
      obtain rfl := Option.some.inj hy
      exact Nat.sub_pos_of_lt hmore
    rw [releaseDescription_last hx (by omega)]
    have hends := State.DropsEnds.dropEnds { s with descriptions := s.descriptions.set index none } x.kind
    refine h.lowered hx ?_ (fun y hy => by cases hy) hends.descriptions (fun d => ?_) fun d => ?_
    · change 0 = x.references - 1
      omega
    · exact named_congr (fun i => by rw [hends.files]) hends.rights d
    · obtain ⟨pipes, -, hitems⟩ := hends.items
      rw [List.count_append, hitems, List.count_eq_zero_of_not_mem (by simp), Nat.zero_add]

/-- The rights of a destroyed pipe are pending. -/
theorem destroyPipe {index : Fin maxPipes} (h : Balanced s (.pipe index :: work)) :
    Balanced (s.destroyPipe index).1 ((s.destroyPipe index).2 ++ work) := by
  cases hp : s.pipes[index] with
  | none =>
    rw [destroyPipe_none hp]
    refine h.unchanged rfl fun d => ?_
    rfl
  | some pipe =>
    rw [destroyPipe_some hp]
    refine h.unchanged rfl fun d => ?_
    have hnamed := named_setPipe s index none d
    rw [hp] at hnamed
    rw [List.count_append, count_description_map, ← Nat.add_assoc]
    exact congrArg (· + _) hnamed

variable {a b : State × List Item}

theorem change (hchange : Change allowed a b) (h : Balanced a.1 a.2) : Balanced b.1 b.2 := by
  cases hchange with
  | same hsame => exact h.same hsame
  | share hfree hx hlt => exact h.share hfree hx hlt
  | send hpipe hempty hr hw hroom hallowed => exact h.send hpipe hempty hroom
  | take hpipe hr hw hrights => exact h.take hpipe hrights
  | adopt hfree => exact h.adopt hfree
  | drop hfile => exact h.drop hfile
  | @release s work item =>
    cases item with
    | description index => exact h.releaseDescription
    | pipe index => exact h.destroyPipe

theorem changes (hchanges : Changes allowed a b) (h : Balanced a.1 a.2) : Balanced b.1 b.2 := by
  induction hchanges with
  | refl => exact h
  | tail _ hchange ih => exact change hchange ih

end Balanced

/-! ## New descriptions -/

variable (h : Balanced s work)
include h

/-- A new description has the one reference of its descriptor. -/
theorem Balanced.install {slot : Fin maxOpenFiles} {file : OpenFile}
    (hfree : s.files[slot] = none) (hunused : s.descriptions[file.description] = none) (hone : x.references = 1) :
    Balanced (s.install slot file x) work := by
  constructor
  · intro d
    have hcounts := h.counts d
    have hnamed := named_setFile s slot (some file) d
    have href := references_set s file.description d (some x)
    rw [hfree, naming_some] at hnamed
    change { s with descriptions := s.descriptions.set file.description (some x) }.references d =
      { s with files := s.files.set slot (some file) }.named d + _
    rw [href, Option.elim]
    by_cases hd : d = file.description
    · subst hd
      rw [references_of_none hunused] at hcounts
      simp only [naming, Option.any_none, Bool.false_eq_true, if_false, beq_self_eq_true, if_true] at hnamed ⊢
      omega
    · simp only [naming, Option.any_none, Bool.false_eq_true, if_false, beq_iff_eq, if_neg hd, if_neg (Ne.symm hd)]
        at hnamed ⊢
      omega
  · refine forall_set h.positive fun y hy => ?_
    obtain rfl := Option.some.inj hy
    omega
  · refine forall_set h.fits fun y hy => ?_
    obtain rfl := Option.some.inj hy
    rw [hone]
    decide

/-- A fresh pipe has no rights queued in it. -/
theorem Balanced.freshPipe {index : Fin maxPipes} (hfree : s.pipes[index] = none) :
    Balanced { s with pipes := s.pipes.set index (some .fresh) } work := by
  refine h.unchanged rfl fun d => ?_
  have hnamed := named_setPipe s index (some .fresh) d
  rw [hfree] at hnamed
  change _ + 0 = _ + 0 at hnamed
  omega

theorem Install.balanced (hinstall : Install s s') : Balanced s' work := by
  cases hinstall with
  | single hfree hunused hone hpipes => exact h.install hfree hunused hone
  | pipe hpipe hfree hfree' hslots hunused hunused' hne hone hone' hkind hkind' =>
    refine ((h.freshPipe hpipe).install hfree hunused hone).install ?_ ?_ hone'
    · exact (getElem_set_of_ne (Ne.symm hslots)).trans hfree'
    · exact (getElem_set_of_ne (Ne.symm hne)).trans hunused'
  | pair hpipe hpipe' hpipes hfree hfree' hslots hunused hunused' hne hone hone' hkind hkind' =>
    have hfresh := (h.freshPipe hpipe).freshPipe ((getElem_set_of_ne (Ne.symm hpipes)).trans hpipe')
    refine (hfresh.install hfree hunused hone).install ?_ ?_ hone'
    · exact (getElem_set_of_ne (Ne.symm hslots)).trans hfree'
    · exact (getElem_set_of_ne (Ne.symm hne)).trans hunused'

omit h

/-- A description that is used is not the one a new descriptor gets. -/
theorem Install.kept (hinstall : Install s s') (hx : s.descriptions[d] = some x) : s'.descriptions[d] = some x := by
  have hused : ∀ e : Fin maxFileDescriptions, s.descriptions[e] = none → d ≠ e := by
    rintro e he rfl
    rw [hx] at he
    cases he
  cases hinstall with
  | single hfree hunused hone hpipes => exact (getElem_set_of_ne (hused _ hunused)).trans hx
  | pipe hpipe hfree hfree' hslots hunused hunused' hne hone hone' hkind hkind'
  | pair hpipe hpipe' hpipes hfree hfree' hslots hunused hunused' hne hone hone' hkind hkind' =>
    exact (getElem_set_of_ne (hused _ hunused')).trans ((getElem_set_of_ne (hused _ hunused)).trans hx)

theorem Effect.balanced (heffect : Effect allowed s s') (h : Balanced s []) : Balanced s' [] := by
  cases heffect with
  | opens hsame hinstall => exact hinstall.balanced (h.same hsame)
  | moves hchanges => exact h.changes hchanges

/-- A call does not give a used description to something else. -/
theorem Effect.kind (heffect : Effect allowed s s') (hfits : Fits s.descriptions)
    (hx : s.descriptions[d] = some x) (hy : s'.descriptions[d] = some y) : y.kind = x.kind := by
  cases heffect with
  | opens hsame hinstall =>
    obtain ⟨w, hw, -, hkind⟩ := hsame.description hx
    rw [hinstall.kept hw] at hy
    cases hy
    exact hkind
  | moves hchanges =>
    obtain ⟨w, hw, hkind⟩ := (hchanges.fits_older hfits).2 d y hy
    rw [hx] at hw
    cases hw
    exact hkind

/-! ## Runs -/

theorem Balanced.counted (h : Balanced s []) : Counted s := by
  intro d
  have hcounts := h.counts d
  rw [List.count_nil, Nat.add_zero] at hcounts
  refine ⟨fun x hx => ?_, fun hnone => ?_, fun hzero => ?_⟩
  · rw [← hcounts, references_of_some hx]
  · rw [← hcounts, references_of_none hnone]
  cases hx : s.descriptions[d] with
  | none => rfl
  | some x =>
    have hpos := h.positive d x hx
    rw [references_of_some hx] at hcounts
    omega

theorem mountFiles_balanced {bootData userData : List UInt8} {dynamic : Slots (Option MountedFile) dynamicFileCount}
    (h : mountFiles bootData userData dynamic = some s) : Balanced s [] := by
  obtain ⟨hfiles, hdescriptions, hpipes⟩ := mountFiles_tables h
  have hunused : ∀ d : Fin maxFileDescriptions, s.descriptions[d] = none := by
    intro d
    rw [hdescriptions, getElem_replicate]
  constructor
  · intro d
    rw [references_of_none (hunused d), named, hpipes, total_replicate (queuedFor d) none rfl, hfiles,
      Slots.toList_replicate, List.countP_replicate]
    rfl
  · intro d x hx
    rw [hunused d] at hx
    cases hx
  · intro d x hx
    rw [hunused d] at hx
    cases hx

/-- Each fork leaves room for the descriptors of the parent. -/
def Call.ForksFit (s : State) : Call → Prop
  | .inheritProcess parentPid _ => ForkFits s parentPid
  | _ => True

variable {call : Call}

theorem Call.ForksFit.admitted (h : call.ForksFit s) : call.Admitted (fun _ _ _ => True) s := by
  cases call with
  | inheritProcess parentPid childPid => exact h
  | send pid fd input rightsFds => exact fun _ _ _ _ _ _ _ => trivial
  | _ => trivial

theorem run_balanced (image : Image) {calls : List Call} (h : Balanced s [])
    (hfit : Guarded (step image) Call.ForksFit s calls) : Balanced (run image s calls) [] := by
  have hstep : ∀ t call, Balanced t [] → Call.ForksFit t call → Balanced (step image t call) [] :=
    fun _ call ht hcall => (step_effect image call ht.fits hcall.admitted).balanced ht
  exact hfit.foldl hstep h

/-- A check of the counts that is enough for a fork -/
theorem forkFits_of_all {parentPid : Nat} (h : (s.descriptions.toList.all fun entry => entry.all fun x =>
      x.references + s.files.toList.countP (ownedBy parentPid) ≤ byteMax) = true) : ForkFits s parentPid := by
  intro d x hx
  have hmem : some x ∈ s.descriptions.toList := Slots.mem_toList.2 ⟨d, hx⟩
  have hle := List.all_eq_true.1 h _ hmem
  have hholders : s.holders parentPid d ≤ s.files.toList.countP (ownedBy parentPid) := by
    refine List.countP_mono_left fun entry _ hentry => ?_
    rw [holds, Option.any_eq_true _ _] at hentry
    obtain ⟨file, rfl, hfile⟩ := hentry
    exact (Bool.and_eq_true_iff.1 hfile).1
  simp only [Option.all_some, decide_eq_true_eq] at hle
  omega

def emptyDisk : Slots (Option MountedFile) dynamicFileCount := .replicate _ none

def mountedEmpty : State where
  mounted := true
  boot := .ofData []
  user := .ofData []
  dynamic := .replicate _ none
  files := .replicate _ none
  descriptions := .replicate _ none
  pipes := .replicate _ none
  workingDirectories := .replicate _ none
  recordLocks := .replicate _ none

theorem mountFiles_empty : mountFiles [] [] emptyDisk = some mountedEmpty := by
  rw [mountFiles, emptyDisk, Slots.map_replicate]
  rfl

/-- A process opens `/dev/null` and duplicates the descriptor. -/
def sharing (copies : Nat) : List Call :=
  .openMode 1 .null 0 false false :: (List.range' 4 copies).map fun fd => .duplicateTo 1 3 fd false

theorem guarded_sharing (image : Image) (copies : Nat) (s : State) :
    Guarded (step image) Call.ForksFit s (sharing copies) := by
  refine guarded_of_forall (fun call hcall t => ?_) s
  rw [sharing, List.mem_cons, List.mem_map] at hcall
  obtain rfl | ⟨fd, -, rfl⟩ := hcall
  · trivial
  · trivial

theorem maxFileDescriptions_pos : 0 < maxFileDescriptions := by decide

def firstDescription : Fin maxFileDescriptions := ⟨0, maxFileDescriptions_pos⟩

/-- In every state of a run whose forks leave room the counts are right, and no call gives a used description to
something else. -/
theorem references_counted (image : Image) {bootData userData : List UInt8}
    {dynamic : Slots (Option MountedFile) dynamicFileCount} (hmount : mountFiles bootData userData dynamic = some s)
    {calls : List Call} (hfit : Guarded (step image) Call.ForksFit s calls) :
    Counted (run image s calls) ∧
      ∀ (call : Call) (d : Fin maxFileDescriptions) (x y : FileDescription), call.ForksFit (run image s calls) →
        (run image s calls).descriptions[d] = some x →
        (step image (run image s calls) call).descriptions[d] = some y → y.kind = x.kind := by
  have h := run_balanced image (mountFiles_balanced hmount) hfit
  refine ⟨h.counted, fun call d x y hcall hx hy => ?_⟩
  exact (step_effect image call h.fits hcall.admitted).kind h.fits hx hy

/-- A descriptor is duplicated, and the process forks. -/
theorem references_counted_fork :
    Counted (run (fun _ => []) mountedEmpty (sharing 1 ++ [.inheritProcess 1 2])) := by
  refine (references_counted (fun _ => []) mountFiles_empty ?_).1
  refine guarded_append.2 ⟨guarded_sharing _ 1 _, forkFits_of_all ?_, trivial⟩
  decide +kernel

theorem sharing_all :
    (run (fun _ => []) mountedEmpty (sharing 127)).descriptions[firstDescription].map FileDescription.references =
        some 128 ∧
      (run (fun _ => []) mountedEmpty (sharing 127)).holders 1 firstDescription = 128 ∧
      (run (fun _ => []) mountedEmpty (sharing 127)).canInherit 1 2 = true := by
  decide +kernel

theorem run_concat (image : Image) (s : State) (calls : List Call) (call : Call) :
    run image s (calls ++ [call]) = step image (run image s calls) call := by
  rw [run, run, List.foldl_concat]

/-- The count of a description that a process holds 128 times is 0 after a fork, although the description is used. -/
theorem not_counted_fork (image : Image) (hfits : Fits s.descriptions)
    (hreferences : s.descriptions[firstDescription].map FileDescription.references = some 128)
    (hholders : s.holders 1 firstDescription = 128) (hcan : s.canInherit 1 2 = true) :
    ¬ Counted (step image s (.inheritProcess 1 2)) := by
  intro hcounted
  obtain ⟨x, hx, href⟩ := Option.map_eq_some_iff.1 hreferences
  obtain ⟨s', hok, hadded, -⟩ := inheritProcess_ok hfits (fun _ _ _ => True) (by decide) hcan
  have hwrapped := hadded firstDescription
  rw [hx, hholders] at hwrapped
  have hzero : (x.addReferences 128).references = 0 := by
    rw [FileDescription.addReferences, href]
    rfl
  rw [show step image s (.inheritProcess 1 2) = s' from congrArg Prod.snd hok] at hcounted
  obtain ⟨hcount, hfree⟩ := hcounted firstDescription
  have hnone := hfree.2 ((hcount _ hwrapped).symm.trans hzero)
  rw [hnone] at hwrapped
  cases hwrapped

/-- A process has 128 descriptors of one description and forks: the count is 0 and not 256. -/
theorem fork_wraps_references :
    mountFiles [] [] emptyDisk = some mountedEmpty ∧
      ¬ Counted (run (fun _ => []) mountedEmpty (sharing 127 ++ [.inheritProcess 1 2])) := by
  have hbefore := run_balanced (fun _ => []) (mountFiles_balanced mountFiles_empty) (guarded_sharing _ 127 _)
  obtain ⟨hreferences, hholders, hcan⟩ := sharing_all
  refine ⟨mountFiles_empty, ?_⟩
  rw [run_concat]
  exact not_counted_fork _ hbefore.fits hreferences hholders hcan

end MakOS.Vfs
