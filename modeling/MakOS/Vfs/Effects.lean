/-
What each call on descriptors does to the references. A fork adds one reference for each descriptor of the parent,
in a byte; it is a series of changes as long as no count passes 255.
-/
import MakOS.Vfs.Changes

namespace MakOS.Vfs

open Data Data.Act Relation State

variable {allowed : Policy} {s s' t : State}

/-! ## New descriptions -/

variable {kind : DescriptionKind}

theorem describe_pipes {writable : Bool} {target : Target}
    (h : s.describe writable target = some kind) : kind.pipes = [] := by
  unfold describe at h
  split at h
  case h_14 =>
    split at h
    · cases h
    split at h
    · cases h; rfl
    · split at h
      · cases h
      · cases h; rfl
  all_goals first
    | (cases h; rfl)
    | cases h
    | (split at h <;> cases h; rfl)

theorem truncateOpened_same (h : s.truncateOpened kind = some t) : Same s t := by
  unfold truncateOpened at h
  split at h
  case h_4 =>
    split at h
    · cases h
    · split at h
      · cases h; exact .of_tables rfl rfl rfl
      · cases h
  all_goals first
    | (cases h; exact .of_tables rfl rfl rfl)
    | cases h

theorem openMode_effect (ownerPid : Nat) (target : Target) (access : Nat) (truncate stored : Bool) :
    Leaves (Effect allowed s) (openMode ownerPid target access truncate stored) s := by
  refine leaves_bind_guard .refl fun _ => leaves_need .refl fun kind hkind => leaves_need .refl fun slot hslot =>
    leaves_need .refl fun fd _ => leaves_need .refl fun d hd => leaves_bind_guard .refl fun _ =>
    leaves_need .refl fun t ht => leaves_bind_modify (leaves_pure ?_)
  have hsame : Same s t := by
    split at ht
    · exact truncateOpened_same ht
    · cases ht; exact .refl s
  exact .opens hsame (.single (hsame.noFile (freeFile_some hslot))
    (hsame.noDescription (freeDescription_some hd)) rfl (describe_pipes hkind))

variable {α : Type}

theorem firstTwo_some {items : List α} {first second : α} (h : firstTwo items = some (first, second)) :
    first ∈ items ∧ second ∈ items ∧ (items.Nodup → first ≠ second) := by
  match items, h with
  | a :: b :: rest, h =>
    cases h
    refine ⟨by simp, by simp, fun hnodup heq => ?_⟩
    simp [heq] at hnodup

theorem twoFree {N : Nat} {table : Slots (Option α) N} {pair : Fin N × Fin N}
    (h : firstTwo (slotsWhere Option.isNone table) = some pair) :
    table[pair.1] = none ∧ table[pair.2] = none ∧ pair.1 ≠ pair.2 := by
  obtain ⟨hfirst, hsecond, hne⟩ := firstTwo_some h
  exact ⟨by simpa using mem_slotsWhere.1 hfirst, by simpa using mem_slotsWhere.1 hsecond, hne (slotsWhere_nodup _ _)⟩

theorem pipePair_effect (ownerPid : Nat) (closeOnExec nonblocking : Bool) :
    Leaves (Effect allowed s) (pipePair ownerPid closeOnExec nonblocking) s := by
  refine leaves_need .refl fun pipe hpipe => leaves_need .refl fun slots hslots => leaves_need .refl fun ds hds =>
    leaves_need .refl fun numbers _ => leaves_bind_modify (leaves_bind_modify (leaves_bind_modify (leaves_pure ?_)))
  obtain ⟨hslot, hslot', hne⟩ := twoFree hslots
  obtain ⟨hd, hd', hdne⟩ := twoFree hds
  exact .opens (.refl s) (.pipe (by simpa using position_some hpipe) hslot hslot' hne hd hd' hdne rfl rfl rfl rfl)

theorem socketPair_effect (ownerPid : Nat) (closeOnExec nonblocking : Bool) :
    Leaves (Effect allowed s) (socketPair ownerPid closeOnExec nonblocking) s := by
  refine leaves_need .refl fun pipes hpipes => leaves_need .refl fun slots hslots => leaves_need .refl fun ds hds =>
    leaves_need .refl fun numbers _ => leaves_bind_modify (leaves_bind_modify (leaves_bind_modify (leaves_pure ?_)))
  obtain ⟨hpipe, hpipe', hpne⟩ := twoFree hpipes
  obtain ⟨hslot, hslot', hne⟩ := twoFree hslots
  obtain ⟨hd, hd', hdne⟩ := twoFree hds
  exact .opens (.refl s) (.pair hpipe hpipe' hpne hslot hslot' hne hd hd' hdne rfl rfl rfl rfl)

/-! ## Duplication -/

variable {destination : Fin maxOpenFiles} {file : OpenFile} {stop : Stop}

/-- A share of a description that has room for one more reference -/
theorem shareUnlessFull_changes (hfits : Fits t.descriptions) (hfree : t.files[destination] = none) :
    Leaves (fun s' => Changes allowed (t, []) (s', [])) (shareUnlessFull destination file stop) t := by
  refine leaves_bind_guard .refl fun htest => leaves_modify (.single ?_)
  obtain ⟨x, hx, hne⟩ := (Option.any_eq_true _ _).1 htest
  have hle := hfits _ _ hx
  exact .share hfree hx (by simp only [bne_iff_ne] at hne; omega)

variable {fd : Nat}

/-- The part of a duplication that follows the choice of a slot -/
theorem share_effect
    (hbefore : Changes allowed (s, []) (t, [])) (hfits : Fits t.descriptions) (hfree : t.files[destination] = none) :
    Leaves (Effect allowed s) (do shareUnlessFull destination file stop; return fd) t :=
  leaves_bind_pure (.moves (hbefore.trans (shareUnlessFull_changes hfits hfree)))

variable (hfits : Fits s.descriptions)
include hfits

theorem duplicate_effect (ownerPid fd : Nat) : Leaves (Effect allowed s) (duplicate ownerPid fd) s :=
  leaves_need .refl fun _ _ => leaves_need .refl fun _ _ => leaves_need .refl fun _ _ =>
    leaves_need .refl fun _ hfree => share_effect .refl hfits (freeFile_some hfree)

theorem duplicateMin_effect (ownerPid fd minimum : Nat) (closeOnExec : Bool) :
    Leaves (Effect allowed s) (duplicateMin ownerPid fd minimum closeOnExec) s :=
  leaves_bind_guard .refl fun _ => leaves_need .refl fun _ _ => leaves_need .refl fun _ _ =>
    leaves_need .refl fun _ _ => leaves_need .refl fun _ hfree => share_effect .refl hfits (freeFile_some hfree)

omit hfits

/-- The slot of a duplication to a given number is free when it is used. -/
theorem duplicateTarget_changes (ownerPid newFd : Nat) :
    Changes allowed (s, []) ((duplicateTarget ownerPid newFd s).2, []) ∧
      ∀ slot, (duplicateTarget ownerPid newFd s).1 = .ok slot → (duplicateTarget ownerPid newFd s).2.files[slot] = none := by
  unfold duplicateTarget
  cases hslot : s.descriptorSlot ownerPid newFd with
  | none =>
    refine ⟨.refl, fun slot h => ?_⟩
    cases hfree : s.freeFile with
    | none => rw [hfree] at h; cases h
    | some free =>
      rw [hfree] at h
      cases h
      exact freeFile_some hfree
  | some slot =>
    obtain ⟨file, hfile, -⟩ := descriptorSlot_some hslot
    dsimp only
    rw [hfile]
    refine ⟨closeSlot_changes hfile, fun slot' h => ?_⟩
    cases h
    rw [closeSlot_files, getElem_set_self]

theorem duplicateTo_effect (hfits : Fits s.descriptions) (ownerPid fd newFd : Nat) (closeOnExec : Bool) :
    Leaves (Effect allowed s) (duplicateTo ownerPid fd newFd closeOnExec) s := by
  refine leaves_bind_guard .refl fun _ => leaves_need .refl fun _ _ => leaves_need .refl fun _ _ => ?_
  obtain ⟨hchanges, hslot⟩ := @duplicateTarget_changes allowed s ownerPid newFd
  refine leaves_bind (fun e s' he => ?_) fun slot s' ha => ?_
  · rw [he] at hchanges
    exact .moves hchanges
  · rw [ha] at hchanges hslot
    exact share_effect hchanges (hchanges.fits_older hfits).1 (hslot slot rfl)

/-! ## Passing descriptors -/

variable {ownerPid : Nat}

/-- The rights of a message name descriptions that are used and that have room for all of them. -/
theorem checkRights_ok : ∀ {fds : List Nat} {queued rights : List (Fin maxFileDescriptions)},
    (∀ d ∈ queued, ∃ x, s.descriptions[d] = some x ∧ x.references + queued.count d ≤ byteMax) →
    checkRights ownerPid s fds queued = .ok rights →
    (∀ d ∈ rights, ∃ x, s.descriptions[d] = some x ∧ x.references + rights.count d ≤ byteMax) ∧
      rights.length = queued.length + fds.length := by
  intro fds
  induction fds with
  | nil =>
    rintro queued rights hqueued ⟨⟩
    exact ⟨hqueued, rfl⟩
  | cons fd rest ih =>
    intro queued rights hqueued h
    unfold checkRights at h
    split at h
    · cases h
    rename_i file x hnamed
    split at h
    · cases h
    obtain ⟨slot, -, hx⟩ := described_some hnamed
    have hqueued' : ∀ d ∈ queued ++ [file.description],
        ∃ x, s.descriptions[d] = some x ∧ x.references + (queued ++ [file.description]).count d ≤ byteMax := by
      intro d hd
      rw [List.count_append, List.count_singleton]
      by_cases heq : file.description = d
      · subst heq
        refine ⟨x, hx, ?_⟩
        simp only [beq_self_eq_true, if_true]
        omega
      have hmem : d ∈ queued := by
        rcases List.mem_append.1 hd with hd | hd
        · exact hd
        · exact absurd (List.mem_singleton.1 hd).symm heq
      obtain ⟨y, hy, hle⟩ := hqueued d hmem
      exact ⟨y, hy, by simpa [heq] using hle⟩
    obtain ⟨hrights, hlength⟩ := ih hqueued' h
    refine ⟨hrights, ?_⟩
    rw [hlength]
    simp only [List.length_append, List.length_cons, List.length_nil]
    omega

variable {index : Fin maxPipes} {input : List UInt8} {rightsFds : List Nat}

theorem sendInto_effect
    (hallowed : ∀ rights, checkRights ownerPid s rightsFds [] = .ok rights → allowed s index rights) :
    Leaves (Effect allowed s) (sendInto ownerPid index input rightsFds) s := by
  refine leaves_need .refl fun pipe hpipe => leaves_bind_guard .refl fun _ => leaves_bind_guard .refl fun hqueue =>
    leaves_bind_guard .refl fun _ => leaves_bind_look .refl fun rights hrights => leaves_checked .refl fun bytes _ =>
    leaves_checked .refl fun data _ => leaves_bind_modify (leaves_pure ?_)
  obtain ⟨hroom, hlength⟩ := checkRights_ok (by simp) hrights
  by_cases hempty : rights = []
  · -- a message without rights is bytes only
    subst hempty
    exact .same (.setPipe hpipe rfl)
  have hfds : rightsFds ≠ [] := by
    rintro rfl
    exact hempty (List.length_eq_zero_iff.1 hlength)
  have hnone : pipe.rights = [] := by
    simpa [hfds] using hqueue
  -- the new pipe keeps its ends and has the rights of the message
  have hshape : (pipe.append data (min input.length (pipeBytes - pipe.length)) rights).shape =
      (pipe.readers, pipe.writers, rights) := by
    unfold Pipe.append
    rw [if_neg hempty]
    rfl
  generalize pipe.append data (min input.length (pipeBytes - pipe.length)) rights = pipe' at hshape ⊢
  obtain rfl : pipe'.rights = rights := congrArg (·.2.2) hshape
  have hreaders : pipe'.readers = pipe.readers := congrArg Prod.fst hshape
  have hwriters : pipe'.writers = pipe.writers := congrArg (·.2.1) hshape
  exact .moves (.single (.send hpipe hnone hreaders hwriters hroom (hallowed _ hrights)))

/-- Which rights a send may queue: what the policy says of the buffer and the descriptions it finds -/
def SendAllowed (allowed : Policy) (s : State) (ownerPid fd : Nat) (rightsFds : List Nat) : Prop :=
  ∀ file x index rights, s.described ownerPid fd = some (file, x) → writtenPipe x = some index →
    checkRights ownerPid s rightsFds [] = .ok rights → allowed s index rights

theorem sendResultWithRights_effect (hallowed : SendAllowed allowed s ownerPid fd rightsFds) :
    Leaves (Effect allowed s) (sendResultWithRights ownerPid fd input rightsFds) s := by
  refine leaves_bind_guard .refl fun _ => leaves_need .refl fun named hnamed => leaves_need .refl fun index hindex => ?_
  refine leaves_ite (fun _ => leaves_pure .refl) fun _ => sendInto_effect fun rights hrights => ?_
  exact hallowed named.1 named.2 index rights hnamed hindex hrights

/-- Received rights become descriptors as far as there is room for them; the others are released. -/
theorem adopt_release_changes {slots : List (Fin maxOpenFiles)} {numbers : List Nat}
    {queued : List (Fin maxFileDescriptions)} {received : Nat} (hslots : slots.length = received)
    (hnumbers : numbers.length = received) (hle : received ≤ queued.length) (hnodup : slots.Nodup)
    (hfree : ∀ slot ∈ slots, t.files[slot] = none) : Changes allowed (t, queued.map .description)
      ((t.adopt ownerPid (slots.zip (numbers.zip queued))).releaseAll (queued.drop received), []) := by
  have hzip : (numbers.zip queued).length = received := by
    rw [List.length_zip]
    omega
  have hfirst : (slots.zip (numbers.zip queued)).map Prod.fst = slots := List.map_fst_zip (by omega)
  have hrights : (slots.zip (numbers.zip queued)).map (fun entry => Item.description entry.2.2) =
      (queued.take received).map .description := by
    have hsecond : (slots.zip (numbers.zip queued)).map Prod.snd = numbers.zip queued := List.map_snd_zip (by omega)
    have hthird : (numbers.zip queued).map Prod.snd = queued.take received := by
      have hmin : min numbers.length queued.length = received := by omega
      rw [List.zip_eq_zip_take_min, hmin, List.map_snd_zip (by simp; omega)]
    rw [← hthird, List.map_map]
    conv_rhs => rw [← hsecond, List.map_map]
    rfl
  have hsplit : queued.map Item.description =
      (slots.zip (numbers.zip queued)).map (fun entry => Item.description entry.2.2) ++
        (queued.drop received).map .description := by
    rw [hrights, ← List.map_append, List.take_append_drop]
  rw [hsplit]
  refine (adopt_changes (fun entry hentry => ?_) (by rw [hfirst]; exact hnodup)).trans (releaseAll_changes _ _)
  exact hfree _ (List.of_mem_zip hentry).1

variable {output : List UInt8} {rightsOut : Nat}

theorem receiveFrom_changes {pipe : Pipe} (hpipe : s.pipes[index] = some pipe) :
    Leaves (fun s' => Changes allowed (s, []) (s', [])) (receiveFrom ownerPid index pipe output rightsOut) s := by
  refine leaves_bind_look .refl fun slots hslots => leaves_bind_guard .refl fun hslotsLength =>
    leaves_bind_look .refl fun numbers hnumbers => leaves_bind_guard .refl fun hnumbersLength =>
    leaves_bind_guard .refl fun _ => leaves_checked .refl fun bytes _ => leaves_checked .refl fun output' _ =>
    leaves_bind_modify (leaves_bind_modify (leaves_bind_modify (leaves_pure ?_)))
  cases hslots
  have htake : ∀ n, (s.freeFiles.take n).Nodup := fun n => (slotsWhere_nodup _ _).sublist (List.take_sublist n _)
  have hfree : ∀ n, ∀ slot ∈ s.freeFiles.take n, s.files[slot] = none := fun n slot hslot => by
    simpa using mem_slotsWhere.1 (List.mem_of_mem_take hslot)
  refine .trans ?_ (adopt_release_changes (beq_iff_eq.1 hslotsLength) (beq_iff_eq.1 hnumbersLength) (Nat.min_le_left _ _)
    (htake _) (hfree _))
  generalize (!pipe.rights.isEmpty && decide (min output.length pipe.length > pipe.rightsSkip)) = deliver
  cases deliver with
  | false => exact .single (.same (.setPipe hpipe rfl))
  | true =>
    have htaken := @Change.take allowed s [] index pipe (pipe.consume (min output.length pipe.length) true) hpipe rfl rfl rfl
    rw [List.append_nil] at htaken
    exact .single htaken

theorem readSocketpairWithRights_changes :
    Leaves (fun s' => Changes allowed (s, []) (s', [])) (readSocketpairWithRights ownerPid index output rightsOut) s := by
  refine leaves_ite (fun _ => leaves_pure .refl) fun _ => leaves_need .refl fun pipe hpipe => ?_
  refine leaves_ite (fun _ => ?_) fun _ => receiveFrom_changes hpipe
  exact leaves_ite (fun _ => leaves_pure .refl) fun _ => leaves_fail .refl

theorem readResultWithRights_effect (ownerPid fd : Nat) (output : List UInt8) (rightsOut : Nat) :
    Leaves (Effect allowed s) (readResultWithRights ownerPid fd output rightsOut) s :=
  leaves_need .refl fun _ _ => leaves_need .refl fun _ _ => .moves readSocketpairWithRights_changes

/-! ## Closing -/

theorem close_effect (ownerPid fd : Nat) : Leaves (Effect allowed s) (close ownerPid fd) s :=
  leaves_need .refl fun _ _ => leaves_need .refl fun _ hfile => leaves_modify (.moves (closeSlot_changes hfile))

/-! ## Fork -/

/-- The state of a fork's loop: `rest` are the slots it has not looked at yet. The parent's descriptors are as they
were, and each description has the references of those that were copied. -/
structure Inheriting (allowed : Policy) (before : State) (parentPid childPid : Nat) (rest : List (Fin maxOpenFiles))
    (s : State) : Prop where
  room : rest.countP (fun i => State.ownedBy parentPid before.files[i]) ≤ s.files.toList.countP Option.isNone
  files : ∀ i : Fin maxOpenFiles, s.files[i] = before.files[i] ∨
    before.files[i] = none ∧ ∃ file, s.files[i] = some file ∧ file.ownerPid = childPid
  counts : ∀ d : Fin maxFileDescriptions, ∃ done,
    done + rest.countP (fun i => State.holds parentPid d before.files[i]) = before.holders parentPid d ∧
      s.descriptions[d] = before.descriptions[d].map (.addReferences done)
  directories : s.workingDirectories = before.workingDirectories
  changes : (∀ d x, before.descriptions[d] = some x → x.references + before.holders parentPid d ≤ byteMax) →
    Changes allowed (before, []) (s, [])

theorem ownedBy_of_holds {pid : Nat} {d : Fin maxFileDescriptions} {entry : Option OpenFile}
    (h : holds pid d entry = true) : ownedBy pid entry = true := by
  obtain ⟨file, rfl, htest⟩ := (Option.any_eq_true _ _).1 h
  simp only [Bool.and_eq_true] at htest
  exact htest.1

section Inherit

variable {before : State} {parentPid childPid : Nat} {slot : Fin maxOpenFiles} {rest : List (Fin maxOpenFiles)}

theorem Inheriting.fits (h : Inheriting allowed before parentPid childPid rest s) : Fits s.descriptions := by
  intro d x hx
  obtain ⟨done, -, hdone⟩ := h.counts d
  rw [hx, eq_comm, Option.map_eq_some_iff] at hdone
  obtain ⟨y, -, rfl⟩ := hdone
  exact addReferences_le _ y

theorem Inheriting.skip (h : Inheriting allowed before parentPid childPid (slot :: rest) s)
    (hslot : ownedBy parentPid before.files[slot] = false) :
    Inheriting allowed before parentPid childPid rest s := by
  have hholds : ∀ d, holds parentPid d before.files[slot] = false := fun d => by
    by_contra hd
    rw [Bool.not_eq_false] at hd
    rw [ownedBy_of_holds hd] at hslot
    cases hslot
  refine ⟨?_, h.files, fun d => ?_, h.directories, h.changes⟩
  · have hroom := h.room
    rwa [List.countP_cons_of_neg (by simp [hslot])] at hroom
  · obtain ⟨done, hdone, hdescription⟩ := h.counts d
    rw [List.countP_cons_of_neg (by simp [hholds d])] at hdone
    exact ⟨done, hdone, hdescription⟩

/-- A slot of the parent's: there is room for the copy. -/
theorem Inheriting.copy {file : OpenFile} {x : FileDescription} {destination : Fin maxOpenFiles}
    (h : Inheriting allowed before parentPid childPid (slot :: rest) s) (hfile : before.files[slot] = some file)
    (howner : file.ownerPid = parentPid) (hx : before.descriptions[file.description] = some x)
    (hfree : s.files[destination] = none) :
    Inheriting allowed before parentPid childPid rest (s.share destination { file with ownerPid := childPid }) := by
  have howned : ownedBy parentPid before.files[slot] = true := by
    rw [hfile]
    simp [ownedBy, howner]
  have hholds : ∀ d, holds parentPid d before.files[slot] = decide (file.description = d) := fun d => by
    rw [hfile]
    simp [holds, howner, beq_eq_decide]
  refine ⟨?_, fun i => ?_, fun d => ?_, h.directories, fun hadmits => ?_⟩
  · -- one copy less to make, one free slot less
    have hroom := h.room
    have hset := countP_set Option.isNone s.files destination (some { file with ownerPid := childPid })
    rw [List.countP_cons_of_pos (by simpa using howned)] at hroom
    rw [hfree] at hset
    simp only [Option.isNone_none, if_true] at hset
    change _ ≤ (s.files.set destination _).toList.countP Option.isNone
    omega
  · by_cases hi : i = destination
    · subst hi
      refine .inr ⟨?_, _, getElem_set_self, rfl⟩
      rcases h.files i with heq | ⟨hnone, -⟩
      · rw [← heq, hfree]
      · exact hnone
    change (s.files.set destination _)[i] = _ ∨ _
    rcases h.files i with heq | ⟨hnone, file', hfile', hchild⟩
    · exact .inl (by rw [getElem_set_of_ne hi, heq])
    · exact .inr ⟨hnone, file', (getElem_set_of_ne hi).trans hfile', hchild⟩
  · obtain ⟨done, hdone, hdescription⟩ := h.counts d
    rw [List.countP_cons, hholds d] at hdone
    refine ⟨done + if file.description = d then 1 else 0, ?_, ?_⟩
    · simp only [decide_eq_true_eq] at hdone
      omega
    change (addReference s.descriptions _)[d] = _
    rw [getElem_addReference h.fits, hdescription, Option.map_map]
    congr 1
    funext y
    exact addReferences_add _ _ y
  · obtain ⟨done, hdone, hdescription⟩ := h.counts file.description
    rw [List.countP_cons_of_pos (by rw [hholds]; simp)] at hdone
    rw [hx] at hdescription
    have hle := hadmits _ x hx
    have hlt : (x.addReferences done).references < byteMax := by
      change (x.references + done) % (byteMax + 1) < byteMax
      rw [Nat.mod_eq_of_lt (by omega)]
      omega
    exact (h.changes hadmits).tail (.share hfree hdescription hlt)

theorem inheritFile_ok (hne : parentPid ≠ childPid)
    (hused : ∀ (i : Fin maxOpenFiles) (file : OpenFile), before.files[i] = some file → file.ownerPid = parentPid →
      ∃ x, before.descriptions[file.description] = some x)
    (h : Inheriting allowed before parentPid childPid (slot :: rest) s) :
    ∃ s', inheritFile parentPid childPid slot s = (.ok (), s') ∧ Inheriting allowed before parentPid childPid rest s' := by
  unfold inheritFile
  rcases h.files slot with heq | ⟨hnone, file, hfile, hchild⟩
  · cases hfile : before.files[slot] with
    | none =>
      rw [heq, hfile]
      exact ⟨s, rfl, h.skip (by rw [hfile]; rfl)⟩
    | some file =>
      rw [heq, hfile]
      dsimp only
      split
      · rename_i howner
        have hfree : s.freeFile ≠ none := fun hfull => by
          -- this slot is still to be copied, so there is a free one
          have hroom := h.room
          rw [List.countP_cons_of_pos (by rw [hfile]; simp [ownedBy, howner])] at hroom
          have hzero : s.files.toList.countP Option.isNone = 0 := by
            rw [countP_toList, List.countP_eq_zero]
            intro i _
            rw [position_eq_none.1 hfull i]
            exact Bool.false_ne_true
          omega
        obtain ⟨destination, hdestination⟩ := Option.ne_none_iff_exists'.1 hfree
        obtain ⟨x, hx⟩ := hused slot file hfile howner
        rw [hdestination]
        exact ⟨_, rfl, h.copy hfile howner hx (freeFile_some hdestination)⟩
      · rename_i howner
        exact ⟨s, rfl, h.skip (by rw [hfile]; simp [ownedBy, howner])⟩
  · rw [hfile]
    dsimp only
    rw [if_neg (by rw [hchild]; exact hne.symm)]
    exact ⟨s, rfl, h.skip (by rw [hnone]; rfl)⟩

/-- What the checks before the loop say -/
structure CanInherit (s : State) (parentPid childPid : Nat) : Prop where
  room : s.files.toList.countP (State.ownedBy parentPid) ≤ s.files.toList.countP Option.isNone
  used : ∀ (i : Fin maxOpenFiles) (file : OpenFile), s.files[i] = some file → file.ownerPid = parentPid →
    ∃ x, s.descriptions[file.description] = some x
  directory : s.workingDirectoryOf parentPid = none ∨ ∃ i : Fin maxWorkingDirectories, s.workingDirectories[i] = none

theorem canInherit_true (h : s.canInherit parentPid childPid = true) : CanInherit s parentPid childPid := by
  unfold canInherit at h
  simp only [Bool.and_eq_true, decide_eq_true_eq, List.all_eq_true, Bool.or_eq_true, Option.isNone_iff_eq_none,
    List.any_eq_true] at h
  obtain ⟨⟨⟨hroom, -⟩, hused⟩, hdirectory⟩ := h
  refine ⟨hroom, fun i file hfile howner => ?_, ?_⟩
  · rcases hused _ (Slots.mem_toList.2 ⟨i, hfile⟩) with hnot | hany
    · simp [ownedBy, howner] at hnot
    · rw [Option.any_some] at hany
      obtain ⟨x, hx, -⟩ := (Option.any_eq_true _ _).1 hany
      exact ⟨x, hx⟩
  · rcases hdirectory with hnone | ⟨entry, hentry, rfl⟩
    · exact .inl hnone
    · exact .inr (Slots.mem_toList.1 hentry)

theorem inheriting_start (hfits : Fits s.descriptions) (h : CanInherit s parentPid childPid) :
    Inheriting allowed s parentPid childPid (List.finRange maxOpenFiles) s := by
  refine ⟨?_, fun _ => .inl rfl, fun d => ⟨0, ?_, ?_⟩, rfl, fun _ => .refl⟩
  · rw [← countP_toList]
    exact h.room
  · rw [Nat.zero_add, ← countP_toList]
    rfl
  · cases hx : s.descriptions[d] with
    | none => rfl
    | some x => rw [Option.map_some, addReferences_zero (hfits d x hx)]

theorem inheritWorkingDirectory_ok (h : s.workingDirectoryOf parentPid = none ∨
    ∃ i : Fin maxWorkingDirectories, s.workingDirectories[i] = none) :
    ∃ directories, inheritWorkingDirectory parentPid childPid s = (.ok (), { s with workingDirectories := directories }) := by
  unfold inheritWorkingDirectory
  cases hdirectory : s.workingDirectoryOf parentPid with
  | none => exact ⟨s.workingDirectories, rfl⟩
  | some directory =>
    obtain ⟨i, hi⟩ := h.resolve_left (by rw [hdirectory]; exact Option.some_ne_none _)
    cases hfree : position Option.isNone s.workingDirectories with
    | none =>
      have hfull := position_eq_none.1 hfree i
      rw [hi] at hfull
      cases hfull
    | some destination => exact ⟨_, rfl⟩

include hfits

/-- A fork that passes its checks adds a reference for each descriptor of the parent. It does not panic: there is
room for what its checks have counted. -/
theorem inheritProcess_ok (allowed : Policy) (hpids : (parentPid != 0 && childPid != 0 && parentPid != childPid) = true)
    (hcan : s.canInherit parentPid childPid = true) :
    ∃ s', inheritProcess parentPid childPid s = (.ok (), s') ∧
      (∀ d : Fin maxFileDescriptions,
        s'.descriptions[d] = s.descriptions[d].map (.addReferences (s.holders parentPid d))) ∧
      ((∀ d x, s.descriptions[d] = some x → x.references + s.holders parentPid d ≤ byteMax) →
        Changes allowed (s, []) (s', [])) := by
  have hspec := canInherit_true hcan
  have hne : parentPid ≠ childPid := by
    simp only [Bool.and_eq_true, bne_iff_ne] at hpids
    exact hpids.2
  obtain ⟨s₁, hloop, hend⟩ := each_ok (f := inheritFile parentPid childPid)
    (I := Inheriting allowed s parentPid childPid) (fun _ _ _ => inheritFile_ok hne hspec.used)
    (List.finRange maxOpenFiles) (inheriting_start hfits hspec)
  have hdirectory : s₁.workingDirectoryOf parentPid = none ∨
      ∃ i : Fin maxWorkingDirectories, s₁.workingDirectories[i] = none := by
    rw [workingDirectoryOf, hend.directories]
    exact hspec.directory
  obtain ⟨directories, hlast⟩ := @inheritWorkingDirectory_ok s₁ parentPid childPid hdirectory
  refine ⟨{ s₁ with workingDirectories := directories }, ?_, fun d => ?_, fun hadmits => ?_⟩
  · unfold inheritProcess
    rw [bind_guard (by exact hpids), bind_guard (by exact hcan), bind_of_ok hloop]
    exact hlast
  · obtain ⟨done, hdone, hdescription⟩ := hend.counts d
    rw [← hdone]
    exact hdescription
  · exact (hend.changes hadmits).tail (.same (.of_tables rfl rfl rfl))

/-- No count passes 255 when the parent's descriptors are copied. -/
def ForkFits (s : State) (parentPid : Nat) : Prop :=
  ∀ (d : Fin maxFileDescriptions) (x : FileDescription), s.descriptions[d] = some x →
    x.references + s.holders parentPid d ≤ byteMax

theorem inheritProcess_effect (hadmits : ForkFits s parentPid) :
    Leaves (Effect allowed s) (inheritProcess parentPid childPid) s := by
  -- a fork that fails leaves everything as it was
  refine leaves_bind_guard .refl fun hpids => leaves_bind_guard .refl fun hcan => ?_
  obtain ⟨s', hok, -, hchanges⟩ := inheritProcess_ok hfits allowed hpids hcan
  rw [inheritProcess, bind_guard (by exact hpids), bind_guard (by exact hcan)] at hok
  rw [Leaves, hok]
  exact .moves (hchanges hadmits)

end Inherit

end MakOS.Vfs
