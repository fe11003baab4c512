/-
Package files in use. An open description keeps where the payload of its file lies, and `write_sector` refuses to write
to a slot of the store in which an open description has its payload. A memory mapping keeps the place too, but it is
not looked at, and the look and the write are not one step.
-/
import MakOS.Data.Guarded
import MakOS.PackageStore.Store

namespace MakOS.PackageStore.Pins

open Data

variable {α : Type} {store : Store}

/-- A `MountedPackageFile`, or what a `PackageSnapshot` keeps of it. The payload of a file of the store is in one slot;
the files of the image lie before the store, which `package_transaction_store` checks. -/
structure PackageFile (store : Store) where
  transaction : Bool
  size : Nat
  firstLba : Nat
  sectors : Nat
  placed : if transaction
    then ∃ slot, store.slotBase slot ≤ firstLba ∧ firstLba + sectors ≤ store.slotBase slot + store.slotSectors
    else firstLba + sectors ≤ store.baseSector

/-- A file that can be read, with the disk as it was when the file was opened; the code has only the file -/
structure Reader (store : Store) (α : Type) where
  file : PackageFile store
  opened : Nat → α

structure Description (store : Store) (α : Type) where
  references : Nat
  reader : Reader store α

/-- A sector that a read or a page fault got, and the one that was there when the file was opened -/
structure Got (α : Type) where
  found : α
  opened : α
deriving DecidableEq

structure State (store : Store) (α : Type) where
  disk : Nat → α
  packages : List (PackageFile store)
  descriptions : List (Description store α)
  mappings : List (Reader store α)
  /-- A write that the look has let through -/
  pending : Option (Nat × α)
  got : List (Got α)

/-- The two slots of the store -/
def inStore (store : Store) (sector : Nat) : Bool :=
  decide (store.baseSector ≤ sector) && decide (sector < store.baseSector + 2 * store.slotSectors)

def slotOf (store : Store) (sector : Nat) : Nat := (sector - store.baseSector) / store.slotSectors

/-- The payload lies in the slot of a sector. -/
def PackageFile.shares (file : PackageFile store) (sector : Nat) : Bool :=
  file.transaction && inStore store file.firstLba && slotOf store file.firstLba == slotOf store sector

/-- `package_transaction_sector_pinned` -/
def State.pinned (s : State store α) (sector : Nat) : Bool :=
  inStore store sector && s.descriptions.any fun d => decide (d.references ≠ 0) && d.reader.file.shares sector

/-- A mapping has its payload in the slot. -/
def State.mapped (s : State store α) (sector : Nat) : Bool := s.mappings.any fun reader => reader.file.shares sector

/-- The first half of `write_sector`, for a sector that a commit or a rollback writes -/
def State.look (s : State store α) (sector : Nat) (value : α) : State store α :=
  if inStore store sector && !s.pinned sector then { s with pending := some (sector, value) } else s

/-- The second half -/
def State.write (s : State store α) : State store α :=
  match s.pending with
  | none => s
  | some (sector, value) => { s with disk := Function.update s.disk sector value, pending := none }

/-- `replace_transaction_packages` -/
def State.refresh (s : State store α) (files : List (PackageFile store)) : State store α :=
  { s with packages := (s.packages.filter fun file => !file.transaction) ++ files }

def State.open (s : State store α) (index : Nat) : State store α :=
  match s.packages[index]? with
  | none => s
  | some file => { s with descriptions := s.descriptions ++ [⟨1, file, s.disk⟩] }

/-- `dup` and `fork` add a reference, `close` takes one away -/
def State.refer (s : State store α) (d : Nat) (references : Nat → Nat) : State store α :=
  { s with descriptions := s.descriptions.modify d fun x =>
    if x.references = 0 then x else { x with references := references x.references } }

/-- `map_file` on what `read_only_backing_for_fd` gives -/
def State.map (s : State store α) (d : Nat) : State store α :=
  match s.descriptions[d]? with
  | none => s
  | some x => if x.references = 0 then s else { s with mappings := s.mappings ++ [x.reader] }

/-- The mappings of a child -/
def State.clone (s : State store α) (m : Nat) : State store α :=
  { s with mappings := s.mappings ++ s.mappings[m]?.toList }

def State.unmap (s : State store α) (m : Nat) : State store α := { s with mappings := s.mappings.eraseIdx m }

/-- One sector of `read_package_file`, for the byte at an offset -/
def State.readPackageFile (s : State store α) (reader : Reader store α) (offset : Nat) : State store α :=
  if offset < reader.file.size ∧ offset / 512 < reader.file.sectors then
    { s with got := s.got ++ [⟨s.disk (reader.file.firstLba + offset / 512),
      reader.opened (reader.file.firstLba + offset / 512)⟩] }
  else s

def State.read (s : State store α) (d offset : Nat) : State store α :=
  match s.descriptions[d]? with
  | none => s
  | some x => if x.references = 0 then s else s.readPackageFile x.reader offset

/-- `load_fault_page` -/
def State.fault (s : State store α) (m offset : Nat) : State store α :=
  match s.mappings[m]? with
  | none => s
  | some reader => s.readPackageFile reader offset

inductive Action (store : Store) (α : Type)
  | look (sector : Nat) (value : α)
  | write
  | refresh (files : List (PackageFile store))
  | open (index : Nat)
  | duplicate (d : Nat)
  | close (d : Nat)
  | map (d : Nat)
  | clone (m : Nat)
  | unmap (m : Nat)
  | read (d offset : Nat)
  | fault (m offset : Nat)

def step (s : State store α) : Action store α → State store α
  | .look sector value => s.look sector value
  | .write => s.write
  | .refresh files => s.refresh files
  | .open index => s.open index
  | .duplicate d => s.refer d (· + 1)
  | .close d => s.refer d (· - 1)
  | .map d => s.map d
  | .clone m => s.clone m
  | .unmap m => s.unmap m
  | .read d offset => s.read d offset
  | .fault m offset => s.fault m offset

/-- With the packages of the image and those that the store has at the start -/
def State.initial (disk : Nat → α) (packages : List (PackageFile store)) : State store α :=
  ⟨disk, packages, [], [], none, []⟩

def run (disk : Nat → α) (packages : List (PackageFile store)) (actions : List (Action store α)) : State store α :=
  actions.foldl step (.initial disk packages)

/-- What was read of a file is what it was when the file was opened. -/
def Unchanged (s : State store α) : Prop := ∀ got ∈ s.got, got.found = got.opened

instance decidableUnchanged [DecidableEq α] (s : State store α) : Decidable (Unchanged s) :=
  inferInstanceAs (Decidable (∀ got ∈ s.got, _))

/-- When the write takes place, no description that was opened after the look and no mapping has its payload in the
slot. -/
def Action.Admits (s : State store α) : Action store α → Prop
  | .write => ∀ write ∈ s.pending, s.pinned write.1 = false ∧ s.mapped write.1 = false
  | _ => True

instance Action.decidableAdmits (s : State store α) : (action : Action store α) → Decidable (action.Admits s)
  | .write => inferInstanceAs (Decidable (∀ write ∈ s.pending, _))
  | .look .. | .refresh _ | .open _ | .duplicate _ | .close _ | .map _ | .clone _ | .unmap _ | .read .. | .fault .. =>
    isTrue trivial

/-- The file is as it was when it was opened. -/
def Reader.Kept (reader : Reader store α) (disk : Nat → α) : Prop :=
  ∀ lba, reader.file.firstLba ≤ lba → lba < reader.file.firstLba + reader.file.sectors → disk lba = reader.opened lba

structure Sound (s : State store α) : Prop where
  descriptions : ∀ d ∈ s.descriptions, d.references ≠ 0 → d.reader.Kept s.disk
  mappings : ∀ reader ∈ s.mappings, reader.Kept s.disk
  pending : ∀ write ∈ s.pending, inStore store write.1 = true
  unchanged : Unchanged s

variable {s : State store α}

/-- A sector of the store that a file has is in the slot of the file. -/
theorem PackageFile.shares_of_mem (file : PackageFile store) {sector : Nat} (hin : inStore store sector = true)
    (hfirst : file.firstLba ≤ sector) (hlast : sector < file.firstLba + file.sectors) : file.shares sector = true := by
  obtain ⟨transaction, size, firstLba, sectors, hplaced⟩ := file
  simp only [inStore, Bool.and_eq_true, decide_eq_true_eq] at hin
  cases transaction with
  | false =>
    simp only [Bool.false_eq_true, if_false] at hplaced hfirst hlast
    omega
  | true =>
    simp only [Store.slotBase] at hplaced hfirst hlast
    obtain ⟨slot, hlow, hhigh⟩ := hplaced
    have hslot : ∀ lba, firstLba ≤ lba → lba < firstLba + sectors → slotOf store lba = slot.val := by
      intro lba hl hh
      refine Nat.div_eq_of_lt_le ?_ ?_
      · omega
      · rw [Nat.succ_mul]
        omega
    simp only [PackageFile.shares, inStore, hslot sector hfirst hlast, hslot firstLba (Nat.le_refl _) (by omega),
      Bool.true_and, Bool.and_eq_true, decide_eq_true_eq, beq_self_eq_true, and_true]
    omega

/-- A write to another slot leaves the file as it is. -/
theorem Reader.Kept.write {reader : Reader store α} {disk : Nat → α} (h : reader.Kept disk) {sector : Nat} (value : α)
    (hin : inStore store sector = true) (hother : reader.file.shares sector = false) :
    reader.Kept (Function.update disk sector value) := by
  intro lba hfirst hlast
  have hne : lba ≠ sector := by
    rintro rfl
    cases hother.symm.trans (reader.file.shares_of_mem hin hfirst hlast)
  rw [Function.update_of_ne hne]
  exact h lba hfirst hlast

theorem Sound.write (h : Sound s) (hadmits : ∀ write ∈ s.pending, s.pinned write.1 = false ∧ s.mapped write.1 = false) :
    Sound s.write := by
  unfold State.write
  split
  · exact h
  rename_i sector value hpending
  have hin := h.pending _ (by rw [hpending]; rfl)
  obtain ⟨hpinned, hmapped⟩ := hadmits _ (by rw [hpending]; rfl)
  simp only [State.pinned, hin, Bool.true_and, List.any_eq_false, Bool.and_eq_true, decide_eq_true_eq, not_and,
    Bool.not_eq_true] at hpinned
  simp only [State.mapped, List.any_eq_false, Bool.not_eq_true] at hmapped
  exact ⟨fun d hd hopen => (h.descriptions d hd hopen).write value hin (hpinned d hd hopen),
    fun reader hr => (h.mappings reader hr).write value hin (hmapped reader hr), fun _ hw => (by cases hw), h.unchanged⟩

/-- A file that is as it was when it was opened reads so. -/
theorem Sound.readPackageFile (h : Sound s) {reader : Reader store α} (hkept : reader.Kept s.disk) (offset : Nat) :
    Sound (s.readPackageFile reader offset) := by
  unfold State.readPackageFile
  split
  · rename_i hoffset
    refine ⟨h.descriptions, h.mappings, h.pending, fun got hgot => ?_⟩
    obtain hold | hnew := List.mem_append.1 hgot
    · exact h.unchanged got hold
    · obtain rfl := List.mem_singleton.1 hnew
      exact hkept _ (Nat.le_add_right _ _) (Nat.add_lt_add_left hoffset.2 _)
  · exact h

theorem Sound.refer (h : Sound s) (d : Nat) (references : Nat → Nat) : Sound (s.refer d references) := by
  refine ⟨fun x hx hopen => ?_, h.mappings, h.pending, h.unchanged⟩
  obtain ⟨i, hi, rfl⟩ := List.mem_iff_getElem.1 hx
  simp only [State.refer, List.getElem_modify] at hopen ⊢
  have hlen : i < s.descriptions.length := by simpa [State.refer] using hi
  split at hopen
  · split at hopen
    · rename_i hzero
      exact absurd hzero hopen
    rename_i hsame hused
    have hkept := h.descriptions _ (List.getElem_mem hlen) hused
    rw [if_pos hsame, if_neg hused]
    exact hkept
  · rename_i hother
    rw [if_neg hother]
    exact h.descriptions _ (List.getElem_mem hlen) hopen

theorem step_sound (h : Sound s) (action : Action store α) (hadmits : action.Admits s) : Sound (step s action) := by
  cases action with
  | look sector value =>
    simp only [step, State.look]
    split
    · rename_i hlook
      refine ⟨h.descriptions, h.mappings, fun write hw => ?_, h.unchanged⟩
      obtain rfl := Option.some.inj hw
      exact (Bool.and_eq_true_iff.1 hlook).1
    · exact h
  | write => exact h.write hadmits
  | refresh files => exact ⟨h.descriptions, h.mappings, h.pending, h.unchanged⟩
  | «open» index =>
    simp only [step, State.open]
    split
    · exact h
    refine ⟨fun d hd hopen => ?_, h.mappings, h.pending, h.unchanged⟩
    obtain hold | hnew := List.mem_append.1 hd
    · exact h.descriptions d hold hopen
    · obtain rfl := List.mem_singleton.1 hnew
      exact fun _ _ _ => rfl
  | duplicate d => exact h.refer d (· + 1)
  | close d => exact h.refer d (· - 1)
  | map d =>
    simp only [step, State.map]
    split
    · exact h
    rename_i x hx
    split
    · exact h
    rename_i hopen
    refine ⟨h.descriptions, fun reader hr => ?_, h.pending, h.unchanged⟩
    obtain hold | hnew := List.mem_append.1 hr
    · exact h.mappings reader hold
    · obtain rfl := List.mem_singleton.1 hnew
      exact h.descriptions x (List.mem_of_getElem? hx) hopen
  | clone m =>
    refine ⟨h.descriptions, fun reader hr => ?_, h.pending, h.unchanged⟩
    obtain hold | hnew := List.mem_append.1 hr
    · exact h.mappings reader hold
    · exact h.mappings reader (List.mem_of_getElem? (Option.mem_toList.1 hnew))
  | unmap m =>
    exact ⟨h.descriptions, fun reader hr => h.mappings reader (List.mem_of_mem_eraseIdx hr), h.pending, h.unchanged⟩
  | read d offset =>
    simp only [step, State.read]
    split
    · exact h
    rename_i x hx
    split
    · exact h
    · rename_i hopen
      exact h.readPackageFile (h.descriptions x (List.mem_of_getElem? hx) hopen) offset
  | fault m offset =>
    simp only [step, State.fault]
    split
    · exact h
    · rename_i reader hr
      exact h.readPackageFile (h.mappings reader (List.mem_of_getElem? hr)) offset

theorem initial_sound (disk : Nat → α) (packages : List (PackageFile store)) : Sound (.initial disk packages) where
  descriptions _ h := by cases h
  mappings _ h := by cases h
  pending _ h := by cases h
  unchanged _ h := by cases h

theorem production_large : payloadStartSector < 131072 := by decide

theorem production_fits : 786432 + 2 * 131072 ≤ 1048576 := by decide

theorem production_addressable : 1048576 < 2 ^ 64 := by decide

/-- The store of `PRODUCTION_BASE_SECTOR` and `PRODUCTION_SLOT_SECTORS` -/
def production : Store := ⟨1048576, 786432, 131072, production_large, production_fits, production_addressable⟩

theorem payload_placed : ∃ slot, production.slotBase slot ≤ 786437 ∧
    786437 + 1 ≤ production.slotBase slot + production.slotSectors :=
  ⟨⟨0, Nat.zero_lt_two⟩, by decide, by decide⟩

/-- A package of one sector in the first slot -/
def payload : PackageFile production := ⟨true, 100, 786437, 1, payload_placed⟩

end MakOS.PackageStore.Pins
