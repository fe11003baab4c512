/-
The table of user memory regions (`crates/vm-space`): a fixed number of slots, each holding one range
of pages of one owner with its protection, or nothing.

Addresses and page counts are natural numbers below `2 ^ 64`. The sort of the source is not stable,
but entries with equal keys are either both unused or of different owners.
-/
import MakOS.Data.Word
import MakOS.Data.Slots
import Mathlib.Data.List.Sort

namespace MakOS.VmSpace

open MakOS.Data

structure Region where
  owner : Nat
  base : Nat
  pages : Nat
  protection : Nat
  deriving DecidableEq, Repr

namespace Region

def empty : Region := ⟨0, 0, 0, 0⟩

def used (region : Region) : Bool := region.owner != 0

/-- `end`: the address after the region, if it is a word -/
def endOf (region : Region) (pageSize : Nat) : Option Nat :=
  (checkedMul region.pages pageSize).bind fun bytes => checkedAdd region.base bytes

/-- The key of the sort, `(!used, base)`, compared lexicographically. -/
def Before (a b : Region) : Prop := (a.used ∧ ¬ b.used) ∨ (a.used = b.used ∧ a.base ≤ b.base)

instance decidableBefore : DecidableRel Before := fun a b =>
  inferInstanceAs (Decidable ((a.used ∧ ¬ b.used) ∨ (a.used = b.used ∧ a.base ≤ b.base)))

end Region

structure RegionTable (N : Nat) where
  entries : Slots Region N
  deriving DecidableEq, Repr

def alignUp (value alignment : Nat) : Option Nat :=
  (checkedAdd value (alignment - 1)).map fun value => clearLow value alignment

/-- The check behind the loop of `first_fit_base`. -/
def fits (bytes arenaLimit candidate : Nat) : Option Nat :=
  (checkedAdd candidate bytes).bind fun limit => if limit ≤ arenaLimit then some candidate else none

/-- `first_fit_base`: walk the gaps between the owner's regions. The entries come sorted. -/
def firstFitBase (owner bytes arenaLimit pageSize : Nat) : Nat → List Region → Option Nat
  | candidate, [] => fits bytes arenaLimit candidate
  | candidate, entry :: rest =>
    match checkedAdd candidate bytes with
    | none => none
    | some limit =>
      if arenaLimit < limit then none
      else if !entry.used then fits bytes arenaLimit candidate
      else if entry.owner ≠ owner then firstFitBase owner bytes arenaLimit pageSize candidate rest
      else if limit ≤ entry.base then fits bytes arenaLimit candidate
      else if candidate < (entry.endOf pageSize).getD wordMax then
        match (entry.endOf pageSize).bind fun after => alignUp after pageSize with
        | none => none
        | some next => firstFitBase owner bytes arenaLimit pageSize next rest
      else firstFitBase owner bytes arenaLimit pageSize candidate rest

namespace RegionTable

variable {N : Nat}

def new (N : Nat) : RegionTable N := ⟨Slots.replicate N .empty⟩

/-- `sort_unstable_by_key(|entry| (!entry.used(), entry.base))` -/
def sorted (table : RegionTable N) : RegionTable N :=
  ⟨.ofList (table.entries.toList.insertionSort Region.Before) (by simp)⟩

def freeSlot (table : RegionTable N) : Option (Fin N) := slot? (fun entry => !entry.used) table.entries

/-- The first free slot besides one. -/
def freeSlotBesides (table : RegionTable N) (index : Fin N) : Option (Fin N) :=
  (List.finRange N).find? fun candidate => candidate ≠ index && !table.entries[candidate].used

def set (table : RegionTable N) (slot : Fin N) (region : Region) : RegionTable N :=
  ⟨table.entries.set slot region⟩

/-- `allocate_first_fit`: the table is sorted also when no gap is found. -/
def allocateFirstFit (table : RegionTable N) (owner pages protection arenaBase arenaLimit pageSize : Nat) :
    Option Nat × RegionTable N :=
  if owner = 0 ∨ pages = 0 ∨ pageSize = 0 ∨ ¬ isPowerOfTwo pageSize ∨ arenaBase &&& (pageSize - 1) ≠ 0 ∨
      arenaLimit ≤ arenaBase then (none, table)
  else match checkedMul pages pageSize with
    | none => (none, table)
    | some bytes =>
      match table.freeSlot with
      | none => (none, table)
      | some _ =>
        match firstFitBase owner bytes arenaLimit pageSize arenaBase table.sorted.entries.toList with
        | none => (none, table.sorted)
        | some base =>
          match table.sorted.freeSlot with
          | none => (none, table.sorted)
          | some slot => (some base, table.sorted.set slot ⟨owner, base, pages, protection⟩)

def allocateFixed (table : RegionTable N) (owner base pages protection arenaBase arenaLimit pageSize : Nat) :
    Option (RegionTable N) :=
  if owner = 0 ∨ pages = 0 ∨ pageSize = 0 ∨ ¬ isPowerOfTwo pageSize ∨ base &&& (pageSize - 1) ≠ 0 ∨
      base < arenaBase then none
  else match checkedAdd base (wrap (pages * pageSize)) with
    | none => none
    | some limit =>
      if arenaLimit < limit ∨ table.entries.toList.any (fun entry => entry.used && entry.owner == owner &&
          decide (base < (entry.endOf pageSize).getD wordMax) && decide (entry.base < limit)) then none
      else table.freeSlot.map fun slot => table.set slot ⟨owner, base, pages, protection⟩

def find (table : RegionTable N) (owner address pageSize : Nat) : Option Region :=
  table.entries.toList.find? fun entry => entry.used && entry.owner == owner && decide (entry.base ≤ address) &&
    decide (address < (entry.endOf pageSize).getD entry.base)

/-- `containing`: the region around a range, with its slot, and the range in pages of the region -/
def containing (table : RegionTable N) (owner base pages pageSize : Nat) :
    Option (Fin N × Region × Nat × Nat) :=
  if owner = 0 ∨ pages = 0 ∨ pageSize = 0 ∨ base &&& (pageSize - 1) ≠ 0 then none
  else ((checkedMul pages pageSize).bind fun bytes => checkedAdd base bytes).bind fun limit =>
    (slot? (fun entry => entry.used && entry.owner == owner && decide (entry.base ≤ base) &&
      decide (limit ≤ (entry.endOf pageSize).getD entry.base)) table.entries).map fun index =>
        let region := table.entries[index]
        let first := (base - region.base) / pageSize
        (index, region, first, first + pages)

/-- `remove`: take a range out of its region, whose rest on either side stays. -/
def remove (table : RegionTable N) (owner base pages pageSize : Nat) : Option (RegionTable N) :=
  (table.containing owner base pages pageSize).bind fun (index, region, first, after) =>
    let leftPages := first
    let rightPages := region.pages - after
    let rightSlot := if leftPages ≠ 0 ∧ rightPages ≠ 0 then table.freeSlotBesides index else some index
    rightSlot.map fun rightSlot =>
      let table := table.set index (if leftPages = 0 then .empty else { region with pages := leftPages })
      if rightPages ≠ 0 then
        table.set rightSlot { region with base := wrap (base + pages * pageSize), pages := rightPages }
      else table

/-- `protect`: a range of its region gets another protection; the rest needs a slot on either side. -/
def protect (table : RegionTable N) (owner base pages protection pageSize : Nat) : Option (RegionTable N) :=
  (table.containing owner base pages pageSize).bind fun (index, region, first, after) =>
    let leftPages := first
    let rightPages := region.pages - after
    let left := if leftPages ≠ 0 then [{ region with pages := leftPages }] else []
    let right := if rightPages ≠ 0 then
      [{ region with base := wrap (base + pages * pageSize), pages := rightPages }] else []
    let extras := left ++ right
    let free := ((List.finRange N).filter fun candidate =>
      candidate ≠ index && !table.entries[candidate].used).take extras.length
    if free.length ≠ extras.length then none
    else some ((free.zip extras).foldl (fun table slot => table.set slot.1 slot.2)
      (table.set index ⟨owner, base, pages, protection⟩))

/-- `forget`: drop the owner's regions; the numbers of regions and pages dropped are returned. -/
def forget (table : RegionTable N) (owner : Nat) : (Nat × Nat) × RegionTable N :=
  let dropped := table.entries.toList.filter fun entry => entry.used && entry.owner == owner
  ((dropped.length, (dropped.map Region.pages).sum),
    ⟨table.entries.map fun entry => if !(entry.used && entry.owner == owner) then entry else .empty⟩)

def count (table : RegionTable N) (owner : Nat) : Nat :=
  table.entries.toList.countP fun entry => entry.used && entry.owner == owner

def freeSlots (table : RegionTable N) : Nat := vacant Region.used table.entries

/-- The loop of `clone_owner` over some slots; `none` is its `expect` failing. -/
def cloneEntries (source destination : Nat) : List (Fin N) → RegionTable N → Option (RegionTable N)
  | [], table => some table
  | index :: rest, table =>
    let entry := table.entries[index]
    if !entry.used ∨ entry.owner ≠ source then cloneEntries source destination rest table
    else table.freeSlot.bind fun slot =>
      cloneEntries source destination rest (table.set slot { entry with owner := destination })

/-- `clone_owner`: the inner `none` is a refusal, the outer one a failed `expect`. -/
def cloneOwner (table : RegionTable N) (source destination : Nat) : Option (Option (RegionTable N)) :=
  if source = 0 ∨ destination = 0 ∨ source = destination ∨
      table.entries.toList.any (fun entry => entry.owner == destination) then some none
  else if table.freeSlots < table.count source then some none
  else (cloneEntries source destination (List.finRange N) table).map some

/-- The copies that a clone makes of some entries. -/
def copies (source destination : Nat) (entries : List Region) : List Region :=
  entries.filterMap fun entry => if entry.owner = source then some { entry with owner := destination } else none

/-- With a free slot for each of the source's regions the `expect` does not fail. -/
theorem cloneEntries_perm {source destination : Nat} (hsource : source ≠ 0) (hdestination : destination ≠ 0)
    (hne : source ≠ destination) (slots : List (Fin N)) (table : RegionTable N)
    (hroom : (copies source destination (slots.map (table.entries[·]))).length ≤ table.freeSlots) :
    ∃ table', cloneEntries source destination slots table = some table' ∧ (occupied Region.used table'.entries).Perm
      (copies source destination (slots.map (table.entries[·])) ++ occupied Region.used table.entries) := by
  induction slots generalizing table with
  | nil => exact ⟨table, rfl, .refl _⟩
  | cons index rest ih =>
    unfold cloneEntries
    by_cases howner : table.entries[index].owner = source
    case neg =>
      simp only [copies, List.map_cons, List.filterMap_cons, if_neg howner] at hroom ⊢
      simpa [copies, howner] using ih table hroom
    simp only [copies, List.map_cons, List.filterMap_cons, if_pos howner] at hroom ⊢
    generalize hcopy : ({ table.entries[index] with owner := destination } : Region) = copy at hroom ⊢
    have hused : copy.used := by simpa [← hcopy, Region.used] using hdestination
    cases hslot : table.freeSlot with
    | none =>
      have hfull : table.freeSlots = 0 := by simpa [freeSlots, vacant, countP_toList] using slot?_eq_none.1 hslot
      simp [hfull] at hroom
    | some slot =>
      have hfree : table.entries[slot].used = false := by simpa using slot?_some hslot
      -- the slot written held none of the source's regions and holds none now
      have hsame : copies source destination (rest.map ((table.set slot copy).entries[·])) =
          copies source destination (rest.map (table.entries[·])) := by
        simp only [copies, List.filterMap_map]
        refine List.filterMap_congr fun i _ => ?_
        grind [set, Region.used]
      have hvacant : (table.set slot copy).freeSlots + 1 = table.freeSlots := by
        simpa [freeSlots, vacant, set, hfree, hused] using countP_set (fun entry => !entry.used) table.entries slot copy
      rw [List.length_cons, ← hvacant, Nat.add_le_add_iff_right] at hroom
      obtain ⟨table', hclone, hperm⟩ := ih (table.set slot copy) (hsame ▸ hroom)
      rw [hsame] at hperm
      exact ⟨table', by simpa [howner, Region.used, hsource] using hclone,
        hperm.trans (((occupied_set hfree hused).append_left _).trans List.perm_middle)⟩

/-- A clone is refused for one of these reasons, or gives the destination a copy of each region of the
source and leaves all others as they are; its `expect` never fails. -/
theorem cloneOwner_exact (table : RegionTable N) (source destination : Nat) :
    (table.cloneOwner source destination = some none ∧ (table.freeSlots < table.count source ∨ source = 0 ∨
      destination = 0 ∨ source = destination ∨ ∃ entry ∈ table.entries.toList, entry.owner = destination)) ∨
    ∃ table', table.cloneOwner source destination = some (some table') ∧ (occupied Region.used table'.entries).Perm
      (copies source destination table.entries.toList ++ occupied Region.used table.entries) := by
  unfold cloneOwner
  split
  · rename_i h
    exact .inl ⟨rfl, .inr (by simpa using h)⟩
  split
  · rename_i h
    exact .inl ⟨rfl, .inl h⟩
  rename_i hvalid hroom
  simp only [not_or] at hvalid
  obtain ⟨hsource, hdestination, hne, -⟩ := hvalid
  have hclone := cloneEntries_perm hsource hdestination hne (List.finRange N) table
  rw [← toList_eq_map] at hclone
  obtain ⟨table', hclone, hperm⟩ := hclone (by
    rw [copies, List.length_filterMap_eq_countP]
    refine le_trans (List.countP_mono_left fun entry _ h => ?_) (not_lt.1 hroom)
    simp_all [Region.used])
  exact .inr ⟨table', by rw [hclone]; rfl, hperm⟩

end RegionTable

end MakOS.VmSpace
