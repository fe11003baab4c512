/-
Extents and extent maps (`crates/makfs4`). An extent map is only ever built by `push`, so it carries
what `push` keeps: its extents are nonempty, ordered and apart from each other.
-/
import MakOS.Bytes.Bits
import MakOS.Bytes.Crc32

namespace MakOS.MakFS4

open Bytes

/-! ## Limits and errors -/

abbrev blockBytes : Nat := 4096
abbrev recordBytes : Nat := 512
abbrev maxPathBytes : Nat := 255
abbrev maxExtents : Nat := 14
def formatVersion : UInt32 := 4

inductive Error
  | invalid
  | corrupt
  | noSpace
  | tooFragmented
  | outOfRange
  | wrongPhase
  deriving DecidableEq, Repr

/-! ## Extents -/

structure Extent where
  startBlock : UInt64
  blockCount : UInt32
  deriving DecidableEq, Repr

namespace Extent

def start (e : Extent) : Nat := e.startBlock.toNat

def count (e : Extent) : Nat := e.blockCount.toNat

def endBlock (e : Extent) : Option Nat := if e.start + e.count < 2 ^ 64 then some (e.start + e.count) else none

def blocks (e : Extent) : List Nat := List.range' e.start e.count

/-- An extent `push` can take. -/
structure Proper (e : Extent) : Prop where
  nonempty : e.count ≠ 0
  bounded : e.start + e.count < 2 ^ 64

variable {e : Extent}

theorem endBlock_some {last : Nat} (h : e.endBlock = some last) : e.start + e.count < 2 ^ 64 ∧ last = e.start + e.count := by
  unfold endBlock at h
  split at h
  · exact ⟨by assumption, (Option.some.inj h).symm⟩
  · cases h

theorem Proper.endBlock (h : e.Proper) : e.endBlock = some (e.start + e.count) := if_pos h.bounded

theorem mem_blocks {b : Nat} : b ∈ e.blocks ↔ e.start ≤ b ∧ b < e.start + e.count := List.mem_range'_1

theorem count_eq_zero : e.blockCount = 0 ↔ e.count = 0 := by
  rw [← UInt32.toNat_inj]
  rfl

end Extent

/-! ## Extent maps -/

/-- The extents of a map built by `push`: proper, in order and with a gap between neighbours. -/
structure Separated (extents : List Extent) : Prop where
  proper : ∀ e ∈ extents, e.Proper
  apart : extents.Pairwise fun e f => e.start + e.count < f.start

structure ExtentMap where
  extents : List Extent
  separated : Separated extents
  short : extents.length ≤ maxExtents
  deriving DecidableEq

theorem Separated.nil : Separated [] := ⟨by simp, .nil⟩

variable {xs ys : List Extent}

theorem Separated.append (hx : Separated xs) (hy : Separated ys)
    (h : ∀ e ∈ xs, ∀ f ∈ ys, e.start + e.count < f.start) : Separated (xs ++ ys) :=
  ⟨fun e he => (List.mem_append.1 he).elim (hx.proper e) (hy.proper e), List.pairwise_append.2 ⟨hx.apart, hy.apart, h⟩⟩

theorem Separated.left (h : Separated (xs ++ ys)) : Separated xs :=
  ⟨fun e he => h.proper e (List.mem_append_left _ he), (List.pairwise_append.1 h.apart).1⟩

theorem Separated.tail {e : Extent} (h : Separated (e :: xs)) : Separated xs :=
  ⟨(List.forall_mem_cons.1 h.proper).2, (List.pairwise_cons.1 h.apart).2⟩

theorem Separated.singleton {e : Extent} (h : e.Proper) : Separated [e] :=
  ⟨fun f hf => by rw [List.mem_singleton.1 hf]; exact h, List.pairwise_singleton ..⟩

/-- Every extent of a map but the last ends before the last begins. -/
theorem Separated.before_last {last : Extent} (h : Separated (xs ++ [last])) : ∀ e ∈ xs, e.start + e.count < last.start :=
  fun e he => (List.pairwise_append.1 h.apart).2.2 e he last (List.mem_singleton.2 rfl)

namespace ExtentMap

def empty : ExtentMap := ⟨[], .nil, Nat.zero_le _⟩

/-- What `push` does to the list of extents: merge with the last one, append, or fail. -/
def pushList (extents : List Extent) (extent : Extent) : Except Error (List Extent) :=
  match extent.endBlock with
  | none => .error .outOfRange
  | some last =>
    if extent.blockCount = 0 then .error .invalid
    else
      let append : Except Error (List Extent) :=
        if extents.length = maxExtents ∨ last < extent.start then .error .tooFragmented
        else .ok (extents ++ [extent])
      match extents.getLast? with
      | none => append
      | some previous =>
        match previous.endBlock with
        | none => .error .outOfRange
        | some previousEnd =>
          if extent.start < previousEnd then .error .invalid
          else if extent.start = previousEnd then
            let merged := previous.count + extent.count
            if merged < 2 ^ 32 then
              .ok (extents.dropLast ++ [{ previous with blockCount := UInt32.ofNat merged }])
            else .error .outOfRange
          else append

variable {extents extents' : List Extent} {extent : Extent}

/-- Everything a successful `push` can do. -/
theorem pushList_cases (h : pushList extents extent = .ok extents') : extent.Proper ∧
      ((extents' = extents ++ [extent] ∧ extents.length ≠ maxExtents ∧
          ∀ last, extents.getLast? = some last → ∃ e, last.endBlock = some e ∧ e < extent.start) ∨
        ∃ rest last, extents = rest ++ [last] ∧ last.start + last.count = extent.start ∧
          last.count + extent.count < 2 ^ 32 ∧
          extents' = rest ++ [{ last with blockCount := UInt32.ofNat (last.count + extent.count) }]) := by
  unfold pushList at h
  split at h
  · cases h
  rename_i last hend
  split at h
  · cases h
  rename_i hcount
  have hproper : extent.Proper :=
    ⟨fun hc => hcount (Extent.count_eq_zero.2 hc), (Extent.endBlock_some hend).1⟩
  refine ⟨hproper, ?_⟩
  simp only at h
  split at h
  · rename_i hnone
    split at h
    · cases h
    · rename_i hroom
      exact .inl ⟨(Except.ok.inj h).symm, fun hl => hroom (.inl hl), fun _ hlast => by rw [hnone] at hlast; cases hlast⟩
  rename_i previous hlast
  split at h
  · cases h
  rename_i previousEnd hprev
  split at h
  · cases h
  rename_i hle
  split at h
  · rename_i heq
    split at h
    · rename_i hmerged
      obtain ⟨rest, hrest⟩ := List.getLast?_eq_some_iff.1 hlast
      refine .inr ⟨rest, previous, hrest, ?_, hmerged, ?_⟩
      · rw [heq, (Extent.endBlock_some hprev).2]
      · rw [← Except.ok.inj h, hrest, List.dropLast_concat]
    · cases h
  · rename_i hne
    split at h
    · cases h
    rename_i hroom
    refine .inl ⟨(Except.ok.inj h).symm, fun hl => hroom (.inl hl), fun last' hlast' => ?_⟩
    rw [hlast] at hlast'
    cases hlast'
    exact ⟨previousEnd, hprev, by omega⟩

theorem pushList_separated (hs : Separated extents)
    (hshort : extents.length ≤ maxExtents) (h : pushList extents extent = .ok extents') :
    Separated extents' ∧ extents'.length ≤ maxExtents := by
  obtain ⟨hproper, ⟨rfl, hroom, hlast⟩ | ⟨rest, last, rfl, hend, hsum, rfl⟩⟩ := pushList_cases h
  · refine ⟨hs.append (.singleton hproper) fun e he f hf => ?_, by simp; omega⟩
    rw [List.mem_singleton.1 hf]
    obtain ⟨init, last, rfl⟩ := (List.eq_nil_or_concat' extents).resolve_left fun hnil => by simp [hnil] at he
    obtain ⟨previousEnd, hprev, hlt⟩ := hlast last (by simp)
    have hlastEnd := (Extent.endBlock_some hprev).2
    rcases List.mem_append.1 he with he | he
    · have := hs.before_last e he
      omega
    · rw [List.mem_singleton.1 he]
      omega
  · have hlastProper := hs.proper last (by simp)
    -- the merged extent begins where the last one did
    have hcount : ({ last with blockCount := UInt32.ofNat (last.count + extent.count) } : Extent).count =
        last.count + extent.count := UInt32.toNat_ofNat_of_lt' hsum
    have hmerged : ({ last with blockCount := UInt32.ofNat (last.count + extent.count) } : Extent).Proper := by
      constructor
      · have := hproper.nonempty
        omega
      rw [hcount]
      have := hproper.bounded
      show last.start + (last.count + extent.count) < 2 ^ 64
      omega
    refine ⟨hs.left.append (.singleton hmerged) fun e he f hf => ?_, by simpa using hshort⟩
    rw [List.mem_singleton.1 hf]
    exact hs.before_last e he

def push (map : ExtentMap) (extent : Extent) : Except Error ExtentMap :=
  match h : pushList map.extents extent with
  | .error error => .error error
  | .ok extents =>
    have hs := pushList_separated map.separated map.short h
    .ok ⟨extents, hs.1, hs.2⟩

def ofList (extents : List Extent) : Except Error ExtentMap := extents.foldlM push empty

/-! ### The blocks of a map -/

def blocks (map : ExtentMap) : Nat := (map.extents.map Extent.count).sum

/-- The device blocks of a file, in file order. -/
def blockList (map : ExtentMap) : List Nat := map.extents.flatMap Extent.blocks

variable {map map' : ExtentMap}

theorem push_blockList (h : map.push extent = .ok map') : map'.blockList = map.blockList ++ extent.blocks := by
  unfold push at h
  split at h
  · cases h
  rename_i hl
  cases h
  unfold blockList
  obtain ⟨-, ⟨rfl, -⟩ | ⟨rest, last, he, hend, hsum, rfl⟩⟩ := pushList_cases hl
  · rw [List.flatMap_append, List.flatMap_singleton]
  -- the last extent and the new one are one run of blocks
  have hcount : (UInt32.ofNat (last.count + extent.count)).toNat = last.count + extent.count :=
    UInt32.toNat_ofNat_of_lt' hsum
  simp only [he, List.flatMap_append, List.append_assoc, List.flatMap_singleton, Extent.blocks, Extent.count,
    Extent.start] at hcount hend ⊢
  rw [hcount, ← hend, List.range'_append_1]

theorem length_blockList (map : ExtentMap) : map.blockList.length = map.blocks := by
  simp [blockList, blocks, Extent.blocks]

theorem nodup_blockList (map : ExtentMap) : map.blockList.Nodup := by
  refine List.nodup_flatMap.2 ⟨fun e _ => List.nodup_range', map.separated.apart.imp fun h b hb hc => ?_⟩
  rw [Extent.mem_blocks] at hb hc
  omega

/-! ### From file blocks to device blocks -/

/-- The loop of `file_block_to_device`. -/
def locate : List Extent → Nat → Option Nat
  | [], _ => none
  | e :: rest, remaining =>
    if remaining < e.count then
      if e.start + remaining < 2 ^ 64 then some (e.start + remaining) else none
    else locate rest (remaining - e.count)

def fileBlockToDevice (map : ExtentMap) (fileBlock : Nat) : Option Nat := locate map.extents fileBlock

theorem locate_eq : ∀ {extents : List Extent}, Separated extents → ∀ k : Nat, locate extents k = (extents.flatMap Extent.blocks)[k]?
  | [], _, _ => rfl
  | e :: rest, h, k => by
    have hbound := (h.proper e List.mem_cons_self).bounded
    rw [List.flatMap_cons, List.getElem?_append, Extent.blocks, List.length_range', locate]
    split
    · rw [if_pos (by omega), List.getElem?_range' (by assumption), Nat.one_mul]
    · exact locate_eq h.tail _

theorem fileBlockToDevice_eq (map : ExtentMap) (k : Nat) : map.fileBlockToDevice k = map.blockList[k]? :=
  locate_eq map.separated k

/-! ### Splitting -/

/-- Push a piece of an extent, if there is any. -/
def pushPiece (map : ExtentMap) (start count : Nat) : Except Error ExtentMap :=
  if count = 0 then .ok map
  else if start < 2 ^ 64 then map.push ⟨UInt64.ofNat start, UInt32.ofNat count⟩
  else .error .outOfRange

/-- One round of the `split_at` loop; the state is the prefix, the suffix and what is still to keep. -/
def splitStep (state : ExtentMap × ExtentMap × Nat) (extent : Extent) :
    Except Error (ExtentMap × ExtentMap × Nat) := do
  let (front, back, remaining) := state
  let kept := min remaining extent.count
  let front ← front.pushPiece extent.start kept
  let back ← back.pushPiece (extent.start + kept) (extent.count - kept)
  return (front, back, remaining - kept)

def splitAt (map : ExtentMap) (count : Nat) : Except Error (ExtentMap × ExtentMap) :=
  if count > map.blocks then .error .outOfRange
  else do
    let (front, back, _) ← map.extents.foldlM splitStep (empty, empty, count)
    return (front, back)

end ExtentMap

end MakOS.MakFS4
