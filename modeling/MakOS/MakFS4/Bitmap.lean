/-
The allocation bitmap (`BlockBitmap` of `crates/makfs4`): one bit per block of the data region, with
first-fit allocation. Every operation either changes exactly the bits of the extents it names or, on
a failed tail allocation, gives all of them back.
-/
import MakOS.Data.FirstRun
import MakOS.MakFS4.Extent

namespace MakOS.MakFS4

open Bytes Data Extent

/-- A bitmap over `blockCount` blocks from `baseBlock` on; `new_at` checks what the fields say. -/
structure BlockBitmap where
  words : List UInt64
  baseBlock : Nat
  blockCount : Nat
  nonempty : blockCount ≠ 0
  capacity : blockCount ≤ 64 * words.length
  bounded : baseBlock + blockCount < 2 ^ 64

namespace BlockBitmap

def newAt (words : List UInt64) (baseBlock blockCount : Nat) : Except Error BlockBitmap :=
  if 64 * words.length < 2 ^ 64 then
    if h : blockCount ≠ 0 ∧ blockCount ≤ 64 * words.length ∧ baseBlock + blockCount < 2 ^ 64 then
      .ok ⟨words, baseBlock, blockCount, h.1, h.2.1, h.2.2⟩
    else .error .invalid
  else .error .outOfRange

def InRange (bitmap : BlockBitmap) (block : Nat) : Prop :=
  bitmap.baseBlock ≤ block ∧ block - bitmap.baseBlock < bitmap.blockCount

instance (bitmap : BlockBitmap) (block : Nat) : Decidable (bitmap.InRange block) :=
  inferInstanceAs (Decidable (_ ∧ _))

def marked (bitmap : BlockBitmap) (block : Nat) : Bool := bitAt bitmap.words (block - bitmap.baseBlock)

def allocated (bitmap : BlockBitmap) (block : Nat) : Except Error Bool :=
  if bitmap.InRange block then .ok (bitmap.marked block) else .error .outOfRange

def set (bitmap : BlockBitmap) (block : Nat) (value : Bool) : Except Error BlockBitmap :=
  if bitmap.InRange block then
    .ok { bitmap with
          words := putBit bitmap.words (block - bitmap.baseBlock) value
          capacity := by rw [length_putBit]; exact bitmap.capacity }
  else .error .outOfRange

/-- The range check of `reserve` and `release`, then a check that every block of the extent is
marked as expected, then the change of their bits. -/
def change (bitmap : BlockBitmap) (extent : Extent) (value : Bool) : Except Error BlockBitmap :=
  match extent.endBlock with
  | none => .error .outOfRange
  | some last =>
    if extent.blockCount = 0 ∨ extent.start < bitmap.baseBlock ∨ last > bitmap.baseBlock + bitmap.blockCount then
      .error .outOfRange
    else do
      extent.blocks.forM fun block => do
        if (← bitmap.allocated block) == value then .error .invalid else .ok ()
      extent.blocks.foldlM (fun bitmap block => bitmap.set block value) bitmap

def reserve (bitmap : BlockBitmap) (extent : Extent) : Except Error BlockBitmap := bitmap.change extent true

def release (bitmap : BlockBitmap) (extent : Extent) : Except Error BlockBitmap := bitmap.change extent false

/-! ## Allocation -/

/-- The scan of `allocate_from`: the start of the first run of `wanted` free blocks. -/
def firstFit (bitmap : BlockBitmap) (wanted : Nat) : (blocks : List Nat) → (runStart runLength : Nat) → Except Error Nat
  | [], _, _ => .error .noSpace
  | block :: rest, runStart, runLength =>
    match bitmap.allocated block with
    | .error error => .error error
    | .ok true => bitmap.firstFit wanted rest (block + 1) 0
    | .ok false =>
      if runLength + 1 = wanted then .ok runStart else bitmap.firstFit wanted rest runStart (runLength + 1)

def allocateFrom (bitmap : BlockBitmap) (minBlock : Nat) (blockCount : UInt32) :
    Except Error (BlockBitmap × Extent) :=
  if blockCount = 0 ∨ blockCount.toNat > bitmap.blockCount then .error .invalid
  else do
    let first := max bitmap.baseBlock minBlock
    let blocks := List.range' first (bitmap.baseBlock + bitmap.blockCount - first)
    let runStart ← bitmap.firstFit blockCount.toNat blocks first 0
    let extent : Extent := ⟨UInt64.ofNat runStart, blockCount⟩
    let bitmap ← bitmap.reserve extent
    return (bitmap, extent)

def allocate (bitmap : BlockBitmap) (blockCount : UInt32) : Except Error (BlockBitmap × Extent) :=
  bitmap.allocateFrom bitmap.baseBlock blockCount

/-- The retry loop around `allocate_from`: halve the attempt while there is no space for it. -/
def allocateAttempt (bitmap : BlockBitmap) (minBlock : Nat) (attempt : Nat) : Except Error (BlockBitmap × Extent) :=
  match bitmap.allocateFrom minBlock (UInt32.ofNat attempt) with
  | .ok result => .ok result
  | .error .noSpace =>
    if attempt > 1 then allocateAttempt bitmap minBlock ((attempt + 1) / 2) else .error .noSpace
  | .error error => .error error
termination_by attempt
decreasing_by omega

/-- `u32::try_from(block_count).unwrap_or(u32::MAX)` -/
def attemptFor (blockCount : Nat) : Nat := if blockCount < 2 ^ 32 then blockCount else 2 ^ 32 - 1

/-! ## What a change does -/

/-- The bits of the given blocks have the given value, the others are as before. -/
structure Sets (bitmap : BlockBitmap) (blocks : List Nat) (value : Bool) (bitmap' : BlockBitmap) : Prop where
  base : bitmap'.baseBlock = bitmap.baseBlock
  count : bitmap'.blockCount = bitmap.blockCount
  length : bitmap'.words.length = bitmap.words.length
  bits : ∀ i, bitAt bitmap'.words i = if bitmap.baseBlock + i ∈ blocks then value else bitAt bitmap.words i

variable {bitmap bitmap' bitmap'' : BlockBitmap} {blocks blocks' : List Nat} {value : Bool}

theorem Sets.refl (bitmap : BlockBitmap) (value : Bool) : Sets bitmap [] value bitmap :=
  ⟨rfl, rfl, rfl, fun i => by simp⟩

theorem Sets.trans (h : Sets bitmap blocks value bitmap') (h' : Sets bitmap' blocks' value bitmap'') :
    Sets bitmap (blocks ++ blocks') value bitmap'' := by
  refine ⟨h'.base.trans h.base, h'.count.trans h.count, h'.length.trans h.length, fun i => ?_⟩
  rw [h'.bits, h.bits, h.base]
  by_cases hin : bitmap.baseBlock + i ∈ blocks' <;> by_cases hin' : bitmap.baseBlock + i ∈ blocks <;> simp [hin, hin']

theorem Sets.eq (h : Sets bitmap [] value bitmap') : bitmap' = bitmap := by
  have hwords : bitmap'.words = bitmap.words := words_ext h.length fun i => by rw [h.bits, if_neg List.not_mem_nil]
  obtain ⟨hbase, hcount, -, -⟩ := h
  cases bitmap'
  simp_all

variable {b : Nat}

theorem Sets.inRange (h : Sets bitmap blocks value bitmap') : bitmap'.InRange b ↔ bitmap.InRange b := by
  rw [InRange, InRange, h.base, h.count]

theorem Sets.marked (h : Sets bitmap blocks value bitmap') (hb : bitmap.InRange b) :
    bitmap'.marked b = if b ∈ blocks then value else bitmap.marked b := by
  rw [BlockBitmap.marked, BlockBitmap.marked, h.base, h.bits, Nat.add_sub_cancel' hb.1]

theorem allocated_ok {bit : Bool} (h : bitmap.allocated b = .ok bit) : bitmap.InRange b ∧ bit = bitmap.marked b := by
  unfold allocated at h
  split at h
  · exact ⟨by assumption, (Except.ok.inj h).symm⟩
  · cases h

theorem set_ok (h : bitmap.set b value = .ok bitmap') : bitmap.InRange b ∧ Sets bitmap [b] value bitmap' := by
  unfold set at h
  split at h
  · rename_i hrange
    refine ⟨hrange, ?_⟩
    obtain rfl := Except.ok.inj h
    have hcap := bitmap.capacity
    refine ⟨rfl, rfl, length_putBit .., fun i => ?_⟩
    obtain ⟨hlow, hhigh⟩ := hrange
    rw [bitAt_putBit (by omega)]
    by_cases hi : i = b - bitmap.baseBlock
    · rw [if_pos hi, if_pos (List.mem_singleton.2 (by omega))]
    · rw [if_neg hi, if_neg fun hin => hi (by rw [List.mem_singleton] at hin; omega)]
  · cases h

theorem foldlM_set : ∀ {blocks : List Nat} {bitmap bitmap' : BlockBitmap},
    blocks.foldlM (fun bitmap block => bitmap.set block value) bitmap = .ok bitmap' → Sets bitmap blocks value bitmap'
  | [], _, _, h => by
    obtain rfl := Except.ok.inj h
    exact .refl _ _
  | b :: rest, _, _, h => by
    obtain ⟨next, hset, h⟩ := except_bind_ok h
    exact (set_ok hset).2.trans (foldlM_set h)

/-- What a successful `reserve` or `release` does. -/
structure Changes (bitmap : BlockBitmap) (extent : Extent) (value : Bool) (bitmap' : BlockBitmap) : Prop where
  proper : extent.Proper
  within : ∀ b ∈ extent.blocks, bitmap.InRange b
  was : ∀ b ∈ extent.blocks, bitmap.marked b = !value
  sets : Sets bitmap extent.blocks value bitmap'

variable {extent : Extent}

theorem change_ok (h : bitmap.change extent value = .ok bitmap') : Changes bitmap extent value bitmap' := by
  unfold change at h
  split at h
  · cases h
  rename_i last hend
  split at h
  · cases h
  rename_i hc
  obtain ⟨⟨⟩, hcheck, h⟩ := except_bind_ok h
  rw [not_or, count_eq_zero] at hc
  have hblock : ∀ b ∈ extent.blocks, bitmap.InRange b ∧ bitmap.marked b = !value := by
    intro b hb
    obtain ⟨bit, hbit, hne⟩ := except_bind_ok (forM_ok.1 hcheck b hb)
    obtain ⟨hrange, rfl⟩ := allocated_ok hbit
    split at hne
    · cases hne
    · cases hv : bitmap.marked b <;> cases value <;> simp_all
  exact ⟨⟨hc.1, (endBlock_some hend).1⟩, fun b hb => (hblock b hb).1, fun b hb => (hblock b hb).2,
    foldlM_set h⟩

theorem foldlM_set_succeeds : ∀ {blocks : List Nat} {bitmap : BlockBitmap}, (∀ b ∈ blocks, bitmap.InRange b) →
    ∃ bitmap', blocks.foldlM (fun bitmap block => bitmap.set block value) bitmap = .ok bitmap'
  | [], bitmap, _ => ⟨bitmap, rfl⟩
  | b :: rest, bitmap, h => by
    obtain ⟨hfirst, hrest⟩ := List.forall_mem_cons.1 h
    obtain ⟨next, hset⟩ : ∃ next, bitmap.set b value = .ok next := ⟨_, if_pos hfirst⟩
    obtain ⟨last, hlast⟩ := @foldlM_set_succeeds rest next fun c hc => (set_ok hset).2.inRange.2 (hrest c hc)
    exact ⟨last, by rw [List.foldlM_cons, hset]; exact hlast⟩

theorem change_succeeds (hproper : extent.Proper) (hwithin : ∀ b ∈ extent.blocks, bitmap.InRange b)
    (hwas : ∀ b ∈ extent.blocks, bitmap.marked b = !value) : ∃ bitmap', bitmap.change extent value = .ok bitmap' := by
  have hnonempty := hproper.nonempty
  have hfirst := hwithin extent.start (mem_blocks.2 (by omega))
  have hlast := hwithin (extent.start + extent.count - 1) (mem_blocks.2 (by omega))
  obtain ⟨bitmap', hfold⟩ := @foldlM_set_succeeds value _ _ hwithin
  refine ⟨bitmap', ?_⟩
  unfold change
  rw [hproper.endBlock]
  dsimp only
  rw [if_neg, forM_ok.2 fun b hb => ?_]
  · exact hfold
  · rw [allocated, if_pos (hwithin b hb), hwas b hb]
    cases value <;> rfl
  · rw [count_eq_zero]
    unfold InRange at hfirst hlast
    omega

/-! ## What an allocation does -/

/-- The scan is a search for a run of unmarked blocks. -/
theorem firstFit_eq {wanted next left runStart runLength : Nat}
    (hrange : ∀ b, next ≤ b → b < next + left → bitmap.InRange b) (hstart : runLength = 0 → runStart = next) :
    bitmap.firstFit wanted (List.range' next left) runStart runLength =
      (firstRun bitmap.marked wanted (List.range' next left) runStart runLength).elim (.error .noSpace) .ok := by
  induction left generalizing next runStart runLength with
  | zero => rfl
  | succ left ih =>
    rw [List.range'_succ, firstFit, firstRun, allocated, if_pos (hrange next (Nat.le_refl _) (by omega))]
    cases bitmap.marked next with
    | true =>
      rw [firstRun_restart _ _ runStart (next + 1)]
      exact ih (fun b hle hlt => hrange b (by omega) (by omega)) fun _ => rfl
    | false =>
      have hsame : (if runLength = 0 then next else runStart) = runStart := by
        split
        · exact (hstart ‹_›).symm
        · rfl
      simp only [hsame]
      split
      · rfl
      · exact ih (fun b hle hlt => hrange b (by omega) (by omega)) (absurd · (Nat.succ_ne_zero _))

theorem firstFit_found {low wanted : Nat} (hlow : bitmap.baseBlock ≤ low) (hpos : 0 < wanted) :
    Found bitmap.marked wanted low (low + (bitmap.baseBlock + bitmap.blockCount - low))
      (bitmap.firstFit wanted (List.range' low (bitmap.baseBlock + bitmap.blockCount - low)) low 0).toOption := by
  have h := firstRun_found bitmap.marked hpos low (bitmap.baseBlock + bitmap.blockCount - low) low
  rw [firstFit_eq (fun b hle hlt => ⟨by omega, by omega⟩) fun _ => rfl]
  generalize firstRun .. = found at h ⊢
  cases found <;> exact h

/-- What a successful allocation of one extent does. -/
structure Allocates (bitmap : BlockBitmap) (minBlock : Nat) (bitmap' : BlockBitmap) (extent : Extent) : Prop where
  above : minBlock ≤ extent.start
  changes : Changes bitmap extent true bitmap'

variable {minBlock : Nat}

theorem allocateFrom_ok {count : UInt32} (h : bitmap.allocateFrom minBlock count = .ok (bitmap', extent)) :
    extent.blockCount = count ∧ Allocates bitmap minBlock bitmap' extent := by
  unfold allocateFrom at h
  split at h
  · cases h
  rename_i hcount
  obtain ⟨runStart, hfit, h⟩ := except_bind_ok h
  obtain ⟨next, hreserve, h⟩ := except_bind_ok h
  cases h
  refine ⟨rfl, ?_, change_ok hreserve⟩
  have hpos : 0 < count.toNat := Nat.pos_of_ne_zero fun hzero => hcount (.inl (UInt32.toNat_inj.1 hzero))
  have hfound := firstFit_found (Nat.le_max_left bitmap.baseBlock minBlock) hpos
  rw [hfit] at hfound
  have hbound := bitmap.bounded
  obtain ⟨hlow, hhigh, -⟩ := hfound
  rw [start, UInt64.toNat_ofNat_of_lt' (by simp only [UInt64.size]; omega)]
  omega

theorem allocateAttempt_ok {attempt : Nat} (h : bitmap.allocateAttempt minBlock attempt = .ok (bitmap', extent)) :
    extent.count ≤ attempt ∧ Allocates bitmap minBlock bitmap' extent := by
  induction attempt using Nat.strongRecOn with
  | ind attempt ih =>
    rw [allocateAttempt] at h
    split at h
    · rename_i result hfrom
      cases h
      obtain ⟨hcount, halloc⟩ := allocateFrom_ok hfrom
      refine ⟨?_, halloc⟩
      rw [count, hcount]
      exact (UInt32.toNat_ofNat' ..).trans_le (Nat.mod_le ..)
    · split at h
      · obtain ⟨hle, halloc⟩ := ih _ (by omega) h
        exact ⟨by omega, halloc⟩
      · cases h
    · cases h

theorem attemptFor_le (blockCount : Nat) : attemptFor blockCount ≤ blockCount := by
  unfold attemptFor
  split <;> omega

/-- The loop of `allocate_after_prefix`: the bitmap and the extents reserved so far, and the outcome. -/
def allocateTail (bitmap : BlockBitmap) (result allocated : ExtentMap) (minimum blockCount : Nat) :
    BlockBitmap × ExtentMap × Except Error ExtentMap :=
  if blockCount = 0 then (bitmap, allocated, .ok result)
  else
    match _h : bitmap.allocateAttempt minimum (attemptFor blockCount) with
    | .error error => (bitmap, allocated, .error error)
    | .ok (bitmap, extent) =>
      match allocated.push extent with
      | .error error =>
        match bitmap.release extent with
        | .error error => (bitmap, allocated, .error error)
        | .ok bitmap => (bitmap, allocated, .error error)
      | .ok allocated =>
        match result.push extent with
        | .error error => (bitmap, allocated, .error error)
        | .ok result =>
          match extent.endBlock with
          | none => (bitmap, allocated, .error .outOfRange)
          | some minimum => allocateTail bitmap result allocated minimum (blockCount - extent.count)
termination_by blockCount
decreasing_by
  have hpos := (allocateAttempt_ok _h).2.changes.proper.nonempty
  have hle := (allocateAttempt_ok _h).1
  have := attemptFor_le blockCount
  omega

/-- Release extents until one cannot be released. -/
def releaseAll (bitmap : BlockBitmap) : List Extent → BlockBitmap × Except Error Unit
  | [] => (bitmap, .ok ())
  | extent :: rest =>
    match bitmap.release extent with
    | .error error => (bitmap, .error error)
    | .ok bitmap => bitmap.releaseAll rest

/-- The bitmap afterwards, whether or not the allocation succeeded, and its result. -/
def allocateAfterPrefix (bitmap : BlockBitmap) ( front : ExtentMap) (blockCount : Nat) :
    BlockBitmap × Except Error ExtentMap :=
  let minimum : Except Error Nat :=
    match front.extents.getLast? with
    | some last =>
      match last.endBlock with
      | some last => .ok last
      | none => .error .outOfRange
    | none => .ok bitmap.baseBlock
  match minimum with
  | .error error => (bitmap, .error error)
  | .ok minimum =>
    match bitmap.allocateTail front .empty minimum blockCount with
    | (bitmap, _, .ok result) => (bitmap, .ok result)
    | (bitmap, allocated, .error error) =>
      match bitmap.releaseAll allocated.extents with
      | (bitmap, .ok ()) => (bitmap, .error error)
      | (bitmap, .error error) => (bitmap, .error error)

/-! ## The tail of a file -/

/-- The extents a tail allocation has reserved so far. -/
structure Reserved (start : BlockBitmap) (allocated : ExtentMap) (bitmap : BlockBitmap) : Prop where
  within : ∀ b ∈ allocated.blockList, start.InRange b
  free : ∀ b ∈ allocated.blockList, start.marked b = false
  sets : Sets start allocated.blockList true bitmap

variable {start : BlockBitmap} {allocated allocated' front : ExtentMap}

theorem Reserved.empty : Reserved start .empty start :=
  ⟨fun _ => List.not_mem_nil.elim, fun _ => List.not_mem_nil.elim, .refl _ _⟩

theorem Reserved.was_free (h : Reserved start allocated bitmap) : ∀ b ∈ allocated.blockList, start.allocated b = .ok false :=
  fun b hb => by rw [BlockBitmap.allocated, if_pos (h.within b hb), h.free b hb]

theorem Reserved.push (h : Reserved start allocated bitmap) (hc : Changes bitmap extent true bitmap')
    (hpush : allocated.push extent = .ok allocated') : Reserved start allocated' bitmap' := by
  have hnew : ∀ b ∈ extent.blocks, start.InRange b ∧ start.marked b = false := by
    intro b hb
    have hrange := h.sets.inRange.1 (hc.within b hb)
    have hwas := hc.was b hb
    rw [h.sets.marked hrange] at hwas
    exact ⟨hrange, by grind⟩
  constructor <;> rw [ExtentMap.push_blockList hpush]
  · exact List.forall_mem_append.2 ⟨h.within, fun b hb => (hnew b hb).1⟩
  · exact List.forall_mem_append.2 ⟨h.free, fun b hb => (hnew b hb).2⟩
  · exact h.sets.trans hc.sets

theorem Reserved.release (h : Reserved start allocated bitmap) (hfirst : allocated.extents = extent :: allocated'.extents) :
    ∃ next, bitmap.release extent = .ok next ∧ Reserved start allocated' next := by
  have hlist : allocated.blockList = extent.blocks ++ allocated'.blockList := by
    rw [ExtentMap.blockList, hfirst]
    rfl
  have hnodup := allocated.nodup_blockList
  obtain ⟨hwithin, hfree, hsets⟩ := h
  rw [hlist] at hwithin hfree hsets hnodup
  rw [List.forall_mem_append] at hwithin hfree
  obtain ⟨next, hnext⟩ := @change_succeeds bitmap false extent (allocated.separated.proper extent (by simp [hfirst]))
    (fun b hb => hsets.inRange.2 (hwithin.1 b hb))
    fun b hb => by rw [hsets.marked (hwithin.1 b hb), if_pos (List.mem_append_left _ hb)]; rfl
  have hclears := (change_ok hnext).sets
  refine ⟨next, hnext, hwithin.2, hfree.2, hclears.base.trans hsets.base, hclears.count.trans hsets.count,
    hclears.length.trans hsets.length, fun i => ?_⟩
  rw [hclears.bits, hsets.bits, hsets.base]
  by_cases hin : start.baseBlock + i ∈ extent.blocks
  · have hwas := hfree.1 _ hin
    rw [marked, Nat.add_sub_cancel_left] at hwas
    rw [if_pos hin, if_neg fun hrest => List.disjoint_of_nodup_append hnodup hin hrest, hwas]
  · simp [hin]

theorem releaseAll_reserved : ∀ {extents : List Extent} {allocated : ExtentMap} {bitmap : BlockBitmap},
    allocated.extents = extents → Reserved start allocated bitmap → bitmap.releaseAll extents = (start, .ok ())
  | [], allocated, bitmap, hextents, h => by
    have hsets := h.sets
    rw [ExtentMap.blockList, hextents] at hsets
    rw [releaseAll, hsets.eq]
  | e :: rest, allocated, bitmap, hextents, h => by
    have hsep := allocated.separated
    have hshort := allocated.short
    rw [hextents] at hsep hshort
    obtain ⟨next, hnext, hrest⟩ := @Reserved.release _ _ _ _ ⟨rest, hsep.tail, Nat.le_of_succ_le hshort⟩ h hextents
    rw [releaseAll, hnext]
    exact releaseAll_reserved rfl hrest

/-- An extent just reserved can be released, and then the bitmap is as before. -/
theorem Changes.release (h : Changes bitmap extent true bitmap') : bitmap'.release extent = .ok bitmap := by
  have hreserved : Reserved bitmap ⟨[extent], .singleton h.proper, Nat.le_add_left 1 13⟩ bitmap' := by
    constructor <;> rw [ExtentMap.blockList, List.flatMap_singleton]
    exacts [h.within, h.was, h.sets]
  obtain ⟨next, hnext, hempty⟩ := @Reserved.release _ _ _ _ .empty hreserved rfl
  rw [hnext, hempty.sets.eq]

/-- What the loop leaves, whatever its outcome: exactly the extents it recorded are reserved, and a result has
their blocks after those of the prefix. -/
structure Tail (start : BlockBitmap) ( front : ExtentMap) (count : Nat)
    (outcome : BlockBitmap × ExtentMap × Except Error ExtentMap) : Prop where
  reserved : Reserved start outcome.2.1 outcome.1
  done : ∀ result, outcome.2.2 = .ok result →
    result.blockList = front.blockList ++ outcome.2.1.blockList ∧ outcome.2.1.blockList.length = count

theorem Tail.error {count : Nat} {error : Error} (h : Reserved start allocated bitmap) :
    Tail start front count (bitmap, allocated, .error error) := ⟨h, fun _ hr => by cases hr⟩

theorem allocateTail_tail (bitmap : BlockBitmap) (result allocated : ExtentMap) (minimum n : Nat)
    (h : Reserved start allocated bitmap) (hlist : result.blockList = front.blockList ++ allocated.blockList) :
    Tail start front (allocated.blockList.length + n) (bitmap.allocateTail result allocated minimum n) := by
  fun_induction allocateTail bitmap result allocated minimum n with
  | case1 =>
    refine ⟨h, fun result hr => ?_⟩
    cases hr
    exact ⟨hlist, rfl⟩
  | case2 => exact .error h
  | case3 _ _ _ _ _ _ _ _ hattempt _ _ _ hrelease =>
    rw [(allocateAttempt_ok hattempt).2.changes.release] at hrelease
    cases hrelease
  | case4 _ _ _ _ _ _ _ _ hattempt _ _ _ hrelease =>
    rw [(allocateAttempt_ok hattempt).2.changes.release] at hrelease
    cases hrelease
    exact .error h
  | case5 _ _ _ _ _ _ _ _ hattempt _ hpush
  | case6 _ _ _ _ _ _ _ _ hattempt _ hpush => exact .error (h.push (allocateAttempt_ok hattempt).2.changes hpush)
  | case7 _ _ _ _ n _ _ extent hattempt _ hpush _ hresult _ _ ih =>
    obtain ⟨hle, halloc⟩ := allocateAttempt_ok hattempt
    have hpushed := ExtentMap.push_blockList hpush
    have htail := ih (h.push halloc.changes hpush)
      (by rw [ExtentMap.push_blockList hresult, hpushed, hlist, List.append_assoc])
    rwa [hpushed, List.length_append, blocks, List.length_range', Nat.add_assoc,
      Nat.add_sub_cancel' (hle.trans (attemptFor_le n))] at htail

/-- A tail allocation is exact and atomic: the file keeps its blocks and gets as many more as asked for, which were
free and are the only ones whose bits change, or it fails and the bitmap is as before. -/
theorem allocateAfterPrefix_exact (bitmap : BlockBitmap) ( front : ExtentMap) (n : Nat) :
    (∃ error, bitmap.allocateAfterPrefix front n = (bitmap, .error error)) ∨
      ∃ bitmap' result tail, bitmap.allocateAfterPrefix front n = (bitmap', .ok result) ∧
        tail.length = n ∧ tail.Nodup ∧ (∀ b ∈ tail, bitmap.allocated b = .ok false) ∧ Sets bitmap tail true bitmap' ∧
        ∀ k, result.fileBlockToDevice k =
          if k < front.blocks then front.fileBlockToDevice k else tail[k - front.blocks]? := by
  unfold allocateAfterPrefix
  dsimp only
  split
  · exact .inl ⟨_, rfl⟩
  rename_i minimum _
  have htail := allocateTail_tail bitmap front .empty minimum n .empty (List.append_nil _).symm
  generalize bitmap.allocateTail front .empty minimum n = outcome at htail ⊢
  obtain ⟨bitmap', allocated, _ | result⟩ := outcome
  · rename_i error
    have hback : bitmap'.releaseAll allocated.extents = (bitmap, .ok ()) := releaseAll_reserved rfl htail.reserved
    dsimp only
    rw [hback]
    exact .inl ⟨error, rfl⟩
  obtain ⟨hlist, hcount⟩ := htail.done result rfl
  have hres := htail.reserved
  refine .inr ⟨bitmap', result, allocated.blockList, rfl, hcount.trans (Nat.zero_add n), allocated.nodup_blockList,
    hres.was_free, hres.sets, fun k => ?_⟩
  rw [ExtentMap.fileBlockToDevice_eq, ExtentMap.fileBlockToDevice_eq, hlist, List.getElem?_append,
    ExtentMap.length_blockList]

end BlockBitmap

end MakOS.MakFS4
