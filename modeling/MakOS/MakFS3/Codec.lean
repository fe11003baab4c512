/-
The records of the dynamic file area (`fs`): inodes and the allocation bitmap, each a sealed sector, and the files of
the format before it. A record that is not sealed, or says something that is never written, ends the kernel.
-/
import MakOS.Bytes.Crc32

namespace MakOS.MakFS3

open Bytes

abbrev Sector := Vector UInt8 512

abbrev dynamicFileCount : Nat := 16
abbrev dynamicNameBytes : Nat := 32
abbrev maxFileBytes : Nat := 2048
abbrev dynamicDataBlockCount : Nat := 80
abbrev dynamicBitmapBytes : Nat := 10
abbrev maxDynamicBlocks : Nat := 4
abbrev initUid : UInt32 := 1000
abbrev initGid : UInt32 := 1000

inductive Fatal
  /-- "MakFS dynamic inode kind invalid" -/
  | inodeKind
  /-- "MakFS dynamic inode metadata/checksum invalid" -/
  | inodeMetadata
  /-- "MakFS dynamic inode length invalid" -/
  | inodeLength
  /-- "MakFS dynamic inode block invalid" -/
  | inodeBlock
  /-- "MakFS dynamic-file data read failed" -/
  | dataRead
  /-- "MakFS dynamic-file data checksum invalid" -/
  | dataChecksum
  /-- "MakFS dynamic-file metadata/checksum invalid" -/
  | legacyMetadata
  /-- "MakFS dynamic-file length invalid" -/
  | legacyLength
  /-- "MakFS dynamic v1 migration failed" -/
  | migration
  /-- "MakFS duplicate dynamic data block" -/
  | duplicateBlock
  deriving DecidableEq, Repr

inductive Kind
  | file
  | directory
  deriving DecidableEq, Repr

def Kind.permissions : Kind → UInt32
  | .file => 0o600
  | .directory => 0o700

def Kind.mode : Kind → UInt32
  | .file => 0o100600
  | .directory => 0o040700

structure DynamicInode where
  active : Bool
  kind : Kind
  name : List UInt8
  dataLength : Nat
  dataCrc : UInt32
  blocks : List Nat
  deriving DecidableEq, Repr

def DynamicInode.empty : DynamicInode := ⟨false, .file, [], 0, 0, []⟩

/-- The bytes of `MAKINOD2`. -/
def inodeMagic2 : List UInt8 := [0x4d, 0x41, 0x4b, 0x49, 0x4e, 0x4f, 0x44, 0x32]

/-- The bytes of `MAKINOD3`. -/
def inodeMagic3 : List UInt8 := [0x4d, 0x41, 0x4b, 0x49, 0x4e, 0x4f, 0x44, 0x33]

/-- The bytes of `MAKALC02`. -/
def bitmapMagic : List UInt8 := [0x4d, 0x41, 0x4b, 0x41, 0x4c, 0x43, 0x30, 0x32]

/-- The bytes of `MAKDYN02`. -/
def legacyMagic : List UInt8 := [0x4d, 0x41, 0x4b, 0x44, 0x59, 0x4e, 0x30, 0x32]

/-! ## Inodes -/

def inodeVersion (record : Sector) : Option Nat :=
  if slice record 0 8 = inodeMagic2 then some 2 else if slice record 0 8 = inodeMagic3 then some 3 else none

def inodeKind (version : Nat) (mode : UInt32) : Option Kind :=
  if mode &&& 0o170000 = 0o100000 then some .file
  else if mode &&& 0o170000 = 0o040000 ∧ version ≥ 3 then some .directory else none

/-- The little-endian 16-bit words of a byte string -/
def words : List UInt8 → List Nat
  | low :: high :: rest => ofLe [low, high] :: words rest
  | _ => []

/-- The record part of `read_dynamic_inode` -/
def decodeInode (slot : Nat) (record : Sector) : Except Fatal (Option DynamicInode) :=
  match inodeVersion record with
  | none => .ok none
  | some version => match inodeKind version (getU32 record 12) with
    | none => .error .inodeKind
    | some kind =>
      if !sealed record || (byteAt record 9).toNat ≠ slot || byteAt record 8 > 1 ||
          getU32 record 12 &&& 0o777 ≠ kind.permissions || getU32 record 16 ≠ initUid || getU32 record 20 ≠ initGid then
        .error .inodeMetadata
      else
        let active := byteAt record 8 = 1
        let nameLength := (byteAt record 10).toNat
        let blockCount := (byteAt record 11).toNat
        let dataLength := (getU32 record 24).toNat
        let blocks := words (slice record 64 (2 * blockCount))
        if nameLength > dynamicNameBytes || blockCount > maxDynamicBlocks || dataLength > maxFileBytes ||
            blockCount ≠ (dataLength + 511) / 512 || (kind = .directory && (blockCount ≠ 0 || dataLength ≠ 0)) ||
            (active && nameLength = 0) || (!active && (blockCount ≠ 0 || dataLength ≠ 0)) then
          .error .inodeLength
        else if !(blocks.all (· < dynamicDataBlockCount) && blocks.Nodup) then .error .inodeBlock
        else .ok (some ⟨active, kind, slice record 32 nameLength, dataLength, getU32 record 28, blocks⟩)

def inodeFields (slot : Nat) (inode : DynamicInode) : List (Nat × List UInt8) :=
  [(0, inodeMagic3), (8, [if inode.active then 1 else 0]), (9, [UInt8.ofNat slot]),
    (10, [UInt8.ofNat inode.name.length]), (11, [UInt8.ofNat inode.blocks.length]),
    (12, leBytes 4 inode.kind.mode.toNat), (16, leBytes 4 initUid.toNat), (20, leBytes 4 initGid.toNat),
    (24, leBytes 4 inode.dataLength), (28, leBytes 4 inode.dataCrc.toNat), (32, inode.name),
    (64, inode.blocks.flatMap (leBytes 2))]

/-- The record of `write_dynamic_inode` -/
def encodeInode (slot : Nat) (inode : DynamicInode) : Sector := sealedFields 512 (inodeFields slot inode)

/-- What `store_dynamic_node` writes and `read_dynamic_inode` accepts -/
structure DynamicInode.Valid (inode : DynamicInode) : Prop where
  name : inode.name.length ≤ dynamicNameBytes
  named : inode.active = true → inode.name ≠ []
  length : inode.dataLength ≤ maxFileBytes
  count : inode.blocks.length = (inode.dataLength + 511) / 512
  directory : inode.kind = .directory → inode.dataLength = 0
  inactive : inode.active = false → inode.dataLength = 0
  blocks : ∀ block ∈ inode.blocks, block < dynamicDataBlockCount
  nodup : inode.blocks.Nodup

theorem words_flatMap : ∀ {values : List Nat}, (∀ value ∈ values, value < 65536) →
    words (values.flatMap (leBytes 2)) = values
  | [], _ => rfl
  | value :: values, h => by
    have hvalue : ofLe (leBytes 2 value) = value := ofLe_leBytes_of_lt (h value List.mem_cons_self)
    change ofLe (leBytes 2 value) :: words (values.flatMap (leBytes 2)) = _
    rw [hvalue, words_flatMap (List.forall_mem_cons.1 h).2]

variable {slot : Nat} {inode : DynamicInode}

theorem DynamicInode.Valid.ascending (h : inode.Valid) : Ascending 508 (inodeFields slot inode) := by
  have hname : inode.name.length ≤ 32 := h.name
  have hcount : inode.blocks.length = (inode.dataLength + 511) / 512 := h.count
  have hlength : inode.dataLength ≤ 2048 := h.length
  constructor
  · simp [inodeFields, inodeMagic3]
    omega
  · simp [inodeFields, inodeMagic3]
    omega

/-- What the checks of `read_dynamic_inode` look at, in a record that was written -/
structure Reads (slot : Nat) (inode : DynamicInode) (record : Sector) : Prop where
  version : inodeVersion record = some 3
  sealing : sealed record = true
  active : byteAt record 8 = if inode.active then 1 else 0
  slot : (byteAt record 9).toNat = slot
  nameLength : (byteAt record 10).toNat = inode.name.length
  blockCount : (byteAt record 11).toNat = inode.blocks.length
  mode : getU32 record 12 = inode.kind.mode
  uid : getU32 record 16 = initUid
  gid : getU32 record 20 = initGid
  dataLength : (getU32 record 24).toNat = inode.dataLength
  dataCrc : getU32 record 28 = inode.dataCrc
  name : slice record 32 inode.name.length = inode.name
  blocks : words (slice record 64 (2 * inode.blocks.length)) = inode.blocks

theorem length_blocks (blocks : List Nat) : (blocks.flatMap (leBytes 2)).length = 2 * blocks.length := by
  simp [Nat.mul_comm]

theorem DynamicInode.Valid.reads (h : inode.Valid) (hslot : slot < dynamicFileCount) :
    Reads slot inode (encodeInode slot inode) := by
  have ha : Ascending (512 - 4) (inodeFields slot inode) := h.ascending
  have hname : inode.name.length ≤ 32 := h.name
  have hcount : inode.blocks.length = (inode.dataLength + 511) / 512 := h.count
  have hlength : inode.dataLength ≤ 2048 := h.length
  have hslot' : slot < 16 := hslot
  unfold encodeInode
  constructor
  case version =>
    have hmagic : slice (sealedFields 512 (inodeFields slot inode)) 0 8 = inodeMagic3 :=
      slice_sealedFields ha (by simp [inodeFields]) rfl
    rw [inodeVersion, hmagic]
    rfl
  case sealing => exact sealed_sealedFields (by decide)
  case active => exact byteAt_sealedFields ha (by simp [inodeFields])
  case slot =>
    rw [byteAt_sealedFields ha (by simp [inodeFields] : (9, [UInt8.ofNat slot]) ∈ _)]
    exact UInt8.toNat_ofNat_of_lt' (by simp [UInt8.size]; omega)
  case nameLength =>
    rw [byteAt_sealedFields ha (by simp [inodeFields] : (10, [UInt8.ofNat inode.name.length]) ∈ _)]
    exact UInt8.toNat_ofNat_of_lt' (by simp [UInt8.size]; omega)
  case blockCount =>
    rw [byteAt_sealedFields ha (by simp [inodeFields] : (11, [UInt8.ofNat inode.blocks.length]) ∈ _)]
    exact UInt8.toNat_ofNat_of_lt' (by simp [UInt8.size]; omega)
  case mode | uid | gid | dataCrc => exact getU32_sealedFields ha (by simp [inodeFields])
  case dataLength =>
    rw [getU32, getLe_sealedFields ha (by simp [inodeFields] : (24, leBytes 4 inode.dataLength) ∈ _) (by omega)]
    exact UInt32.toNat_ofNat_of_lt' (by simp [UInt32.size]; omega)
  case name => exact slice_sealedFields ha (by simp [inodeFields]) rfl
  case blocks =>
    rw [slice_sealedFields ha (by simp [inodeFields]) (length_blocks inode.blocks)]
    refine words_flatMap fun block hblock => ?_
    have : block < 80 := h.blocks block hblock
    omega

theorem inodeKind_mode (kind : Kind) : inodeKind 3 kind.mode = some kind ∧ kind.mode &&& 0o777 = kind.permissions := by
  cases kind <;> decide

theorem decode_encodeInode (h : inode.Valid) (hslot : slot < dynamicFileCount) :
    decodeInode slot (encodeInode slot inode) = .ok (some inode) := by
  have hr := h.reads hslot
  have hname : inode.name.length ≤ 32 := h.name
  have hcount : inode.blocks.length = (inode.dataLength + 511) / 512 := h.count
  have hlength : inode.dataLength ≤ 2048 := h.length
  have hactive : decide (byteAt (encodeInode slot inode) 8 = 1) = inode.active := by
    rw [hr.active]
    cases inode.active <;> rfl
  unfold decodeInode
  simp only [hr.version, hr.mode, (inodeKind_mode inode.kind).1, (inodeKind_mode inode.kind).2, hr.sealing, hr.slot,
    hr.uid, hr.gid, hr.nameLength, hr.blockCount, hr.dataLength, hr.dataCrc, hr.name, hr.blocks, hactive]
  have hbyte : ¬ byteAt (encodeInode slot inode) 8 > 1 := by
    rw [hr.active]
    cases inode.active <;> decide
  have hempty : inode.name.length = 0 ↔ inode.name = [] := List.length_eq_zero_iff
  rw [if_neg, if_neg]
  · simp [h.nodup]
    exact h.blocks
  · have hnamed := h.named
    have hdirectory := h.directory
    have hinactive := h.inactive
    simp only [dynamicNameBytes, maxDynamicBlocks, maxFileBytes, Bool.or_eq_true, Bool.and_eq_true, decide_eq_true_eq,
      Bool.not_eq_true', not_or, not_and]
    refine ⟨⟨⟨⟨⟨⟨by omega, by omega⟩, by omega⟩, by omega⟩, ?_⟩, ?_⟩, ?_⟩
    · intro hkind
      have := hdirectory hkind
      omega
    · intro hactive
      rw [hempty]
      exact hnamed hactive
    · intro hidle
      have := hinactive hidle
      omega
  · simp [hbyte]

theorem decodeInode_blocks {record : Sector} (h : decodeInode slot record = .ok (some inode)) :
    (∀ block ∈ inode.blocks, block < dynamicDataBlockCount) ∧ inode.blocks.Nodup := by
  unfold decodeInode at h
  split at h
  · cases h
  split at h
  · cases h
  split at h
  · cases h
  dsimp only at h
  split at h
  · cases h
  split at h
  · cases h
  · rename_i hblocks
    cases h
    simpa using hblocks

/-! ## The bitmap -/

abbrev Bitmap := BitVec dynamicDataBlockCount

def bitmapFields (bitmap : Bitmap) : List (Nat × List UInt8) :=
  [(0, bitmapMagic), (8, leBytes 4 2), (12, leBytes 2 dynamicFileCount), (14, leBytes 2 dynamicDataBlockCount),
    (16, leBytes dynamicBitmapBytes bitmap.toNat)]

/-- The record of `write_allocation_bitmap` -/
def encodeBitmap (bitmap : Bitmap) : Sector := sealedFields 512 (bitmapFields bitmap)

/-- The record part of `read_allocation_bitmap`; bit `i % 8` of byte `i / 8` is for block `i`. -/
def decodeBitmap (record : Sector) : Option Bitmap :=
  if slice record 0 8 = bitmapMagic ∧ sealed record = true ∧ getU32 record 8 = 2 ∧
      getLe record 12 2 = dynamicFileCount ∧ getLe record 14 2 = dynamicDataBlockCount then
    some (BitVec.ofNat _ (getLe record 16 dynamicBitmapBytes))
  else none

theorem decode_encodeBitmap (bitmap : Bitmap) : decodeBitmap (encodeBitmap bitmap) = some bitmap := by
  have ha : Ascending (512 - 4) (bitmapFields bitmap) := by
    constructor <;> simp [bitmapFields, bitmapMagic, dynamicBitmapBytes]
  have hbits := bitmap.isLt
  unfold decodeBitmap encodeBitmap
  rw [if_pos, getLe_sealedFields ha (by simp [bitmapFields] : (16, leBytes dynamicBitmapBytes bitmap.toNat) ∈ _) hbits]
  · rw [BitVec.ofNat_toNat, BitVec.setWidth_eq]
  refine ⟨slice_sealedFields ha (by simp [bitmapFields]) rfl, sealed_sealedFields (by decide), ?_, ?_, ?_⟩
  · exact getU32_sealedFields ha (by simp [bitmapFields])
  · exact getLe_sealedFields ha (by simp [bitmapFields]) (by decide)
  · exact getLe_sealedFields ha (by simp [bitmapFields]) (by decide)

/-! ## Files of the older format -/

structure File where
  kind : Kind
  name : List UInt8
  data : List UInt8
  deriving DecidableEq, Repr

/-- The record part of `read_legacy_dynamic_file` -/
def decodeLegacy (slot : Nat) (record : Sector) : Except Fatal (Option File) :=
  if slice record 0 8 ≠ legacyMagic then .ok none
  else if !sealed record || (byteAt record 9).toNat ≠ slot || byteAt record 8 > 1 || getU32 record 12 ≠ 0o100600 ||
      getU32 record 16 ≠ initUid || getU32 record 20 ≠ initGid then .error .legacyMetadata
  else
    let nameLength := (byteAt record 10).toNat
    let dataLength := (getU32 record 24).toNat
    if nameLength = 0 || nameLength > dynamicNameBytes || dataLength > 64 then .error .legacyLength
    else if byteAt record 8 = 0 then .ok none
    else .ok (some ⟨.file, slice record 32 nameLength, slice record 64 dataLength⟩)

end MakOS.MakFS3
