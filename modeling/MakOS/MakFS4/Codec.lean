/-
The metadata records of the file system: superblocks, catalogs and inodes, each a sealed sector
(`crates/makfs4`). What is written is read back as it was written.
-/
import MakOS.MakFS4.Bitmap

namespace MakOS.MakFS4

open Bytes

abbrev Record := Vector UInt8 512

/-- The bytes of `MAKFS004`. -/
def superMagic : List UInt8 := [0x4d, 0x41, 0x4b, 0x46, 0x53, 0x30, 0x30, 0x34]

/-- The bytes of `MAKINOD4`. -/
def inodeMagic : List UInt8 := [0x4d, 0x41, 0x4b, 0x49, 0x4e, 0x4f, 0x44, 0x34]

/-- The bytes of `MAKCAT04`. -/
def catalogMagic : List UInt8 := [0x4d, 0x41, 0x4b, 0x43, 0x41, 0x54, 0x30, 0x34]

/-- `record.iter().all(|byte| *byte == 0)` -/
def isBlank (record : Record) : Bool := record.toList.all (· == 0)

/-- The check every `decode` starts with. -/
def hasMagic (magic : List UInt8) (input : Record) : Bool :=
  slice input 0 8 == magic && getU32 input 8 == formatVersion && sealed input

/-- The fields every `encode` starts with. -/
def magicFields (magic : List UInt8) : List (Nat × List UInt8) :=
  [(0, magic), (8, leBytes 4 formatVersion.toNat)]

/-! ## Superblocks -/

structure Superblock where
  generation : UInt64
  commitId : UInt64
  blockCount : UInt64
  dataStart : UInt64
  catalogBlock : UInt64
  bitmapBlock : UInt64
  bitmapBlocks : UInt32
  deriving DecidableEq, Repr

namespace Superblock

def validate (s : Superblock) : Except Error Superblock :=
  let bitmapEnd := s.bitmapBlock.toNat + s.bitmapBlocks.toNat
  if bitmapEnd < 2 ^ 64 then
    if s.generation = 0 ∨ s.blockCount = 0 ∨ s.bitmapBlocks = 0 ∨ s.dataStart ≥ s.blockCount ∨
        s.catalogBlock ≥ s.blockCount ∨ bitmapEnd > s.blockCount.toNat ∨
        (s.catalogBlock ≥ s.bitmapBlock ∧ s.catalogBlock.toNat < bitmapEnd) then
      .error .corrupt
    else .ok s
  else .error .corrupt

def fields (s : Superblock) : List (Nat × List UInt8) :=
  [(16, leBytes 8 s.generation.toNat),
   (24, leBytes 8 s.commitId.toNat),
   (32, leBytes 8 s.blockCount.toNat),
   (40, leBytes 8 s.dataStart.toNat),
   (48, leBytes 8 s.catalogBlock.toNat),
   (56, leBytes 8 s.bitmapBlock.toNat),
   (64, leBytes 4 s.bitmapBlocks.toNat)]

def record (s : Superblock) : Record := sealedFields 512 (magicFields superMagic ++ s.fields)

def encode (s : Superblock) : Except Error Record := do
  let _ ← s.validate
  return s.record

def decode (input : Record) : Except Error Superblock :=
  if hasMagic superMagic input then
    validate
      { generation := getU64 input 16
        commitId := getU64 input 24
        blockCount := getU64 input 32
        dataStart := getU64 input 40
        catalogBlock := getU64 input 48
        bitmapBlock := getU64 input 56
        bitmapBlocks := getU32 input 64 }
  else .error .corrupt

end Superblock

/-- The newest of the two roots and its slot; the first wins a tie. -/
def newestSuperblock (first second : Except Error Superblock) : Except Error (Superblock × Fin 2) :=
  match first, second with
  | .ok first, .ok second => if second.generation > first.generation then .ok (second, 1) else .ok (first, 0)
  | .ok first, .error _ => .ok (first, 0)
  | .error _, .ok second => .ok (second, 1)
  | .error _, .error _ => .error .corrupt

/-! ## Catalogs -/

structure Catalog where
  generation : UInt64
  inodeCount : UInt32
  maximumInodes : UInt32
  inodeTableBlock : UInt64
  inodeTableBlocks : UInt32
  deriving DecidableEq, Repr

namespace Catalog

def validate (c : Catalog) (blockCount dataStart : UInt64) : Except Error Catalog :=
  let last := c.inodeTableBlock.toNat + c.inodeTableBlocks.toNat
  if last < 2 ^ 64 then
    if c.generation = 0 ∨ c.maximumInodes = 0 ∨ c.inodeCount > c.maximumInodes ∨
        c.maximumInodes.toNat > c.inodeTableBlocks.toNat * (blockBytes / recordBytes) ∨ c.inodeTableBlocks = 0 ∨
        last > blockCount.toNat ∨ last > dataStart.toNat then
      .error .corrupt
    else .ok c
  else .error .corrupt

def fields (c : Catalog) : List (Nat × List UInt8) :=
  [(16, leBytes 8 c.generation.toNat),
   (24, leBytes 4 c.inodeCount.toNat),
   (28, leBytes 4 c.maximumInodes.toNat),
   (32, leBytes 8 c.inodeTableBlock.toNat),
   (40, leBytes 4 c.inodeTableBlocks.toNat)]

def record (c : Catalog) : Record := sealedFields 512 (magicFields catalogMagic ++ c.fields)

def encode (c : Catalog) (blockCount dataStart : UInt64) : Except Error Record := do
  let _ ← c.validate blockCount dataStart
  return c.record

def decode (input : Record) (blockCount dataStart : UInt64) : Except Error Catalog :=
  if hasMagic catalogMagic input then
    validate
      { generation := getU64 input 16
        inodeCount := getU32 input 24
        maximumInodes := getU32 input 28
        inodeTableBlock := getU64 input 32
        inodeTableBlocks := getU32 input 40 } blockCount dataStart
  else .error .corrupt

end Catalog

/-! ## Inodes -/

structure Inode where
  inode : UInt64
  generation : UInt64
  mode : UInt32
  uid : UInt32
  gid : UInt32
  size : UInt64
  modifiedNs : UInt64
  accessedSeconds : UInt32
  changedSeconds : UInt32
  parent : UInt64
  name : List UInt8
  short : name.length ≤ maxPathBytes
  extents : ExtentMap
  deriving DecidableEq

/-- The test on the bytes of a name in `set_name` and `validate`: no zero, no slash. -/
def badName (name : List UInt8) : Bool := name.any fun byte => byte == 0 || byte == 0x2f

namespace Inode

def empty : Inode := ⟨0, 0, 0, 0, 0, 0, 0, 0, 0, 0, [], Nat.zero_le _, .empty⟩

def setName (inode : Inode) (name : List UInt8) : Except Error Inode :=
  if h : name ≠ [] ∧ name.length ≤ maxPathBytes ∧ badName name = false then
    .ok { inode with name, short := h.2.1 }
  else .error .invalid

def validate (inode : Inode) : Except Error Unit :=
  let capacity := inode.extents.blocks * blockBytes
  if capacity < 2 ^ 64 then
    if inode.inode = 0 ∨ inode.generation = 0 ∨ inode.name = [] ∨ badName inode.name = true ∨
        inode.size.toNat > capacity then
      .error .corrupt
    else .ok ()
  else .error .outOfRange

def validateOnVolume (inode : Inode) (dataStart blockCount : UInt64) : Except Error Unit := do
  inode.validate
  if dataStart ≥ blockCount ∨
      inode.extents.extents.any (fun e => decide (e.start < dataStart.toNat) ||
        e.endBlock.all fun last => decide (last > blockCount.toNat)) then
    .error .corrupt
  else .ok ()

def extentFields : Nat → List Extent → List (Nat × List UInt8)
  | _, [] => []
  | offset, e :: rest =>
    (offset, leBytes 8 e.start) :: (offset + 8, leBytes 4 e.count) :: extentFields (offset + 12) rest

def headFields (inode : Inode) : List (Nat × List UInt8) :=
  [(16, leBytes 8 inode.inode.toNat),
   (24, leBytes 8 inode.generation.toNat),
   (32, leBytes 4 inode.mode.toNat),
   (36, leBytes 4 inode.uid.toNat),
   (40, leBytes 4 inode.gid.toNat),
   (44, leBytes 4 inode.accessedSeconds.toNat),
   (48, leBytes 8 inode.size.toNat),
   (56, leBytes 8 inode.modifiedNs.toNat),
   (64, leBytes 8 inode.parent.toNat),
   (72, [UInt8.ofNat inode.name.length]),
   (73, [UInt8.ofNat inode.extents.extents.length]),
   (76, leBytes 4 inode.changedSeconds.toNat),
   (80, inode.name)]

def fields (inode : Inode) : List (Nat × List UInt8) :=
  inode.headFields ++ extentFields 336 inode.extents.extents

def record (inode : Inode) : Record := sealedFields 512 (magicFields inodeMagic ++ inode.fields)

def encode (inode : Inode) : Except Error Record := do
  inode.validate
  return inode.record

def extentAt (input : Record) (index : Nat) : Extent :=
  ⟨getU64 input (336 + index * 12), getU32 input (336 + index * 12 + 8)⟩

def decode (input : Record) : Except Error Inode :=
  if hasMagic inodeMagic input then
    if (byteAt input 73).toNat > maxExtents then .error .corrupt
    else do
      let extents ← ExtentMap.ofList ((List.range (byteAt input 73).toNat).map (extentAt input))
      let inode : Inode :=
        { inode := getU64 input 16
          generation := getU64 input 24
          mode := getU32 input 32
          uid := getU32 input 36
          gid := getU32 input 40
          accessedSeconds := getU32 input 44
          size := getU64 input 48
          modifiedNs := getU64 input 56
          parent := getU64 input 64
          changedSeconds := getU32 input 76
          name := slice input 80 (byteAt input 72).toNat
          short := by
            have := (byteAt input 72).toNat_lt
            rw [length_slice _ _ _ (by omega), maxPathBytes]
            omega
          extents }
      inode.validate
      return inode
  else .error .corrupt

end Inode

end MakOS.MakFS4
