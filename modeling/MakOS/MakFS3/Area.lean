/-
The dynamic file area on the disk (`fs`): reading a file, storing one, and what the boot does to the area. A store
writes the data to free blocks, marks them, writes the inode, and only then frees the blocks of the old file.
Writes succeed; a read may fail, and what its caller then does is part of the model.
-/
import MakOS.MakFS3.Codec

namespace MakOS.MakFS3

open Bytes

abbrev Disk := Nat → Sector
abbrev Write := Nat × Sector

/-- What the disk answers to some reads, each sector read once -/
abbrev Reader := Nat → Option Sector

abbrev dynamicAllocationLba : Nat := 7
abbrev legacyDynamicFileLbaBase : Nat := 7
abbrev legacyCount : Nat := 4
abbrev dynamicInodeLbaBase : Nat := 8
abbrev dynamicDataLbaBase : Nat := 32

namespace Disk

def write (disk : Disk) (request : Write) : Disk := fun lba => if lba = request.1 then request.2 else disk lba

def writeAll (disk : Disk) (requests : List Write) : Disk := requests.foldl write disk

def reader (disk : Disk) : Reader := fun lba => some (disk lba)

end Disk

/-- The writes of a call in their order, and how it ends -/
structure Outcome (α : Type) where
  writes : List Write
  result : Except Fatal α

/-- The answers to the reads of the parts of a call, given the disk at that point -/
abbrev Answers := Nat → Disk → Reader

/-- No read fails. -/
def faithful : Answers := fun _ disk => disk.reader

/-! ## Reading -/

def readAllocationBitmap (read : Reader) : Option Bitmap := (read dynamicAllocationLba).bind decodeBitmap

def readDynamicInode (read : Reader) (slot : Nat) : Except Fatal (Option DynamicInode) :=
  match read (dynamicInodeLbaBase + slot) with
  | none => .ok none
  | some record => decodeInode slot record

def readLegacyDynamicFile (read : Reader) (slot : Nat) : Except Fatal (Option File) :=
  match read (legacyDynamicFileLbaBase + slot) with
  | none => .ok none
  | some record => decodeLegacy slot record

/-- The loop of `read_dynamic_file` over the blocks -/
def readBlocks (read : Reader) (length : Nat) : List Nat → List UInt8 → Except Fatal (List UInt8)
  | [], data => .ok data
  | block :: blocks, data => match read (dynamicDataLbaBase + block) with
    | none => .error .dataRead
    | some sector => readBlocks read length blocks (data ++ sector.toList.take (length - data.length))

def readInodeFile (read : Reader) (inode : DynamicInode) : Except Fatal (Option File) :=
  if !inode.active then .ok none
  else match readBlocks read inode.dataLength inode.blocks [] with
    | .error fatal => .error fatal
    | .ok data =>
      if data.length ≠ inode.dataLength || crc32 data ≠ inode.dataCrc then .error .dataChecksum
      else .ok (some ⟨inode.kind, inode.name, data⟩)

def readDynamicFile (read : Reader) (slot : Nat) : Except Fatal (Option File) :=
  match readDynamicInode read slot with
  | .error fatal => .error fatal
  | .ok none => .ok none
  | .ok (some inode) => readInodeFile read inode

/-! ## Storing -/

def bitmapWrite (bitmap : Bitmap) : Write := (dynamicAllocationLba, encodeBitmap bitmap)

/-- `set_allocation_bit` with `true`, for each block -/
def markAll (bitmap : Bitmap) (blocks : List Nat) : Bitmap :=
  blocks.foldl (fun bitmap block => bitmap ||| BitVec.twoPow _ block) bitmap

/-- `set_allocation_bit` with `false`, for each block -/
def clearAll (bitmap : Bitmap) (blocks : List Nat) : Bitmap :=
  blocks.foldl (fun bitmap block => bitmap &&& ~~~BitVec.twoPow _ block) bitmap

/-- The first free blocks, at most as many as required -/
def freeBlocks (bitmap : Bitmap) (required : Nat) : List Nat :=
  ((List.range dynamicDataBlockCount).filter fun block => !bitmap.getLsbD block).take required

def dataWrites : List Nat → List UInt8 → List Write
  | [], _ => []
  | block :: blocks, bytes =>
    (dynamicDataLbaBase + block, put (zeros 512) 0 (bytes.take 512)) :: dataWrites blocks (bytes.drop 512)

/-- The inode of a node; without data it is not active. -/
def nodeInode (name : List UInt8) (kind : Kind) (data : Option (List UInt8)) (blocks : List Nat) : DynamicInode :=
  ⟨data.isSome, kind, name, (data.getD []).length, crc32 (data.getD []), blocks⟩

def storeDynamicNodeOnDisk (read : Reader) (slot : Nat) (name : List UInt8) (kind : Kind) (data : Option (List UInt8)) :
    Outcome Bool :=
  match readAllocationBitmap read with
  | none => ⟨[], .ok false⟩
  | some bitmap => match readDynamicInode read slot with
    | .error fatal => ⟨[], .error fatal⟩
    | .ok old =>
      let bytes := data.getD []
      let required := (bytes.length + 511) / 512
      let blocks := freeBlocks bitmap required
      if blocks.length ≠ required then ⟨[], .ok false⟩
      else
        let marked := markAll bitmap blocks
        let cleared := if (old.getD .empty).active then clearAll marked (old.getD .empty).blocks else marked
        ⟨dataWrites blocks bytes ++ [bitmapWrite marked,
          (dynamicInodeLbaBase + slot, encodeInode slot (nodeInode name kind data blocks)), bitmapWrite cleared], .ok true⟩

/-! ## The area as a whole -/

/-- What a read finds in each of some slots -/
def readEach {α : Type} (read : Nat → Except Fatal α) : List Nat → Except Fatal (List (α × Nat))
  | [] => .ok []
  | slot :: slots => match read slot with
    | .error fatal => .error fatal
    | .ok value => match readEach read slots with
      | .error fatal => .error fatal
      | .ok others => .ok ((value, slot) :: others)

/-- The files of the older format are stored one after the other. -/
def migrate (ask : Answers) : List (Option File × Nat) → Disk → Outcome Unit
  | [], _ => ⟨[], .ok ()⟩
  | (none, _) :: rest, disk => migrate ask rest disk
  | (some file, slot) :: rest, disk =>
    let stored := storeDynamicNodeOnDisk (ask (3 + slot) disk) slot file.name .file (some file.data)
    match stored.result with
    | .error fatal => ⟨stored.writes, .error fatal⟩
    | .ok false => ⟨stored.writes, .error .migration⟩
    | .ok true =>
      let others := migrate ask rest (disk.writeAll stored.writes)
      ⟨stored.writes ++ others.writes, others.result⟩

/-- `ensure_dynamic_area`: a bitmap that cannot be read is taken to be lost. -/
def ensureDynamicArea (ask : Answers) (disk : Disk) : Outcome Unit :=
  if (readAllocationBitmap (ask 0 disk)).isSome then ⟨[], .ok ()⟩
  else match readEach (readDynamicInode (ask 1 disk)) (List.range dynamicFileCount) with
    | .error fatal => ⟨[], .error fatal⟩
    | .ok inodes =>
      if inodes.any fun inode => inode.1.isSome then ⟨[bitmapWrite 0], .ok ()⟩
      else match readEach (readLegacyDynamicFile (ask 2 disk)) (List.range legacyCount) with
        | .error fatal => ⟨[], .error fatal⟩
        | .ok legacy =>
          let migrated := migrate ask legacy (disk.write (bitmapWrite 0))
          ⟨bitmapWrite 0 :: migrated.writes, migrated.result⟩

/-- The blocks of one inode, in `reconcile_dynamic_allocation` -/
def claimBlocks : List Nat → Bitmap → Except Fatal Bitmap
  | [], bitmap => .ok bitmap
  | block :: blocks, bitmap =>
    if bitmap.getLsbD block then .error .duplicateBlock else claimBlocks blocks (bitmap ||| BitVec.twoPow _ block)

def claimSlots (read : Reader) : List Nat → Bitmap → Except Fatal Bitmap
  | [], bitmap => .ok bitmap
  | slot :: slots, bitmap => match readDynamicInode read slot with
    | .error fatal => .error fatal
    | .ok inode => match claimBlocks (inode.elim [] fun inode => if inode.active then inode.blocks else []) bitmap with
      | .error fatal => .error fatal
      | .ok bitmap => claimSlots read slots bitmap

def reconcileDynamicAllocation (read : Reader) : Outcome Unit :=
  match claimSlots read (List.range dynamicFileCount) 0 with
  | .error fatal => ⟨[], .error fatal⟩
  | .ok bitmap => ⟨[bitmapWrite bitmap], .ok ()⟩

/-- What `mount_and_test` does to the area -/
def boot (ask : Answers) (disk : Disk) : Outcome Unit :=
  let ensured := ensureDynamicArea ask disk
  match ensured.result with
  | .error fatal => ⟨ensured.writes, .error fatal⟩
  | .ok () =>
    let reconciled := reconcileDynamicAllocation (ask 7 (disk.writeAll ensured.writes))
    ⟨ensured.writes ++ reconciled.writes, reconciled.result⟩

/-- The arguments that `store_dynamic_node` takes -/
def accepts (slot : Nat) (name : List UInt8) (kind : Kind) (data : Option (List UInt8)) : Bool :=
  slot < dynamicFileCount && name ≠ [] && name.length ≤ dynamicNameBytes &&
    !(kind = .directory && data.any fun bytes => !bytes.isEmpty) && !(data.any fun bytes => bytes.length > maxFileBytes)

def storeDynamicNode (ask : Answers) (disk : Disk) (slot : Nat) (name : List UInt8) (kind : Kind)
    (data : Option (List UInt8)) : Outcome Bool :=
  if !accepts slot name kind data then ⟨[], .ok false⟩
  else
    let ensured := ensureDynamicArea ask disk
    match ensured.result with
    | .error fatal => ⟨ensured.writes, .error fatal⟩
    | .ok () =>
      let stored := storeDynamicNodeOnDisk (ask 7 (disk.writeAll ensured.writes)) slot name kind data
      ⟨ensured.writes ++ stored.writes, stored.result⟩

end MakOS.MakFS3
