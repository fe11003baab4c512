/-
Locating a partition on a disk. A disk without a protective MBR is a legacy raw disk; on any other
disk the primary GPT header is tried first and then the backup header in the last sector, and a disk
on which neither is valid has no partition.

The functions take the read of a sector as an argument. A read that fails, and every `None` of the
source, is an error here.
-/
import MakOS.Bytes.Crc32
import MakOS.Device.Guard

namespace MakOS.Gpt

open MakOS.Bytes MakOS.Device

abbrev Sector := Vector UInt8 512

def sectorBytes : Nat := 512
def entryLimit : Nat := 128
def entryBytes : Nat := 128

structure Partition where
  firstLba : Nat
  sectors : Nat
  deriving DecidableEq, Repr

inductive DiskLayout
  | legacyRaw (sectors : Nat)
  | gpt (partition : Partition)
  | invalid
  deriving DecidableEq, Repr

/-- What `findPartition` keeps of a header that passes its checks. -/
structure Header where
  firstUsable : Nat
  lastUsable : Nat
  entriesLba : Nat
  entryCount : Nat
  entriesCrc : UInt32
  deriving DecidableEq, Repr

/-- "EFI PART" -/
def signature : List UInt8 := [0x45, 0x46, 0x49, 0x20, 0x50, 0x41, 0x52, 0x54]

def arraySectors (header : Header) : Nat := (header.entryCount * entryBytes + (sectorBytes - 1)) / sectorBytes

def headerOf (sector : Sector) : Header :=
  ⟨getLe sector 40 8, getLe sector 48 8, getLe sector 72 8, getLe sector 80 4, getU32 sector 88⟩

/-- The checks `findPartition` makes of the header sector. -/
def readHeader (deviceSectors headerLba : Nat) (sector : Sector) : Except Unit Header :=
  let headerBytes := getLe sector 12 4
  let header := headerOf sector
  if slice sector 0 8 ≠ signature ∨ getLe sector 8 4 ≠ 0x00010000 then .error ()
  else if ¬ (92 ≤ headerBytes ∧ headerBytes ≤ 512) ∨ getLe sector 24 8 ≠ headerLba ∨
      deviceSectors ≤ getLe sector 32 8 then .error ()
  -- the checksum is taken with its own field zero
  else if crc32 (slice (put sector 16 [0, 0, 0, 0]) 0 headerBytes) ≠ getU32 sector 16 then .error ()
  else if header.entryCount = 0 ∨ entryLimit < header.entryCount ∨ getLe sector 84 4 ≠ entryBytes ∨
      header.lastUsable < header.firstUsable ∨ deviceSectors ≤ header.lastUsable then .error ()
  -- an addition that overflows 64 bits is a `None` too
  else if 2 ^ 64 ≤ header.entriesLba + arraySectors header ∨
      deviceSectors < header.entriesLba + arraySectors header then .error ()
  else .ok header

/-- The partition an entry of the wanted type describes. -/
def readEntry (header : Header) (entry : Vector UInt8 128) : Except Unit Partition :=
  let first := getLe entry 32 8
  let last := getLe entry 40 8
  if last < first ∨ 2 ^ 64 ≤ last - first + 1 then .error ()
  else if first < header.firstUsable ∨ header.lastUsable < last then .error ()
  else .ok ⟨first, last - first + 1⟩

section
variable (readSector : Nat → Prog Sector Unit Sector)

/-- The checksum of the entry array, sector by sector; the bytes left over are carried along. -/
def crcEntries (header : Header) : Prog Sector Unit UInt32 := do
  let (crc, _) ← Prog.foldEach (fun (crc, remaining) offset => do
    let sector ← readSector (header.entriesLba + offset)
    return (crcUpdate crc (slice sector 0 (min remaining 512)), remaining - min remaining 512))
    (List.range (arraySectors header)) ((0xffffffff : UInt32), header.entryCount * entryBytes)
  return ~~~crc

/-- The body of the loop over the entries: an entry of another type is passed over. -/
def tryEntry (header : Header) (partitionType : List UInt8) (next : Prog Sector Unit Partition)
    (entry : Vector UInt8 128) : Prog Sector Unit Partition :=
  if slice entry 0 16 ≠ partitionType then next else Prog.lift (readEntry header entry)

def scanEntries (header : Header) (partitionType : List UInt8) : List Nat → Prog Sector Unit Partition
  | [] => .throw ()
  | index :: rest => do
    let sector ← readSector (header.entriesLba + index * entryBytes / sectorBytes)
    tryEntry header partitionType (scanEntries header partitionType rest)
      (window sector (index * entryBytes % sectorBytes) 128)

def findPartition (deviceSectors headerLba : Nat) (partitionType : List UInt8) : Prog Sector Unit Partition := do
  let sector ← readSector headerLba
  let header ← Prog.lift (readHeader deviceSectors headerLba sector)
  let crc ← crcEntries readSector header
  if crc ≠ header.entriesCrc then Prog.throw ()
  else scanEntries readSector header partitionType (List.range header.entryCount)

/-- A protective MBR: the boot signature and the GPT partition type. -/
def protective (sector : Sector) : Bool := slice sector 510 2 == [0x55, 0xaa] && byteAt sector 450 == 0xee

def classify {ε : Type} (deviceSectors : Nat) (partitionType : List UInt8) : Prog Sector ε DiskLayout :=
  if deviceSectors = 0 then .pure .invalid
  else (readSector 0).attempt >>= fun
    | .error () => .pure .invalid
    | .ok sector =>
      if ¬ protective sector then .pure (.legacyRaw deviceSectors)
      else (findPartition readSector deviceSectors 1 partitionType).attempt >>= fun
        | .ok partition => .pure (.gpt partition)
        | .error () =>
          (findPartition readSector deviceSectors (deviceSectors - 1) partitionType).attempt >>= fun
            | .ok partition => .pure (.gpt partition)
            | .error () => .pure .invalid

/-! ## Reads stay on the disk -/

variable {readSector} {P : Nat → Prop}

variable {deviceSectors headerLba : Nat} {header : Header}

/-- The array of entries of a header that passes its checks lies on the disk. -/
theorem readHeader_array {sector : Sector} (h : readHeader deviceSectors headerLba sector = .ok header) :
    header.entriesLba + arraySectors header ≤ deviceSectors := by
  simp only [readHeader] at h
  split_ifs at h with _ _ _ _ harray
  cases h
  omega

theorem readsWithin_crcEntries
    (hread : ∀ offset < arraySectors header, (readSector (header.entriesLba + offset)).ReadsWithin P) :
    (crcEntries readSector header).ReadsWithin P := by
  refine Prog.ReadsWithin.bind (fun _ => ?_) (Prog.readsWithin_foldEach ?_)
  · trivial
  · rintro ⟨crc, remaining⟩ offset ho
    refine Prog.ReadsWithin.bind (fun _ => ?_) (hread offset (List.mem_range.1 ho))
    trivial

variable {partitionType : List UInt8}

theorem readsWithin_tryEntry {next : Prog Sector Unit Partition}
    (hnext : next.ReadsWithin P) (entry : Vector UInt8 128) : (tryEntry header partitionType next entry).ReadsWithin P := by
  unfold tryEntry
  split
  · exact hnext
  · exact Prog.readsWithin_lift _

theorem readsWithin_scanEntries
    (hread : ∀ offset < arraySectors header, (readSector (header.entriesLba + offset)).ReadsWithin P) :
    ∀ {indices : List Nat}, (∀ index ∈ indices, index < header.entryCount) →
      (scanEntries readSector header partitionType indices).ReadsWithin P := by
  intro indices
  induction indices with
  | nil => exact fun _ => trivial
  | cons index rest ih =>
    intro h
    have hindex := h index List.mem_cons_self
    have hoffset : index * entryBytes / sectorBytes < arraySectors header := by
      simp only [arraySectors, entryBytes, sectorBytes]
      omega
    exact Prog.ReadsWithin.bind (fun sector => readsWithin_tryEntry (ih (List.forall_mem_cons.1 h).2) _)
      (hread _ hoffset)

theorem readsWithin_findPartition
    (hread : ∀ lba < deviceSectors, (readSector lba).ReadsWithin P) (hheader : headerLba < deviceSectors) :
    (findPartition readSector deviceSectors headerLba partitionType).ReadsWithin P := by
  refine (hread _ hheader).bind fun sector => ?_
  cases hh : readHeader deviceSectors headerLba sector with
  | error => trivial
  | ok header =>
    have harray := readHeader_array hh
    have hentries : ∀ offset < arraySectors header, (readSector (header.entriesLba + offset)).ReadsWithin P :=
      fun offset ho => hread _ (by omega)
    refine (readsWithin_crcEntries hentries).bind fun crc => ?_
    split
    · trivial
    · exact readsWithin_scanEntries hentries fun index hi => List.mem_range.1 hi

/-- On a disk with at least two sectors the search reads only sectors of the disk, whatever it reads. -/
theorem readsWithin_classify {ε : Type}
    (hread : ∀ lba < deviceSectors, (readSector lba).ReadsWithin P) (htwo : 2 ≤ deviceSectors) :
    (classify readSector deviceSectors partitionType : Prog Sector ε DiskLayout).ReadsWithin P := by
  have hfind : ∀ headerLba < deviceSectors,
      ((findPartition readSector deviceSectors headerLba partitionType).attempt : Prog Sector ε _).ReadsWithin P :=
    fun headerLba hl => (readsWithin_findPartition hread hl).attempt
  unfold classify
  rw [if_neg (by omega)]
  refine (hread 0 (by omega)).attempt.bind fun sector => ?_
  rcases sector with ⟨⟩ | sector
  · trivial
  dsimp only
  split
  · trivial
  refine (hfind 1 (by omega)).bind fun found => ?_
  rcases found with ⟨⟩ | partition
  · refine (hfind (deviceSectors - 1) (by omega)).bind fun found => ?_
    rcases found with ⟨⟩ | partition <;> trivial
  · trivial

end

end MakOS.Gpt
