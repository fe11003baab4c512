/-
The package store (`crates/package-store`): two slots of sectors, each a header, a catalog and the
payloads of one complete snapshot. An update writes the slot that is not active and then its header.
Every function of `Store` is a program over the sector device.
-/
import MakOS.PackageStore.Dependency
import MakOS.Device.Eval

namespace MakOS.PackageStore

open MakOS.Bytes MakOS.Device

def payloadStartSector : Nat := 1 + catalogSectors

/-- An opened store: the geometry `Store::open` accepts. -/
structure Store where
  sectorCount : Nat
  baseSector : Nat
  slotSectors : Nat
  large : payloadStartSector < slotSectors
  fits : baseSector + 2 * slotSectors ≤ sectorCount
  addressable : sectorCount < 2 ^ 64

/-- `Store::open`; its checked arithmetic fails only past `sector_count`. -/
def Store.open (sectorCount baseSector slotSectors : UInt64) : Except Error Store :=
  if h : payloadStartSector < slotSectors.toNat ∧ baseSector.toNat + 2 * slotSectors.toNat ≤ sectorCount.toNat then
    .ok ⟨sectorCount.toNat, baseSector.toNat, slotSectors.toNat, h.1, h.2, sectorCount.toNat_lt⟩
  else .error .invalidGeometry

instance slotsNeZero : NeZero 2 := ⟨two_ne_zero⟩

structure Snapshot where
  slot : Fin 2
  generation : Nat
  entries : List Entry
  deriving DecidableEq, Repr

def Snapshot.empty : Snapshot := ⟨1, 0, []⟩

def otherSlot (slot : Fin 2) : Fin 2 := 1 - slot

def nextGeneration (generation : Nat) : Except Error Nat :=
  if generation + 1 < 2 ^ 64 then .ok (generation + 1) else .error .noSpace

/-- `align_sector`, with its overflow as the error its callers make of it. -/
def alignSector (value : Nat) : Except Error Nat :=
  if value + (sectorBytes - 1) < 2 ^ 64 then .ok ((value + (sectorBytes - 1)) / sectorBytes * sectorBytes)
  else .error .noSpace

/-- A sector that starts with the given bytes and is zero after them. -/
def toSector (bytes : List UInt8) : Sector := put (zeros 512) 0 bytes

/-- The pieces of a payload that go to one sector each. -/
def pieces : List UInt8 → List (List UInt8)
  | [] => []
  | byte :: rest => (byte :: rest).take sectorBytes :: pieces ((byte :: rest).drop sectorBytes)
termination_by payload => payload.length
decreasing_by simp only [List.length_drop, List.length_cons, sectorBytes]; omega

abbrev M := Prog Sector Error

namespace Store

variable (store : Store)

def slotBase (slot : Fin 2) : Nat := store.baseSector + slot.val * store.slotSectors

def capacity : Nat := (store.slotSectors - payloadStartSector) * sectorBytes

/-- `payload_sector`; inside the slot its last addition cannot overflow. -/
def payloadSector (slot : Fin 2) (byteOffset : Nat) : Except Error Nat :=
  if byteOffset % sectorBytes ≠ 0 then .error .corrupt
  else if payloadStartSector + byteOffset / sectorBytes ≥ store.slotSectors then .error .noSpace
  else .ok (store.slotBase slot + (payloadStartSector + byteOffset / sectorBytes))

def read (sector : Nat) : M Sector := Prog.readOne .io sector

def write (sector : Nat) (input : Sector) : M Unit := Prog.writeOne .io sector input

def flush : M Unit := Prog.sync .io

/-! ## Payload loops -/

/-- The `while` loop over the sectors of a payload: `f` sees the `remaining` bytes from `offset` on,
sector by sector. -/
def eachSector {σ : Type} (slot : Fin 2) (f : σ → List UInt8 → M σ) (remaining offset : Nat) (s : σ) : M σ :=
  if remaining = 0 then .pure s
  else do
    let sector ← Prog.lift (store.payloadSector slot offset)
    let bytes ← read sector
    let count := min remaining sectorBytes
    let s ← f s (slice bytes 0 count)
    eachSector slot f (remaining - count) (offset + count) s
termination_by remaining
decreasing_by simp only [sectorBytes]; omega

def validatePayload (slot : Fin 2) (entry : Entry) : M Unit :=
  -- the multiplication is not checked here
  if entry.payloadOffset + entry.payloadLength > store.capacity % 2 ^ 64 then .throw .corrupt
  else do
    let crc ← store.eachSector slot (fun crc bytes => .pure (crcUpdate crc bytes)) entry.payloadLength
      entry.payloadOffset crcNew
    if crcFinish crc ≠ entry.payloadCrc then .throw .corrupt else .pure ()

def readPayloadBytes (slot : Fin 2) (entry : Entry) : M (List UInt8) :=
  store.eachSector slot (fun output bytes => .pure (output ++ bytes)) entry.payloadLength entry.payloadOffset []

/-- The loop of `read_payload_at`, from any byte of the payload area. -/
def readPayloadFrom (slot : Fin 2) (remaining absolute : Nat) : M (List UInt8) :=
  if remaining = 0 then .pure []
  else if absolute ≥ 2 ^ 64 then .throw .corrupt
  else do
    let sector ← Prog.lift (store.payloadSector slot (absolute / sectorBytes * sectorBytes))
    let bytes ← read sector
    let count := min remaining (sectorBytes - absolute % sectorBytes)
    let rest ← readPayloadFrom slot (remaining - count) (absolute + count)
    return slice bytes (absolute % sectorBytes) count ++ rest
termination_by remaining
decreasing_by simp only [sectorBytes]; omega

/-- Write the bytes of one payload sector; the result is where the next ones go. -/
def writePiece (slot : Fin 2) (target : Nat) (bytes : List UInt8) : M Nat := do
  let sector ← Prog.lift (store.payloadSector slot target)
  write sector (toSector bytes)
  return target + bytes.length

def writeNewPayload (slot : Fin 2) (offset : Nat) (payload : List UInt8) : M UInt32 := do
  let _ ← Prog.foldEach (store.writePiece slot) (pieces payload) offset
  return crc32 payload

/-- One round of the loop of `copy_payload`, with where the next bytes go and the running checksum. -/
def copyPiece (slot : Fin 2) (progress : Nat × UInt32) (bytes : List UInt8) : M (Nat × UInt32) := do
  let target ← store.writePiece slot progress.1 bytes
  return (target, crcUpdate progress.2 bytes)

def copyPayload (sourceSlot : Fin 2) (source : Entry) (targetSlot : Fin 2) (targetOffset : Nat) : M UInt32 := do
  let copied ← store.eachSector sourceSlot (store.copyPiece targetSlot) source.payloadLength source.payloadOffset
    (targetOffset, crcNew)
  if crcFinish copied.2 ≠ source.payloadCrc then .throw .corrupt else .pure (crcFinish copied.2)

/-! ## Snapshots -/

def readCatalog (slot : Fin 2) : M Catalog := do
  let first ← read (store.slotBase slot + 1 + 0)
  let second ← read (store.slotBase slot + 1 + 1)
  let third ← read (store.slotBase slot + 1 + 2)
  let fourth ← read (store.slotBase slot + 1 + 3)
  return #v[first, second, third, fourth]

/-- The part of `read_snapshot` after the header. -/
def readEntries (slot : Fin 2) (header : Header) : M Snapshot := do
  let catalog ← store.readCatalog slot
  if crc32Sectors catalog ≠ header.catalogCrc then .throw .corrupt
  else do
    let entries ← Prog.lift (decodeEntries catalog header.count 0)
    Prog.lift ((validateDependencies entries).mapError fun _ => .corrupt)
    Prog.forEach (store.validatePayload slot) entries
    return ⟨slot, header.generation, entries⟩

def readSnapshot (slot : Fin 2) : M Snapshot := do
  let sector ← read (store.slotBase slot)
  if isBlank sector then .throw .notInstalled
  else do
    let header ← Prog.lift (decodeHeader sector)
    if header.state = headerPreparing then .throw .notInstalled
    else if header.state ≠ headerCommitted then .throw .corrupt
    else store.readEntries slot header

/-- `matches!(result, Err(Error::Io))` -/
def isIo {α : Type} : Except Error α → Bool
  | .error .io => true
  | _ => false

/-- Both slots; the callers never go on from a slot that could not be read. -/
def readSlots {α : Type} (k : Except Error Snapshot → Except Error Snapshot → M α) : M α := do
  let first ← (store.readSnapshot 0).attempt
  let second ← (store.readSnapshot 1).attempt
  if isIo first || isIo second then .throw .io else k first second

/-- The choice `recover` makes between the slots. -/
def chooseActive : Except Error Snapshot → Except Error Snapshot → Except Error Snapshot
  | .ok a, .ok b => .ok (if a.generation ≥ b.generation then a else b)
  | .ok a, .error _ => .ok a
  | .error _, .ok b => .ok b
  | .error .notInstalled, .error .notInstalled => .ok Snapshot.empty
  | .error _, .error _ => .error .corrupt

def recover : M Snapshot := store.readSlots fun first second => Prog.lift (chooseActive first second)

/-! ## Commit -/

/-- Put the payload of an entry at the cursor: the one given for it, or a copy from the active slot. -/
def placePayload (active : Snapshot) (slot : Fin 2) (replacement : Option (List UInt8 × List UInt8)) (entry : Entry)
    (cursor : Nat) : M UInt32 :=
  match replacement.filter fun r => r.1 == entry.name with
  | some (_, payload) => store.writeNewPayload slot cursor payload
  | none =>
    match findEntry active.entries entry.name with
    | some old => store.copyPayload active.slot old slot cursor
    | none => .throw .corrupt

/-- The loop of `commit` over the entries. -/
def placePayloads (active : Snapshot) (slot : Fin 2) (replacement : Option (List UInt8 × List UInt8)) :
    (entries : List Entry) → (cursor : Nat) → M (List Entry)
  | [], _ => .pure []
  | entry :: rest, cursor => do
    let cursor ← Prog.lift (alignSector cursor)
    if cursor + entry.payloadLength > store.capacity then .throw .noSpace
    else do
      let crc ← store.placePayload active slot replacement entry cursor
      let placed ← placePayloads active slot replacement rest (cursor + entry.payloadLength)
      return { entry with payloadOffset := cursor, payloadCrc := crc } :: placed

def writeCatalog (slot : Fin 2) (catalog : Catalog) : M Unit :=
  Prog.forEach (fun index => write (store.slotBase slot + 1 + index) (catalog[index]?.getD (zeros 512)))
    (List.range catalogSectors)

/-- The start of `commit`: the slot is marked before anything in it changes. -/
def beginCommit (slot : Fin 2) (generation count : Nat) : M Unit := do
  write (store.slotBase slot) (encodeHeader ⟨generation, count, 0, headerPreparing⟩)
  flush

/-- The end of `commit`: the header is committed once everything else has been flushed. -/
def finishCommit (slot : Fin 2) (generation count : Nat) (entries : List Entry) : M Unit := do
  store.writeCatalog slot (encodeCatalog entries)
  flush
  write (store.slotBase slot)
    (encodeHeader ⟨generation, count, crc32Sectors (encodeCatalog entries), headerCommitted⟩)
  flush

def commit (active next : Snapshot) (replacement : Option (List UInt8 × List UInt8)) : M Unit :=
  if store.capacity ≥ 2 ^ 64 then .throw .noSpace
  else do
    store.beginCommit next.slot next.generation next.entries.length
    let entries ← store.placePayloads active next.slot replacement next.entries 0
    store.finishCommit next.slot next.generation next.entries.length entries

/-! ## The public operations -/

def install (manifest : Manifest) (payload : List UInt8) : M Nat := do
  Prog.lift (validateManifest manifest)
  if payload.isEmpty then .throw .noSpace
  else do
    let active ← store.recover
    if (findEntry active.entries manifest.name).isSome then .throw .alreadyInstalled
    else if active.entries.length = maxPackages then .throw .noSpace
    else do
      let generation ← Prog.lift (nextGeneration active.generation)
      let entries := active.entries ++ [entryFromManifest manifest payload.length]
      Prog.lift (validateDependencies entries)
      store.commit active ⟨otherSlot active.slot, generation, entries⟩ (some (manifest.name, payload))
      return generation

def replace (manifest : Manifest) (payload : List UInt8) : M Nat := do
  Prog.lift (validateManifest manifest)
  if payload.isEmpty then .throw .noSpace
  else do
    let active ← store.recover
    match findEntryIndex active.entries manifest.name with
    | none => .throw .notInstalled
    | some index => do
      let generation ← Prog.lift (nextGeneration active.generation)
      let entries := active.entries.set index (entryFromManifest manifest payload.length)
      Prog.lift (validateDependencies entries)
      store.commit active ⟨otherSlot active.slot, generation, entries⟩ (some (manifest.name, payload))
      return generation

/-- A requirement that a removal would leave unmet keeps the package. -/
def dependedOn : Error → Error
  | .dependencyMissing => .dependedOn
  | error => error

def remove (name : List UInt8) : M Nat := do
  Prog.lift (validateName name)
  let active ← store.recover
  match findEntryIndex active.entries name with
  | none => .throw .notInstalled
  | some index => do
    let generation ← Prog.lift (nextGeneration active.generation)
    let entries := active.entries.eraseIdx index
    Prog.lift ((validateDependencies entries).mapError dependedOn)
    store.commit active ⟨otherSlot active.slot, generation, entries⟩ none
    return generation

/-- The choice `rollback` makes: the current and the previous snapshot. -/
def chooseBoth : Except Error Snapshot → Except Error Snapshot → Except Error (Snapshot × Snapshot)
  | .ok a, .ok b => .ok (if a.generation ≥ b.generation then (a, b) else (b, a))
  | _, _ => .error .notInstalled

/-- The part of `rollback` after its choice: the header of the previous snapshot gets the next generation. -/
def rollbackTo (both : Snapshot × Snapshot) : M Nat := do
  let generation ← Prog.lift (nextGeneration both.1.generation)
  let sector ← read (store.slotBase both.2.slot)
  let header ← Prog.lift (decodeHeader sector)
  write (store.slotBase both.2.slot) (encodeHeader { header with generation })
  flush
  return generation

def rollback : M Nat :=
  store.readSlots fun first second => do
    let both ← Prog.lift (chooseBoth first second)
    store.rollbackTo both

/-! ## Queries -/

structure Installed where
  generation : Nat
  version : List UInt8
  payloadLength : Nat
  deriving DecidableEq, Repr

structure StoreState where
  generation : Nat
  packageCount : Nat
  deriving DecidableEq, Repr

structure PackageInfo where
  name : List UInt8
  version : List UInt8
  payloadLength : Nat
  payloadFirstSector : Nat
  deriving DecidableEq, Repr

def installed (name : List UInt8) : M (Option Installed) := do
  Prog.lift (validateName name)
  let snapshot ← store.recover
  return (findEntry snapshot.entries name).map fun entry => ⟨snapshot.generation, entry.version, entry.payloadLength⟩

def state : M StoreState := do
  let snapshot ← store.recover
  return ⟨snapshot.generation, snapshot.entries.length⟩

def packageInfo (slot : Fin 2) (entry : Entry) : Except Error PackageInfo := do
  let sector ← store.payloadSector slot entry.payloadOffset
  return ⟨entry.name, entry.version, entry.payloadLength, sector⟩

def package (index : Nat) : M (Option PackageInfo) := do
  let snapshot ← store.recover
  match snapshot.entries[index]? with
  | none => return none
  | some entry => do
    let info ← Prog.lift (store.packageInfo snapshot.slot entry)
    return some info

/-- `packages`, with the filled part of its output. -/
def packages : M (StoreState × List PackageInfo) := do
  let snapshot ← store.recover
  let output ← Prog.lift (snapshot.entries.mapM (store.packageInfo snapshot.slot))
  return (⟨snapshot.generation, snapshot.entries.length⟩, output)

/-- `read_payload` into a buffer of `outputLength` bytes: the bytes it puts at the buffer's start. -/
def readPayload (name : List UInt8) (outputLength : Nat) : M (List UInt8) := do
  Prog.lift (validateName name)
  let snapshot ← store.recover
  match findEntry snapshot.entries name with
  | none => .throw .notInstalled
  | some entry =>
    if outputLength < entry.payloadLength then .throw .outputTooSmall
    else store.readPayloadBytes snapshot.slot entry

/-- `read_payload_at` into a buffer of `outputLength` bytes: the bytes it puts at the buffer's start. -/
def readPayloadAt (name : List UInt8) (offset outputLength : Nat) : M (List UInt8) := do
  Prog.lift (validateName name)
  let snapshot ← store.recover
  match findEntry snapshot.entries name with
  | none => .throw .notInstalled
  | some entry =>
    if offset > entry.payloadLength then .throw .outputTooSmall
    else
      let count := min outputLength (entry.payloadLength - offset)
      store.readPayloadFrom snapshot.slot count (entry.payloadOffset + offset)

end Store

end MakOS.PackageStore
