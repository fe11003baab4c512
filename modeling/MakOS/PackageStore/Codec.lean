/-
The records of the package store on the medium: slot headers, catalog entries and the four catalog
sectors (`crates/package-store`). What the store writes is read back as it was written.
-/
import MakOS.PackageStore.Manifest

namespace MakOS.PackageStore

open MakOS.Bytes

abbrev Sector := Vector UInt8 512

def formatVersion : Nat := 1
def headerPreparing : UInt32 := 1
def headerCommitted : UInt32 := 2
def entryBytes : Nat := 256
def dependencyBytes : Nat := 51

/-- The bytes of `MAKPTS01`. -/
def headerMagic : List UInt8 := [0x4d, 0x41, 0x4b, 0x50, 0x54, 0x53, 0x30, 0x31]

/-! ## Slot headers -/

structure Header where
  generation : Nat
  count : Nat
  catalogCrc : UInt32
  state : UInt32
  deriving DecidableEq, Repr

def headerFields (header : Header) : List (Nat × List UInt8) :=
  [(0, headerMagic),
   (8, leBytes 4 formatVersion),
   (12, leBytes 4 header.state.toNat),
   (16, leBytes 8 header.generation),
   (24, leBytes 4 header.count),
   (28, leBytes 4 header.catalogCrc.toNat)]

def encodeHeader (header : Header) : Sector := sealRecord (writeFields (zeros 512) (headerFields header))

def decodeHeader (sector : Sector) : Except Error Header :=
  if slice sector 0 8 ≠ headerMagic ∨ getLe sector 8 4 ≠ formatVersion ∨ sealed sector = false then .error .corrupt
  else if getLe sector 24 4 > maxPackages then .error .corrupt
  else .ok ⟨getLe sector 16 8, getLe sector 24 4, getU32 sector 28, getU32 sector 12⟩

def isBlank (sector : Sector) : Bool := sector.toList.all (· == 0)

theorem ascending_headerFields (header : Header) : Ascending (512 - 4) (headerFields header) := by
  constructor <;> simp [headerFields, headerMagic]

theorem slice_encodeHeader_magic (header : Header) : slice (encodeHeader header) 0 8 = headerMagic :=
  slice_sealedFields (ascending_headerFields header) (by simp [headerFields]) rfl

theorem decodeHeader_encodeHeader {header : Header} (hc : header.count ≤ maxPackages)
    (hg : header.generation < 2 ^ 64) : decodeHeader (encodeHeader header) = .ok header := by
  have ha := ascending_headerFields header
  have hversion : getLe (encodeHeader header) 8 4 = formatVersion :=
    getLe_sealedFields ha (by simp [headerFields]) (by decide)
  have hgeneration : getLe (encodeHeader header) 16 8 = header.generation :=
    getLe_sealedFields ha (by simp [headerFields]) (by omega)
  have hcount : getLe (encodeHeader header) 24 4 = header.count :=
    getLe_sealedFields ha (by simp [headerFields]) (by unfold maxPackages at hc; omega)
  have hcrc : getU32 (encodeHeader header) 28 = header.catalogCrc := getU32_sealedFields ha (by simp [headerFields])
  have hstate : getU32 (encodeHeader header) 12 = header.state := getU32_sealedFields ha (by simp [headerFields])
  have hsealed : sealed (encodeHeader header) = true := sealed_sealRecord _ (by omega)
  unfold decodeHeader
  rw [slice_encodeHeader_magic, hversion, hgeneration, hcount, hcrc, hstate, hsealed, if_neg (by simp),
    if_neg (by omega)]

theorem not_isBlank_encodeHeader (header : Header) : isBlank (encodeHeader header) = false := by
  have hm := slice_encodeHeader_magic header
  by_contra h
  simp only [isBlank, Bool.not_eq_false, List.all_eq_true] at h
  have h0 : (0x4d : UInt8) ∈ slice (encodeHeader header) 0 8 := by rw [hm]; decide
  exact absurd (h _ (List.mem_of_mem_drop (List.mem_of_mem_take h0))) (by decide)

/-! ## Dependency records -/

def kindByte : RequirementKind → UInt8
  | .exact => 0
  | .atLeast => 1

def decodeKind (byte : UInt8) : Except Error RequirementKind :=
  if byte = 0 then .ok .exact else if byte = 1 then .ok .atLeast else .error .corrupt

def dependencyFields (dependency : Dependency) : List (Nat × List UInt8) :=
  [(0, [UInt8.ofNat dependency.name.length]),
   (1, [kindByte dependency.kind]),
   (2, [UInt8.ofNat dependency.version.length]),
   (3, pad maxNameBytes dependency.name),
   (35, pad maxVersionBytes dependency.version)]

def encodeDependency (dependency : Dependency) : Vector UInt8 dependencyBytes :=
  writeFields (zeros dependencyBytes) (dependencyFields dependency)

/-- The body of the loop over an entry's dependency records, after those in `previous`. -/
def decodeDependency (owner : List UInt8) (previous : List Dependency) (input : Vector UInt8 dependencyBytes) :
    Except Error Dependency := do
  let nameLength := (byteAt input 0).toNat
  let kind ← decodeKind (byteAt input 1)
  let versionLength := (byteAt input 2).toNat
  if nameLength > maxNameBytes ∨ versionLength > maxVersionBytes then .error .corrupt
  else
    let dependency : Dependency :=
      ⟨(slice input 3 maxNameBytes).take nameLength, kind, (slice input 35 maxVersionBytes).take versionLength⟩
    checkDependency .corrupt owner previous dependency
    return dependency

theorem ascending_dependencyFields (dependency : Dependency) :
    Ascending dependencyBytes (dependencyFields dependency) := by
  constructor <;> simp [dependencyFields, dependencyBytes, maxNameBytes, maxVersionBytes]

theorem decodeKind_kindByte (kind : RequirementKind) : decodeKind (kindByte kind) = .ok kind := by
  cases kind <;> rfl

theorem toNat_ofNat_of_le {n bound : Nat} (h : n ≤ bound) (hb : bound < 256) : (UInt8.ofNat n).toNat = n :=
  UInt8.toNat_ofNat_of_lt' (by simp only [UInt8.size]; omega)

variable {owner : List UInt8}

theorem decodeDependency_encodeDependency {previous : List Dependency} {dependency : Dependency}
    (h : ValidDependency owner previous dependency) :
    decodeDependency owner previous (encodeDependency dependency) = .ok dependency := by
  have ha := ascending_dependencyFields dependency
  have hnl : dependency.name.length ≤ maxNameBytes := h.name.short
  have hvl : dependency.version.length ≤ maxVersionBytes := by
    obtain ⟨v, hv⟩ := h.version
    exact (parseVersion_bounds hv).2
  have hnameLength : (byteAt (encodeDependency dependency) 0).toNat = dependency.name.length := by
    rw [encodeDependency, byteAt_writeFields _ ha (by simp [dependencyFields] : (0, [UInt8.ofNat dependency.name.length]) ∈ _)]
    exact toNat_ofNat_of_le hnl (by decide)
  have hkind : byteAt (encodeDependency dependency) 1 = kindByte dependency.kind :=
    byteAt_writeFields _ ha (by simp [dependencyFields])
  have hversionLength : (byteAt (encodeDependency dependency) 2).toNat = dependency.version.length := by
    rw [encodeDependency, byteAt_writeFields _ ha (by simp [dependencyFields] : (2, [UInt8.ofNat dependency.version.length]) ∈ _)]
    exact toNat_ofNat_of_le hvl (by decide)
  have hname : slice (encodeDependency dependency) 3 maxNameBytes = pad maxNameBytes dependency.name :=
    slice_writeFields _ ha (by simp [dependencyFields]) (length_pad ..)
  have hversion : slice (encodeDependency dependency) 35 maxVersionBytes = pad maxVersionBytes dependency.version :=
    slice_writeFields _ ha (by simp [dependencyFields]) (length_pad ..)
  unfold decodeDependency
  rw [hnameLength, hkind, hversionLength, hname, hversion, decodeKind_kindByte]
  simp only [bind, Except.bind]
  rw [take_pad hnl, take_pad hvl]
  rw [if_neg (by omega), checkDependency_ok.2 h]
  rfl

/-! ## Catalog entries -/

/-- A catalog entry (`Entry`); the dependency array and its count are a list. -/
structure Entry where
  used : Bool
  name : List UInt8
  version : List UInt8
  dependencies : List Dependency
  payloadOffset : Nat
  payloadLength : Nat
  payloadCrc : UInt32
  deriving DecidableEq, Repr

def entryFromManifest (manifest : Manifest) (payloadLength : Nat) : Entry :=
  ⟨true, manifest.name, manifest.version, manifest.dependencies, 0, payloadLength, 0⟩

/-- The dependency records; those past the last one stay zero. -/
def dependencyRecords (dependencies : List Dependency) : List (Nat × List UInt8) :=
  dependencies.mapIdx fun index dependency => (72 + index * dependencyBytes, (encodeDependency dependency).toList)

def entryHead (entry : Entry) : List (Nat × List UInt8) :=
  [(0, [if entry.used then 1 else 0]),
   (1, [UInt8.ofNat entry.name.length]),
   (2, [UInt8.ofNat entry.version.length]),
   (3, [UInt8.ofNat entry.dependencies.length]),
   (4, leBytes 8 entry.payloadOffset),
   (12, leBytes 8 entry.payloadLength),
   (20, leBytes 4 entry.payloadCrc.toNat),
   (24, pad maxNameBytes entry.name),
   (56, pad maxVersionBytes entry.version)]

def entryFields (entry : Entry) : List (Nat × List UInt8) := entryHead entry ++ dependencyRecords entry.dependencies

def encodeEntry (entry : Entry) : Vector UInt8 entryBytes :=
  sealRecord (writeFields (zeros entryBytes) (entryFields entry))

/-- The loop over the dependency records; `previous` holds those already decoded. -/
def decodeEntryDependencies (owner : List UInt8) (input : Vector UInt8 entryBytes) :
    (count : Nat) → (previous : List Dependency) → Except Error (List Dependency)
  | 0, previous => .ok previous
  | count + 1, previous => do
    let dependency ← decodeDependency owner previous
      (window input (72 + previous.length * dependencyBytes) dependencyBytes)
    decodeEntryDependencies owner input count (previous ++ [dependency])

def decodeEntry (input : Vector UInt8 entryBytes) : Except Error Entry :=
  if sealed input = false ∨ byteAt input 0 ≠ 1 then .error .corrupt
  else
    let nameLength := (byteAt input 1).toNat
    let versionLength := (byteAt input 2).toNat
    let dependencyCount := (byteAt input 3).toNat
    if nameLength = 0 ∨ nameLength > maxNameBytes ∨ versionLength = 0 ∨ versionLength > maxVersionBytes ∨
        dependencyCount > maxDependencies then .error .corrupt
    else do
      let name := (slice input 24 maxNameBytes).take nameLength
      let version := (slice input 56 maxVersionBytes).take versionLength
      let payloadOffset := getLe input 4 8
      let payloadLength := getLe input 12 8
      (validateName name).mapError fun _ => .corrupt
      let _ ← (parseVersion version).mapError fun _ => Error.corrupt
      if payloadLength = 0 ∨ payloadOffset % sectorBytes ≠ 0 then .error .corrupt
      else
        let dependencies ← decodeEntryDependencies name input dependencyCount []
        return ⟨true, name, version, dependencies, payloadOffset, payloadLength, getU32 input 20⟩

/-- The entries the store writes: those of a valid manifest with a placed payload. -/
structure ValidEntry (entry : Entry) : Prop where
  used : entry.used = true
  manifest : ValidManifest ⟨entry.name, entry.version, entry.dependencies⟩
  length : entry.payloadLength ≠ 0
  aligned : entry.payloadOffset % sectorBytes = 0
  offset_lt : entry.payloadOffset < 2 ^ 64
  length_lt : entry.payloadLength < 2 ^ 64

theorem length_encodeDependency (dependency : Dependency) :
    (encodeDependency dependency).toList.length = dependencyBytes := Vector.length_toList ..

variable {entry : Entry}

theorem ascending_entryFields (h : entry.dependencies.length ≤ maxDependencies) :
    Ascending (entryBytes - 4) (entryFields entry) := by
  unfold maxDependencies at h
  have hhead : ∀ f ∈ entryHead entry, f.1 + f.2.length ≤ 72 := by
    simp [entryHead, maxNameBytes, maxVersionBytes]
  have hrecords : ∀ f ∈ dependencyRecords entry.dependencies, 72 ≤ f.1 ∧ f.1 + f.2.length ≤ entryBytes - 4 := by
    intro f hf
    simp only [dependencyRecords, List.mem_mapIdx] at hf
    obtain ⟨i, hi, rfl⟩ := hf
    rw [length_encodeDependency]
    simp only [dependencyBytes, entryBytes]
    omega
  constructor
  · refine List.pairwise_append.2 ⟨?_, ?_, fun f hf g hg => le_trans (hhead f hf) (hrecords g hg).1⟩
    · simp [entryHead, maxNameBytes]
    refine List.pairwise_iff_getElem.2 fun i j hi hj hij => ?_
    simp only [dependencyRecords, List.getElem_mapIdx]
    rw [length_encodeDependency]
    simp only [dependencyBytes]
    omega
  · intro f hf
    rcases List.mem_append.1 hf with hf | hf
    · exact le_trans (hhead f hf) (by decide)
    · exact (hrecords f hf).2

/-- The records the loop has still to read hold the dependencies that follow. -/
theorem decodeEntryDependencies_window {input : Vector UInt8 entryBytes} :
    ∀ {rest previous : List Dependency}, ValidDependencies owner previous rest → (∀ i (hi : i < rest.length),
        window input (72 + (previous.length + i) * dependencyBytes) dependencyBytes = encodeDependency rest[i]) →
      decodeEntryDependencies owner input rest.length previous = .ok (previous ++ rest)
  | [], previous, _, _ => by simp [decodeEntryDependencies]
  | dependency :: rest, previous, hv, hw => by
    have h0 := hw 0 (by simp)
    simp only [Nat.add_zero, List.getElem_cons_zero] at h0
    have hrest : ∀ i (hi : i < rest.length), window input
        (72 + ((previous ++ [dependency]).length + i) * dependencyBytes) dependencyBytes = encodeDependency rest[i] := by
      intro i hi
      have := hw (i + 1) (by simpa using hi)
      rw [List.getElem_cons_succ] at this
      rw [← this, List.length_append, List.length_singleton]
      congr 3
      omega
    simp only [List.length_cons, decodeEntryDependencies]
    rw [h0, decodeDependency_encodeDependency hv.1]
    simp only [bind, Except.bind]
    rw [decodeEntryDependencies_window hv.2 hrest]
    simp

section EntryFields

variable {entry : Entry} (h : entry.dependencies.length ≤ maxDependencies)
include h

variable {offset : Nat}

theorem byteAt_encodeEntry {byte : UInt8} (i : Nat) (hm : (entryHead entry)[i]? = some (offset, [byte])) :
    byteAt (encodeEntry entry) offset = byte :=
  byteAt_sealedFields (ascending_entryFields h) (List.mem_append_left _ (List.mem_of_getElem? hm))

theorem slice_encodeEntry {length : Nat} {bytes : List UInt8} (i : Nat) (hm : (entryHead entry)[i]? = some (offset, bytes))
    (hl : bytes.length = length) : slice (encodeEntry entry) offset length = bytes :=
  slice_sealedFields (ascending_entryFields h) (List.mem_append_left _ (List.mem_of_getElem? hm)) hl

theorem getLe_encodeEntry {width value : Nat} (i : Nat) (hm : (entryHead entry)[i]? = some (offset, leBytes width value))
    (hv : value < 256 ^ width) : getLe (encodeEntry entry) offset width = value :=
  getLe_sealedFields (ascending_entryFields h) (List.mem_append_left _ (List.mem_of_getElem? hm)) hv

theorem window_encodeEntry {i : Nat} (hi : i < entry.dependencies.length) :
    window (encodeEntry entry) (72 + i * dependencyBytes) dependencyBytes =
      encodeDependency entry.dependencies[i] := by
  refine window_sealedFields (ascending_entryFields h) (List.mem_append_right _ ?_)
  rw [dependencyRecords, List.mem_mapIdx]
  exact ⟨i, hi, rfl⟩

end EntryFields

theorem decodeEntry_encodeEntry (h : ValidEntry entry) : decodeEntry (encodeEntry entry) = .ok entry := by
  have hd : entry.dependencies.length ≤ maxDependencies := h.manifest.few
  have hnl : entry.name.length ≤ maxNameBytes := h.manifest.name.short
  have hn0 : entry.name.length ≠ 0 := fun h0 => h.manifest.name.nonempty (List.length_eq_zero_iff.1 h0)
  obtain ⟨v, hv⟩ := h.manifest.version
  have hvl : entry.version.length ≤ maxVersionBytes := (parseVersion_bounds hv).2
  have hv0 : entry.version.length ≠ 0 := fun h0 => (parseVersion_bounds hv).1 (List.length_eq_zero_iff.1 h0)
  have hcrc : getU32 (encodeEntry entry) 20 = entry.payloadCrc := by
    rw [getU32, getLe_encodeEntry hd 6 rfl (by have := entry.payloadCrc.toNat_lt; omega), UInt32.ofNat_toNat]
  have hdeps : decodeEntryDependencies entry.name (encodeEntry entry) entry.dependencies.length [] =
      .ok entry.dependencies := by
    refine decodeEntryDependencies_window h.manifest.dependencies fun i hi => ?_
    rw [List.length_nil, Nat.zero_add, window_encodeEntry hd hi]
  have hsealed : sealed (encodeEntry entry) = true := sealed_sealRecord _ (by decide)
  unfold decodeEntry
  simp only [byteAt_encodeEntry hd 0 rfl, byteAt_encodeEntry hd 1 rfl, byteAt_encodeEntry hd 2 rfl, byteAt_encodeEntry hd 3 rfl,
    toNat_ofNat_of_le hnl (by decide), toNat_ofNat_of_le hvl (by decide), toNat_ofNat_of_le hd (by decide),
    slice_encodeEntry hd 7 rfl (length_pad ..), slice_encodeEntry hd 8 rfl (length_pad ..), take_pad hnl, take_pad hvl,
    getLe_encodeEntry hd 4 rfl h.offset_lt, getLe_encodeEntry hd 5 rfl h.length_lt, hcrc, hsealed, h.used, if_true]
  rw [if_neg (by decide), if_neg (by omega), validateName_ok.2 h.manifest.name]
  simp only [bind, Except.bind, Except.mapError]
  rw [if_neg (by have := h.length; have := h.aligned; omega)]
  have := h.used
  cases entry
  simp_all [pure, Except.pure]

/-! ## The catalog -/

abbrev Catalog := Vector Sector catalogSectors

/-- The entries written to one catalog sector, at the places `catalog_entry_mut` gives them. -/
def catalogFields (entries : List Entry) (sector : Nat) : List (Nat × List UInt8) :=
  (List.range entries.length).filterMap fun index =>
    if index * entryBytes / sectorBytes = sector then
      entries[index]?.map fun entry => (index * entryBytes % sectorBytes, (encodeEntry entry).toList)
    else none

def encodeCatalog (entries : List Entry) : Catalog :=
  Vector.ofFn fun sector => writeFields (zeros 512) (catalogFields entries sector.val)

def catalogEntry (catalog : Catalog) (index : Nat) : Vector UInt8 entryBytes :=
  window (catalog[index * entryBytes / sectorBytes]?.getD (zeros 512)) (index * entryBytes % sectorBytes) entryBytes

def crc32Sectors (sectors : Catalog) : UInt32 :=
  crcFinish (sectors.toList.foldl (fun crc sector => crcUpdate crc sector.toList) crcNew)

def decodeEntries (catalog : Catalog) : (count index : Nat) → Except Error (List Entry)
  | 0, _ => .ok []
  | count + 1, index => do
    let entry ← decodeEntry (catalogEntry catalog index)
    let rest ← decodeEntries catalog count (index + 1)
    return entry :: rest

theorem length_encodeEntry (entry : Entry) : (encodeEntry entry).toList.length = entryBytes := Vector.length_toList ..

variable {entries : List Entry}

theorem mem_catalogFields {sector : Nat} {f : Nat × List UInt8} :
    f ∈ catalogFields entries sector ↔ ∃ index, ∃ h : index < entries.length,
      index * entryBytes / sectorBytes = sector ∧
        f = (index * entryBytes % sectorBytes, (encodeEntry entries[index]).toList) := by
  simp only [catalogFields, List.mem_filterMap, List.mem_range]
  constructor
  · rintro ⟨index, hi, hf⟩
    split at hf
    · rename_i hs
      rw [List.getElem?_eq_getElem hi] at hf
      exact ⟨index, hi, hs, (Option.some.inj hf).symm⟩
    · cases hf
  · rintro ⟨index, hi, hs, rfl⟩
    refine ⟨index, hi, ?_⟩
    rw [if_pos hs, List.getElem?_eq_getElem hi]
    rfl

theorem ascending_catalogFields (entries : List Entry) (sector : Nat) : Ascending 512 (catalogFields entries sector) := by
  constructor
  · refine (List.pairwise_filterMap).2 (List.pairwise_lt_range.imp ?_)
    intro i j hij f hf g hg
    split at hf
    · split at hg
      · rename_i hi hj
        simp only [Option.map_eq_some_iff] at hf hg
        obtain ⟨a, -, rfl⟩ := hf
        obtain ⟨b, -, rfl⟩ := hg
        rw [length_encodeEntry]
        simp only [entryBytes, sectorBytes] at hi hj ⊢
        omega
      · cases hg
    · cases hf
  · intro f hf
    obtain ⟨index, hi, -, rfl⟩ := mem_catalogFields.1 hf
    rw [length_encodeEntry]
    simp only [entryBytes, sectorBytes]
    omega

theorem catalogEntry_encodeCatalog (hn : entries.length ≤ maxPackages) {index : Nat}
    (hi : index < entries.length) : catalogEntry (encodeCatalog entries) index = encodeEntry entries[index] := by
  have hs : index * entryBytes / sectorBytes < catalogSectors := by
    simp only [maxPackages, entryBytes, sectorBytes, catalogSectors] at *
    omega
  have hm := mem_catalogFields.2 ⟨index, hi, rfl, rfl⟩
  rw [catalogEntry, Vector.getElem?_eq_getElem hs, encodeCatalog, Vector.getElem_ofFn]
  exact window_writeFields _ (ascending_catalogFields entries _) hm

theorem decodeEntries_catalogEntry {catalog : Catalog} : ∀ {entries : List Entry} {start : Nat},
    (∀ i (hi : i < entries.length), catalogEntry catalog (start + i) = encodeEntry entries[i]) →
    (∀ entry ∈ entries, ValidEntry entry) → decodeEntries catalog entries.length start = .ok entries
  | [], _, _, _ => rfl
  | entry :: rest, start, hc, hv => by
    have h0 := hc 0 (by simp)
    simp only [Nat.add_zero, List.getElem_cons_zero] at h0
    have hrest : ∀ i (hi : i < rest.length), catalogEntry catalog (start + 1 + i) = encodeEntry rest[i] := by
      intro i hi
      have := hc (i + 1) (by simpa using hi)
      rw [List.getElem_cons_succ] at this
      rw [← this]
      congr 1
      omega
    simp only [List.length_cons, decodeEntries]
    rw [h0, decodeEntry_encodeEntry (hv entry List.mem_cons_self),
      decodeEntries_catalogEntry hrest (List.forall_mem_cons.1 hv).2]
    rfl

theorem decodeEntries_encodeCatalog (hn : entries.length ≤ maxPackages) (hv : ∀ entry ∈ entries, ValidEntry entry) :
    decodeEntries (encodeCatalog entries) entries.length 0 = .ok entries := by
  refine decodeEntries_catalogEntry (fun i hi => ?_) hv
  rw [Nat.zero_add, catalogEntry_encodeCatalog hn hi]

end MakOS.PackageStore
