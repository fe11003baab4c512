/-
What a slot holds: a valid set of packages, the catalog entries that describe where their payloads
are, and the sectors of catalog and payloads. A `Packages` value is such a set that fits a slot of
the store; everything later says that a slot holds one or is marked as holding none.
-/
import MakOS.PackageStore.Store

namespace MakOS.PackageStore

open MakOS.Bytes MakOS.Device

/-! ## Pieces of a payload -/

theorem pieces_nil : pieces [] = [] := by rw [pieces]

theorem pieces_of_ne_nil {payload : List UInt8} (h : payload ≠ []) :
    pieces payload = payload.take sectorBytes :: pieces (payload.drop sectorBytes) := by
  cases payload with
  | nil => exact absurd rfl h
  | cons => rw [pieces]

theorem flatten_pieces (payload : List UInt8) : (pieces payload).flatten = payload := by
  induction payload using pieces.induct with
  | case1 => rw [pieces_nil]; rfl
  | case2 byte rest ih =>
    rw [pieces_of_ne_nil (List.cons_ne_nil _ _), List.flatten_cons, ih, List.take_append_drop]

theorem length_pieces (payload : List UInt8) : (pieces payload).length = (payload.length + 511) / 512 := by
  induction payload using pieces.induct with
  | case1 => rw [pieces_nil]; rfl
  | case2 byte rest ih =>
    rw [pieces_of_ne_nil (List.cons_ne_nil _ _), List.length_cons, ih, List.length_drop, sectorBytes, List.length_cons]
    omega

theorem slice_toSector {bytes : List UInt8} (h : bytes.length ≤ sectorBytes) :
    slice (toSector bytes) 0 bytes.length = bytes :=
  slice_put_self _ _ _ _ rfl (by rw [Nat.zero_add]; exact h)

/-! ## Packages and their entries -/

structure Pkg where
  name : List UInt8
  version : List UInt8
  dependencies : List Dependency
  payload : List UInt8
  deriving DecidableEq, Repr

def Pkg.manifest (pkg : Pkg) : Manifest := ⟨pkg.name, pkg.version, pkg.dependencies⟩

def Pkg.sectors (pkg : Pkg) : List Sector := (pieces pkg.payload).map toSector

/-- The entry of a package whose payload begins at the given payload sector. -/
def Pkg.entry (pkg : Pkg) (start : Nat) : Entry :=
  ⟨true, pkg.name, pkg.version, pkg.dependencies, start * sectorBytes, pkg.payload.length, crc32 pkg.payload⟩

/-- The entries of packages whose payloads lie one after another. -/
def layout : (start : Nat) → List Pkg → List Entry
  | _, [] => []
  | start, pkg :: rest => pkg.entry start :: layout (start + pkg.sectors.length) rest

def payloadSectors (pkgs : List Pkg) : List Sector := pkgs.flatMap Pkg.sectors

def catalogOf (pkgs : List Pkg) : Catalog := encodeCatalog (layout 0 pkgs)

def slotData (pkgs : List Pkg) : List Sector := (catalogOf pkgs).toList ++ payloadSectors pkgs

def committedHeader (generation : Nat) (pkgs : List Pkg) : Sector :=
  encodeHeader ⟨generation, pkgs.length, crc32Sectors (catalogOf pkgs), headerCommitted⟩

def preparingHeader (generation count : Nat) : Sector := encodeHeader ⟨generation, count, 0, headerPreparing⟩

/-- What the checks of the store ensure of a set of packages. -/
structure Sound (pkgs : List Pkg) : Prop where
  few : pkgs.length ≤ maxPackages
  names : (pkgs.map Pkg.name).Nodup
  manifests : ∀ pkg ∈ pkgs, ValidManifest pkg.manifest
  payloads : ∀ pkg ∈ pkgs, pkg.payload ≠ []
  dependencies : validateDependencies (layout 0 pkgs) = .ok ()

/-- A set of packages a slot of the store can hold. -/
structure Packages (store : Store) where
  list : List Pkg
  sound : Sound list
  fits : payloadStartSector + (payloadSectors list).length ≤ store.slotSectors
  addressable : store.capacity < 2 ^ 64

@[simp] theorem length_layout : ∀ (start : Nat) (pkgs : List Pkg), (layout start pkgs).length = pkgs.length
  | _, [] => rfl
  | _, _ :: rest => by simp [layout, length_layout _ rest]

theorem length_sectors (pkg : Pkg) : pkg.sectors.length = (pkg.payload.length + 511) / 512 := by
  rw [Pkg.sectors, List.length_map, length_pieces]

theorem length_catalog (pkgs : List Pkg) : (catalogOf pkgs).toList.length = catalogSectors := Vector.length_toList ..

/-- Where the entry of a package lies among the payload sectors. -/
theorem mem_layout {entry : Entry} : ∀ {start : Nat} {pkgs : List Pkg}, entry ∈ layout start pkgs →
    ∃ before pkg after, pkgs = before ++ pkg :: after ∧ entry = pkg.entry (start + (payloadSectors before).length)
  | _, [], h => by cases h
  | start, pkg :: rest, h => by
    rcases List.mem_cons.1 h with rfl | h
    · exact ⟨[], pkg, rest, rfl, rfl⟩
    obtain ⟨before, p, after, rfl, rfl⟩ := mem_layout h
    refine ⟨pkg :: before, p, after, rfl, ?_⟩
    simp only [payloadSectors, List.flatMap_cons, List.length_append]
    rw [Nat.add_assoc]

theorem payloadSectors_append (xs ys : List Pkg) : payloadSectors (xs ++ ys) = payloadSectors xs ++ payloadSectors ys :=
  List.flatMap_append

theorem payloadSectors_cons (pkg : Pkg) (rest : List Pkg) :
    payloadSectors (pkg :: rest) = pkg.sectors ++ payloadSectors rest := List.flatMap_cons

theorem validEntry_layout {store : Store} (p : Packages store) : ∀ entry ∈ layout 0 p.list, ValidEntry entry := by
  intro entry he
  obtain ⟨before, pkg, after, hl, rfl⟩ := mem_layout he
  have hmem : pkg ∈ p.list := by rw [hl]; simp
  have hfits := p.fits
  have hcap := p.addressable
  rw [hl, payloadSectors_append, payloadSectors_cons] at hfits
  rw [List.length_append, List.length_append, length_sectors] at hfits
  have h0 : pkg.payload.length ≠ 0 := fun h => p.sound.payloads pkg hmem (List.length_eq_zero_iff.1 h)
  refine ⟨rfl, p.sound.manifests pkg hmem, h0, Nat.mul_mod_left _ _, lt_of_le_of_lt ?_ hcap, lt_of_le_of_lt ?_ hcap⟩
  · change (0 + (payloadSectors before).length) * 512 ≤ (store.slotSectors - payloadStartSector) * 512
    omega
  · change pkg.payload.length ≤ (store.slotSectors - payloadStartSector) * 512
    omega

end MakOS.PackageStore
