/-
Package manifests: names, versions, dependencies and their validation (`crates/package-store`).
Byte slices are lists; the fixed name and version arrays of the store's records, which hold a slice
and its length with zero padding, are the slices themselves.
-/
import MakOS.Bytes.Crc32

namespace MakOS.PackageStore

/-! ## Limits and errors -/

def sectorBytes : Nat := 512
abbrev catalogSectors : Nat := 4
def maxPackages : Nat := 8
def maxDependencies : Nat := 3
def maxNameBytes : Nat := 32
def maxVersionBytes : Nat := 16

inductive Error
  | io
  | invalidGeometry
  | invalidName
  | invalidVersion
  | invalidDependency
  | dependencyMissing
  | dependencyVersion
  | dependencyCycle
  | dependedOn
  | alreadyInstalled
  | notInstalled
  | noSpace
  | corrupt
  | outputTooSmall
  deriving DecidableEq, Repr

inductive RequirementKind
  | exact
  | atLeast
  deriving DecidableEq, Repr

/-- A requirement on another package (`Dependency` and `StoredDependency`). -/
structure Dependency where
  name : List UInt8
  kind : RequirementKind
  version : List UInt8
  deriving DecidableEq, Repr

structure Manifest where
  name : List UInt8
  version : List UInt8
  dependencies : List Dependency
  deriving DecidableEq, Repr

/-! ## Names -/

def isAsciiLowercase (byte : UInt8) : Bool := 0x61 ≤ byte && byte ≤ 0x7a

def isAsciiDigit (byte : UInt8) : Bool := 0x30 ≤ byte && byte ≤ 0x39

def validateName (name : List UInt8) : Except Error Unit :=
  if name.isEmpty || decide (name.length > maxNameBytes) ||
      !name.all (fun byte => isAsciiLowercase byte || isAsciiDigit byte || byte == 0x2d) ||
      !name.head?.any isAsciiLowercase then
    .error .invalidName
  else .ok ()

structure ValidName (name : List UInt8) : Prop where
  nonempty : name ≠ []
  short : name.length ≤ maxNameBytes
  bytes : ∀ byte ∈ name, (isAsciiLowercase byte || isAsciiDigit byte || byte == 0x2d) = true
  head : name.head?.any isAsciiLowercase = true

theorem validateName_ok {name : List UInt8} : validateName name = .ok () ↔ ValidName name := by
  unfold validateName
  constructor
  · intro h
    split at h
    · cases h
    rename_i hc
    simp only [Bool.or_eq_true, not_or, decide_eq_true_eq, Bool.not_eq_true', Bool.not_eq_true,
      List.isEmpty_eq_false_iff, Bool.not_eq_false, List.all_eq_true] at hc
    exact ⟨hc.1.1.1, by omega, by simpa using hc.1.2, hc.2⟩
  · intro h
    rw [if_neg]
    simp only [Bool.or_eq_true, not_or, decide_eq_true_eq, Bool.not_eq_true', Bool.not_eq_true,
      List.isEmpty_eq_false_iff, Bool.not_eq_false, List.all_eq_true]
    exact ⟨⟨⟨h.nonempty, by have := h.short; omega⟩, by simpa using h.bytes⟩, h.head⟩

/-! ## Versions -/

/-- A parsed version, `[u32; 3]`. -/
abbrev Version := Vector Nat 3

/-- The variables of the `parse_version` loop. -/
structure VersionState where
  result : Version
  part : Nat
  digits : Nat
  componentStart : Bool
  leadingZero : Bool
  deriving DecidableEq

def VersionState.initial : VersionState := ⟨Vector.replicate 3 0, 0, 0, true, false⟩

def versionStep (st : VersionState) (byte : UInt8) : Except Error VersionState :=
  if byte == 0x2e then
    if st.digits == 0 || decide (st.part ≥ 3) then .error .invalidVersion
    else .ok { st with part := st.part + 1, digits := 0, componentStart := true, leadingZero := false }
  else if isAsciiDigit byte then
    if h : st.part < 3 then
      if !st.componentStart && st.leadingZero then .error .invalidVersion
      else
        let leadingZero := if st.componentStart then byte == 0x30 else st.leadingZero
        -- `checked_mul(10)` then `checked_add` in `u32`
        let value := st.result[st.part] * 10 + (byte.toNat - 0x30)
        if value < 2 ^ 32 then
          .ok { st with result := st.result.set st.part value, digits := st.digits + 1,
                        componentStart := false, leadingZero }
        else .error .invalidVersion
    else .error .invalidVersion
  else .error .invalidVersion

def parseVersion (version : List UInt8) : Except Error Version :=
  if version.isEmpty || decide (version.length > maxVersionBytes) then .error .invalidVersion
  else do
    let st ← (version ++ [0x2e]).foldlM versionStep VersionState.initial
    if 2 ≤ st.part ∧ st.part ≤ 3 then .ok st.result else .error .invalidVersion

/-- Comparison of version arrays, component by component. -/
def Version.le (a b : Version) : Bool := decide (a.toList ≤ b.toList)

theorem parseVersion_bounds {version : List UInt8} {v : Version} (h : parseVersion version = .ok v) :
    version ≠ [] ∧ version.length ≤ maxVersionBytes := by
  unfold parseVersion at h
  split at h
  · cases h
  · rename_i hc
    simp only [Bool.or_eq_true, not_or, decide_eq_true_eq, Bool.not_eq_true, List.isEmpty_eq_false_iff] at hc
    exact ⟨hc.1, by omega⟩

-- "1.2" is the version 1.2.0; "01.0" has a leading zero
example : parseVersion [0x31, 0x2e, 0x32] = .ok #v[1, 2, 0] := by decide
example : parseVersion [0x30, 0x31, 0x2e, 0x30] = .error .invalidVersion := by decide

/-! ## Dependency lists -/

/-- The checks on one dependency of a package, after those in `previous`: a valid name and version,
not the package itself, not named before. -/
def checkDependency (error : Error) (owner : List UInt8) (previous : List Dependency) (dependency : Dependency) :
    Except Error Unit :=
  match validateName dependency.name with
  | .error _ => .error error
  | .ok () =>
    match parseVersion dependency.version with
    | .error _ => .error error
    | .ok _ =>
      if dependency.name == owner || previous.any (fun p => p.name == dependency.name) then .error error
      else .ok ()

def validateManifestDependencies (owner : List UInt8) :
    (previous rest : List Dependency) → Except Error Unit
  | _, [] => .ok ()
  | previous, dependency :: rest => do
    checkDependency .invalidDependency owner previous dependency
    validateManifestDependencies owner (previous ++ [dependency]) rest

def validateManifest (manifest : Manifest) : Except Error Unit := do
  validateName manifest.name
  let _ ← parseVersion manifest.version
  if manifest.dependencies.length > maxDependencies then .error .invalidDependency
  else validateManifestDependencies manifest.name [] manifest.dependencies

structure ValidDependency (owner : List UInt8) (previous : List Dependency) (dependency : Dependency) : Prop where
  name : ValidName dependency.name
  version : ∃ v, parseVersion dependency.version = .ok v
  notSelf : dependency.name ≠ owner
  fresh : ∀ p ∈ previous, p.name ≠ dependency.name

theorem checkDependency_ok {error : Error} {owner : List UInt8} {previous : List Dependency} {dependency : Dependency} :
    checkDependency error owner previous dependency = .ok () ↔ ValidDependency owner previous dependency := by
  unfold checkDependency
  constructor
  · intro h
    split at h
    · cases h
    rename_i hn
    split at h
    · cases h
    rename_i v hv
    split at h
    · cases h
    · rename_i hc
      simp only [Bool.or_eq_true, beq_iff_eq, List.any_eq_true, not_or, not_exists, not_and] at hc
      exact ⟨validateName_ok.1 hn, ⟨v, hv⟩, hc.1, hc.2⟩
  · rintro ⟨hn, ⟨v, hv⟩, hs, hf⟩
    rw [validateName_ok.2 hn, hv]
    rw [if_neg]
    simp only [Bool.or_eq_true, beq_iff_eq, List.any_eq_true, not_or, not_exists, not_and]
    exact ⟨hs, hf⟩

/-- A dependency list every member of which passes the checks after those before it. -/
def ValidDependencies (owner : List UInt8) : (previous rest : List Dependency) → Prop
  | _, [] => True
  | previous, dependency :: rest =>
    ValidDependency owner previous dependency ∧ ValidDependencies owner (previous ++ [dependency]) rest

theorem validateManifestDependencies_ok {owner : List UInt8} : ∀ {previous rest : List Dependency},
    validateManifestDependencies owner previous rest = .ok () ↔ ValidDependencies owner previous rest
  | _, [] => by simp [validateManifestDependencies, ValidDependencies]
  | previous, dependency :: rest => by
    have ih := @validateManifestDependencies_ok owner (previous ++ [dependency]) rest
    have hc := @checkDependency_ok .invalidDependency owner previous dependency
    simp only [validateManifestDependencies, ValidDependencies, ← ih, ← hc]
    cases checkDependency .invalidDependency owner previous dependency <;> simp [bind, Except.bind]

structure ValidManifest (manifest : Manifest) : Prop where
  name : ValidName manifest.name
  version : ∃ v, parseVersion manifest.version = .ok v
  few : manifest.dependencies.length ≤ maxDependencies
  dependencies : ValidDependencies manifest.name [] manifest.dependencies

theorem validateManifest_ok {manifest : Manifest} : validateManifest manifest = .ok () ↔ ValidManifest manifest := by
  unfold validateManifest
  constructor
  · intro h
    cases hn : validateName manifest.name with
    | error e => rw [hn] at h; cases h
    | ok u =>
      cases hv : parseVersion manifest.version with
      | error e => rw [hn, hv] at h; cases h
      | ok v =>
        rw [hn, hv] at h
        split at h
        · cases h
        · exact ⟨validateName_ok.1 hn, ⟨v, hv⟩, by omega, validateManifestDependencies_ok.1 h⟩
  · rintro ⟨hn, ⟨v, hv⟩, hf, hd⟩
    rw [validateName_ok.2 hn, hv]
    rw [if_neg (by omega)]
    exact validateManifestDependencies_ok.2 hd

end MakOS.PackageStore
