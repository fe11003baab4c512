/-
Dependency checking of a catalog (`crates/package-store`): every requirement is met by an entry of
the catalog and the dependency graph has no cycle, and `validateDependencies` decides exactly that.
-/
import MakOS.PackageStore.Codec
import MakOS.Graph.Cycle

namespace MakOS.PackageStore

open Bytes

/-! ## Lookup -/

def findEntryIndex (entries : List Entry) (name : List UInt8) : Option Nat :=
  entries.findIdx? fun entry => entry.used && entry.name == name

def findEntry (entries : List Entry) (name : List UInt8) : Option Entry :=
  (findEntryIndex entries name).bind fun index => entries[index]?

variable {entries : List Entry}

theorem findEntryIndex_some {name : List UInt8} {index : Nat} (h : findEntryIndex entries name = some index) :
    ∃ hi : index < entries.length, entries[index].used = true ∧ entries[index].name = name := by
  obtain ⟨hi, hp, -⟩ := List.findIdx?_eq_some_iff_getElem.1 h
  simp only [Bool.and_eq_true, beq_iff_eq] at hp
  exact ⟨hi, hp⟩

theorem findEntry_eq_find (entries : List Entry) (name : List UInt8) :
    findEntry entries name = entries.find? fun entry => entry.used && entry.name == name := by
  exact (List.find?_eq_bind_findIdx?_getElem? ..).symm

/-! ## The check -/

/-- The body of the loop over all requirements. -/
def checkRequirement (entries : List Entry) (dependency : Dependency) : Except Error Unit :=
  match findEntry entries dependency.name with
  | none => .error .dependencyMissing
  | some target => do
    let actual ← (parseVersion target.version).mapError fun _ => Error.corrupt
    let required ← (parseVersion dependency.version).mapError fun _ => Error.corrupt
    let satisfied := match dependency.kind with
      | .exact => decide (actual = required)
      | .atLeast => Version.le required actual
    if satisfied then .ok () else .error .dependencyVersion

/-- The entries the dependencies of an entry lead to. -/
def children (entries : List Entry) (index : Nat) : List Nat :=
  match entries[index]? with
  | some entry => entry.dependencies.filterMap fun dependency => findEntryIndex entries dependency.name
  | none => []

/-- `dependency_cycle`: whether the search from an entry meets an entry of its own path. The source's
recursion is bounded by its marks; here it is given one level more than there can be entries. -/
def dependencyCycle (entries : List Entry) (index : Nat) (visiting : Nat → Bool) : Bool :=
  (Graph.cycleFrom (children entries) (maxPackages + 1) index visiting).1

/-- The body of the loop over the roots of the search. -/
def checkRoot (entries : List Entry) (root : Nat) : Except Error Unit :=
  if dependencyCycle entries root fun _ => false then .error .dependencyCycle else .ok ()

def validateDependencies (entries : List Entry) : Except Error Unit := do
  entries.forM fun entry => entry.dependencies.forM (checkRequirement entries)
  (List.range entries.length).forM (checkRoot entries)

/-! ## What it decides -/

/-- The version meets the requirement: equal to an exact one, not lower than an at-least one. -/
def Meets (kind : RequirementKind) (actual required : Version) : Prop :=
  match kind with
  | .exact => actual = required
  | .atLeast => required.toList ≤ actual.toList

/-- The requirement is met by the entry its name leads to. -/
def Satisfied (entries : List Entry) (dependency : Dependency) : Prop :=
  ∃ target actual required, findEntry entries dependency.name = some target ∧
    parseVersion target.version = .ok actual ∧ parseVersion dependency.version = .ok required ∧
    Meets dependency.kind actual required

def DependsOn (entries : List Entry) (i j : Nat) : Prop :=
  ∃ entry, entries[i]? = some entry ∧
    ∃ dependency ∈ entry.dependencies, findEntryIndex entries dependency.name = some j

theorem checkRequirement_ok {dependency : Dependency} :
    checkRequirement entries dependency = .ok () ↔ Satisfied entries dependency := by
  unfold checkRequirement Satisfied
  constructor
  · intro h
    split at h
    · cases h
    rename_i target hf
    cases ha : parseVersion target.version with
    | error e => rw [ha] at h; cases h
    | ok actual =>
      cases hr : parseVersion dependency.version with
      | error e => rw [ha, hr] at h; cases h
      | ok required =>
        refine ⟨target, actual, required, hf, ha, rfl, ?_⟩
        rw [ha, hr] at h
        simp only [bind, Except.bind, Except.mapError] at h
        cases hk : dependency.kind <;> rw [hk] at h <;> simp only [Meets, Version.le, decide_eq_true_eq] at h ⊢
        · by_contra hc; rw [if_neg hc] at h; cases h
        · by_contra hc; rw [if_neg hc] at h; cases h
  · rintro ⟨target, actual, required, hf, ha, hr, hm⟩
    rw [hf]
    simp only
    rw [ha, hr]
    simp only [bind, Except.bind, Except.mapError]
    cases hk : dependency.kind <;> rw [hk] at hm <;> simp only [Meets, Version.le, decide_eq_true_eq] at hm ⊢
    · rw [if_pos hm]
    · rw [if_pos hm]

theorem edge_children {i j : Nat} : Graph.Edge (children entries) i j ↔ DependsOn entries i j := by
  unfold Graph.Edge children DependsOn
  cases entries[i]? <;> simp

theorem validateDependencies_ok (hn : entries.length ≤ maxPackages) : validateDependencies entries = .ok () ↔
      (∀ entry ∈ entries, ∀ dependency ∈ entry.dependencies, Satisfied entries dependency) ∧
        ∀ i, ¬ Relation.TransGen (DependsOn entries) i i := by
  have hclosed : ∀ a ∈ Finset.range entries.length, ∀ b ∈ children entries a, b ∈ Finset.range entries.length := by
    intro a _ b hb
    obtain ⟨entry, -, dependency, -, hf⟩ := edge_children.1 hb
    exact Finset.mem_range.2 (findEntryIndex_some hf).1
  have hedges : ∀ a b, b ∈ children entries a → a ∈ Finset.range entries.length := by
    intro a b hb
    obtain ⟨entry, he, -⟩ := edge_children.1 hb
    exact Finset.mem_range.2 (List.getElem?_eq_some_iff.1 he).1
  have hdepth : (Finset.range entries.length).card < maxPackages + 1 := by rw [Finset.card_range]; omega
  have hrel : Graph.Edge (children entries) = DependsOn entries := by
    funext i j; exact propext edge_children
  have hcycle := Graph.cycleFrom_iff hclosed hedges hdepth
  rw [hrel] at hcycle
  have hroots : (List.range entries.length).forM (checkRoot entries) = .ok () ↔
      ∀ i, ¬ Relation.TransGen (DependsOn entries) i i := by
    rw [forM_ok, ← hcycle]
    refine forall_congr' fun root => ?_
    rw [checkRoot, dependencyCycle]
    cases (Graph.cycleFrom (children entries) (maxPackages + 1) root fun _ => false).1 <;> simp
  have hentries : (entries.forM fun entry => entry.dependencies.forM (checkRequirement entries)) = .ok () ↔
      ∀ entry ∈ entries, ∀ dependency ∈ entry.dependencies, Satisfied entries dependency := by
    simp only [forM_ok, checkRequirement_ok]
  rw [← hroots, ← hentries]
  unfold validateDependencies
  cases entries.forM fun entry => entry.dependencies.forM (checkRequirement entries) <;> simp [bind, Except.bind]

end MakOS.PackageStore
