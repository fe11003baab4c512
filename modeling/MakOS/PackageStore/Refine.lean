/-
What the package store is for: a map from names to packages and the version of it before the last
change. Every sequence of calls that succeed leaves the store answering all its queries as that map
does, although each call but a rollback moves all payloads to the other slot.
-/
import MakOS.PackageStore.Crash
import MakOS.PackageStore.Query

namespace MakOS.PackageStore

open Bytes Device Device.Prog

/-! ## The abstract store -/

structure Content where
  version : List UInt8
  dependencies : List Dependency
  payload : List UInt8
  deriving DecidableEq, Repr

abbrev PackageMap := List UInt8 → Option Content

/-- The map and its previous version; there is neither before the first change. -/
structure Versions where
  current : Option PackageMap
  previous : Option PackageMap

namespace Versions

def initial : Versions := ⟨none, none⟩

def map (v : Versions) : PackageMap := v.current.getD fun _ => none

/-- Change one entry; what was current becomes the previous version. -/
def change (v : Versions) (name : List UInt8) (content : Option Content) : Versions :=
  ⟨some (Function.update v.map name content), v.current⟩

/-- What a call does to the map, where it can succeed. -/
def step (v : Versions) : Call → Option Versions
  | .edit (.install manifest payload) =>
    if (v.map manifest.name).isNone then
      some (v.change manifest.name (some ⟨manifest.version, manifest.dependencies, payload⟩))
    else none
  | .edit (.replace manifest payload) =>
    if (v.map manifest.name).isSome then
      some (v.change manifest.name (some ⟨manifest.version, manifest.dependencies, payload⟩))
    else none
  | .edit (.remove name) => if (v.map name).isSome then some (v.change name none) else none
  | .rollback =>
    match v.current, v.previous with
    | some current, some previous => some ⟨some previous, some current⟩
    | _, _ => none

end Versions

/-! ## Package lists as maps -/

def Pkg.content (pkg : Pkg) : Content := ⟨pkg.version, pkg.dependencies, pkg.payload⟩

def mapOf (pkgs : List Pkg) : PackageMap := fun name => (Store.findPkg pkgs name).map Pkg.content

theorem mapOf_cons (pkg : Pkg) (rest : List Pkg) :
    mapOf (pkg :: rest) = Function.update (mapOf rest) pkg.name (some pkg.content) := by
  funext name
  by_cases h : name = pkg.name
  · subst h
    rw [Function.update_self, mapOf, Store.findPkg, List.find?_cons_of_pos (by simp)]
    rfl
  · rw [Function.update_of_ne h, mapOf, Store.findPkg, List.find?_cons_of_neg (by simpa using Ne.symm h)]
    rfl

theorem indexOf_cons (pkg : Pkg) (rest : List Pkg) (name : List UInt8) :
    indexOf (pkg :: rest) name = if pkg.name = name then some 0 else (indexOf rest name).map (· + 1) := by
  unfold indexOf
  rw [List.findIdx?_cons]
  by_cases h : pkg.name = name <;> simp [h]

theorem isSome_mapOf (name : List UInt8) : ∀ pkgs : List Pkg, (mapOf pkgs name).isSome = (indexOf pkgs name).isSome
  | [] => rfl
  | pkg :: rest => by
    rw [mapOf_cons, indexOf_cons]
    by_cases h : pkg.name = name
    · subst h
      rw [Function.update_self, if_pos rfl]
      rfl
    · rw [Function.update_of_ne (Ne.symm h), if_neg h, Option.isSome_map, isSome_mapOf name rest]

variable {name : List UInt8}

theorem mapOf_eq_none {pkgs : List Pkg} (h : indexOf pkgs name = none) : mapOf pkgs name = none := by
  have := isSome_mapOf name pkgs
  rw [h] at this
  simpa using this

theorem mapOf_append {pkg : Pkg} : ∀ {pkgs : List Pkg}, indexOf pkgs pkg.name = none →
    mapOf (pkgs ++ [pkg]) = Function.update (mapOf pkgs) pkg.name (some pkg.content)
  | [], _ => mapOf_cons pkg []
  | p :: rest, h => by
    rw [indexOf_cons] at h
    split at h
    · cases h
    · rename_i hne
      rw [List.cons_append, mapOf_cons, mapOf_cons, mapOf_append (Option.map_eq_none_iff.1 h), Function.update_comm hne]

theorem mapOf_set {pkg : Pkg} : ∀ {pkgs : List Pkg} {index : Nat}, indexOf pkgs pkg.name = some index →
    mapOf (pkgs.set index pkg) = Function.update (mapOf pkgs) pkg.name (some pkg.content)
  | [], _, h => by cases h
  | p :: rest, index, h => by
    rw [indexOf_cons] at h
    split at h
    · rename_i heq
      cases h
      rw [List.set_cons_zero, mapOf_cons, mapOf_cons, heq, Function.update_idem]
    · rename_i hne
      obtain ⟨i, hi, rfl⟩ := Option.map_eq_some_iff.1 h
      rw [List.set_cons_succ, mapOf_cons, mapOf_cons, mapOf_set hi, Function.update_comm hne]

theorem mapOf_eraseIdx : ∀ {pkgs : List Pkg} {index : Nat}, (pkgs.map Pkg.name).Nodup →
    indexOf pkgs name = some index → mapOf (pkgs.eraseIdx index) = Function.update (mapOf pkgs) name none
  | [], _, _, h => by cases h
  | p :: rest, index, hnodup, h => by
    rw [List.map_cons, List.nodup_cons] at hnodup
    rw [indexOf_cons] at h
    split at h
    · rename_i heq
      cases h
      have hrest : mapOf rest name = none := by
        rw [mapOf, Option.map_eq_none_iff, Store.findPkg, List.find?_eq_none]
        intro q hq hname
        have hqp : q.name = p.name := by simpa [heq] using hname
        exact hnodup.1 (hqp ▸ List.mem_map_of_mem hq)
      rw [List.eraseIdx_cons_zero, mapOf_cons, heq, Function.update_idem, ← hrest, Function.update_eq_self]
    · rename_i hne
      obtain ⟨i, hi, rfl⟩ := Option.map_eq_some_iff.1 h
      rw [List.eraseIdx_cons_succ, mapOf_cons, mapOf_cons, mapOf_eraseIdx hnodup.2 hi, Function.update_comm hne]

/-! ## Calls refine the abstract steps -/

namespace Store

variable {store : Store} {d d' : Dev Sector} {st st' : Slots store}

def slotMap (o : Option (Nat × Packages store)) : Option PackageMap := o.map fun x => mapOf x.2.list

/-- The slots hold the two versions of the map. -/
def Represents (st : Slots store) (v : Versions) : Prop :=
  v.current = slotMap (st (newest st).slot) ∧ v.previous = slotMap (st (target st))

variable {v : Versions}

open Versions

theorem Represents.map (h : Represents st v) : v.map = mapOf (newest st).pkgs := by
  rw [Versions.map, h.1]
  rcases newest_cases st with ⟨hnone, hn⟩ | ⟨p, hst, hpkgs⟩
  · rw [hnone, hn]
    rfl
  · rw [hst, hpkgs]
    rfl

variable {generation : Nat}

/-- Filling the other slot makes its packages the current version. -/
theorem represents_update (h : Represents st v) (hg : (newest st).generation < generation) (p : Packages store) :
    Represents (Function.update st (target st) (some (generation, p))) ⟨some (mapOf p.list), v.current⟩ := by
  have hn := newest_update_some st hg p
  constructor
  · rw [hn, Function.update_self]
    rfl
  have ht : target (Function.update st (target st) (some (generation, p))) = (newest st).slot := by
    change otherSlot (newest _).slot = _
    rw [hn, otherSlot_otherSlot]
  rw [ht, Function.update_of_ne (otherSlot_ne _)]
  exact h.1

theorem step_edit (h : Represents st v) {edit : Edit} {next : List Pkg}
    (ha : edit.apply (newest st).generation (newest st).pkgs = .ok next) :
    v.step (.edit edit) = some ⟨some (mapOf next), v.current⟩ := by
  have hmap := h.map
  have hmakes := (apply_ok ha).2.2
  cases edit with
  | install manifest payload =>
    obtain ⟨-, -, hi, -, rfl⟩ := hmakes
    have hnone : (v.map manifest.name).isNone = true := by rw [hmap, mapOf_eq_none hi]; rfl
    rw [step, if_pos hnone, change, hmap, @mapOf_append (manifest.pkg payload) _ hi]
    rfl
  | replace manifest payload =>
    obtain ⟨-, -, index, hi, rfl⟩ := hmakes
    have hsome : (v.map manifest.name).isSome = true := by rw [hmap, isSome_mapOf, hi]; rfl
    rw [step, if_pos hsome, change, hmap, @mapOf_set (manifest.pkg payload) _ _ hi]
    rfl
  | remove name =>
    obtain ⟨index, hi, rfl⟩ := hmakes
    have hsome : (v.map name).isSome = true := by rw [hmap, isSome_mapOf, hi]; rfl
    rw [step, if_pos hsome, change, hmap, mapOf_eraseIdx (sound_newest st).names hi]

theorem step_outcome (h : Represents st v) {call : Call} {es : List (Event Sector)}
    (ho : Outcome store st call (.ok generation) es st') :
    generation = (newest st).generation + 1 ∧ (newest st').generation = generation ∧
      ∃ v', v.step call = some v' ∧ Represents st' v' := by
  cases ho with
  | committed edit p ha _ =>
    refine ⟨rfl, ?_, _, step_edit h ha, represents_update h (Nat.lt_succ_self _) p⟩
    rw [newest_update_some st (Nat.lt_succ_self _)]
  | rolledBack g p hprev _ =>
    refine ⟨rfl, ?_, ⟨some (mapOf p.list), v.current⟩, ?_, represents_update h (Nat.lt_succ_self _) p⟩
    · rw [newest_update_some st (Nat.lt_succ_self _)]
    have hcurrent : ∃ m, v.current = some m := by
      rcases newest_cases st with ⟨hnone, -⟩ | ⟨q, hst, -⟩
      · rw [hnone] at hprev
        cases hprev
      · rw [h.1, hst]
        exact ⟨_, rfl⟩
    obtain ⟨m, hm⟩ := hcurrent
    have hp : v.previous = some (mapOf p.list) := by rw [h.2, hprev]; rfl
    rw [step, hm, hp]

/-! ## Sequences of calls -/

/-- The queries answer as the map does. -/
structure Agrees (store : Store) (d : Dev Sector) (generation : Nat) (map : PackageMap) : Prop where
  packages : ∃ output, store.packages.value d = .ok (⟨generation, output.length⟩, output) ∧
    (output.map PackageInfo.name).Nodup ∧ ∀ name,
      (output.find? fun info => info.name == name).map (fun info => (info.version, info.payloadLength)) =
        (map name).map fun content => (content.version, content.payload.length)
  dependencies : ∃ snapshot, store.recover.value d = .ok snapshot ∧ ∀ name,
    (findEntry snapshot.entries name).map Entry.dependencies = (map name).map Content.dependencies
  installed : ∀ name, (store.installed name).value d = (do
    validateName name
    .ok ((map name).map fun content => ⟨generation, content.version, content.payload.length⟩))
  readPayload : ∀ name length, (store.readPayload name length).value d = (do
    validateName name
    match map name with
    | none => .error .notInstalled
    | some content => if length < content.payload.length then .error .outputTooSmall else .ok content.payload)
  readPayloadAt : ∀ name offset length, (store.readPayloadAt name offset length).value d = (do
    validateName name
    match map name with
    | none => .error .notInstalled
    | some content =>
      if offset > content.payload.length then .error .outputTooSmall
      else .ok ((content.payload.drop offset).take length))

theorem find_infos (store : Store) (name : List UInt8) (slot : Fin 2) : ∀ (start : Nat) (pkgs : List Pkg),
    ((((layout start pkgs).map (store.infoOf slot)).find? fun info => info.name == name).map
        fun info => (info.version, info.payloadLength)) =
      (mapOf pkgs name).map fun content => (content.version, content.payload.length)
  | _, [] => rfl
  | start, pkg :: rest => by
    rw [layout, List.map_cons, mapOf_cons]
    by_cases h : name = pkg.name
    · subst h
      rw [List.find?_cons_of_pos (by simp [infoOf, Pkg.entry]), Function.update_self]
      rfl
    · rw [List.find?_cons_of_neg (by simpa [infoOf, Pkg.entry] using Ne.symm h), Function.update_of_ne h]
      exact find_infos store name slot _ rest

theorem agrees_shows (h : store.ShowsSlots d st) : Agrees store d (newest st).generation (mapOf (newest st).pkgs) where
  packages := by
    refine ⟨_, ?_, ?_, fun name => find_infos store name (newest st).slot 0 (newest st).pkgs⟩
    · rw [value_packages h, List.length_map, length_layout]
    · rw [List.map_map]
      exact map_name_layout 0 (newest st).pkgs ▸ (sound_newest st).names
  dependencies := by
    refine ⟨_, value_recover h, fun name => ?_⟩
    rcases lookup h name with ⟨hf, he⟩ | ⟨pkg, start, hf, he, -⟩
    · rw [he, mapOf, hf]
      rfl
    · rw [he, mapOf, hf]
      rfl
  installed name := by
    rw [value_installed h, mapOf, Option.map_map]
    rfl
  readPayload name length := by
    rw [value_readPayload h, mapOf]
    cases findPkg (newest st).pkgs name <;> rfl
  readPayloadAt name offset length := by
    rw [value_readPayloadAt h, mapOf]
    cases findPkg (newest st).pkgs name <;> rfl

/-- The devices reached from a blank one by calls that succeed, with these calls. -/
inductive Served (store : Store) : List Call → Dev Sector → Prop
  | blank (image : Nat → Sector) : (∀ slot, isBlank (image (store.slotBase slot)) = true) →
      Served store [] (Dev.ofImage store.sectorCount image)
  | call {calls : List Call} {d : Dev Sector} {call : Call} {es : List (Event Sector)} {generation : Nat} :
      Served store calls d → Runs (call.prog store) d es (.ok generation) → (∀ e ∈ es, e.Done) →
      Served store (calls ++ [call]) (d.replay es)

theorem served_represents {calls : List Call} (h : Served store calls d) :
    ∃ st v, store.Quiet d st ∧ (newest st).generation = calls.length ∧
      calls.foldlM step initial = some v ∧ Represents st v := by
  induction h with
  | blank image hb =>
    exact ⟨fun _ => none, .initial, ⟨rfl, fun slot => always_ofImage.2 (.inl (hb slot))⟩, rfl, rfl, rfl, rfl⟩
  | @call calls d call es generation _ hrun hdone ih =>
    obtain ⟨st, v, hq, hg, hv, hrep⟩ := ih
    obtain ⟨st', ho⟩ := outcome_call hq.shows call
    obtain ⟨hvalue, -, hafter⟩ := hrun.done hdone
    have hq' := hq.outcome ho
    rw [← hvalue] at ho
    obtain ⟨hgen, hgen', v', hstep, hrep'⟩ := step_outcome hrep ho
    refine ⟨st', v', ?_, ?_, ?_, hrep'⟩
    · rw [hafter]
      exact hq'
    · rw [hgen', hgen, hg, List.length_append, List.length_singleton]
    rw [List.foldlM_append, hv]
    change (v.step call >>= fun s => some s) = _
    rw [hstep]
    rfl

/-- After any calls that succeeded, the store answers as the map the calls lead to, and that map is
defined. -/
theorem refines_map {calls : List Call} (h : Served store calls d) :
    ∃ v, calls.foldlM step initial = some v ∧ Agrees store d calls.length v.map := by
  obtain ⟨st, v, hq, hg, hv, hrep⟩ := served_represents h
  refine ⟨v, hv, ?_⟩
  rw [← hg, hrep.map]
  exact agrees_shows hq.shows

theorem refines_map_tool : ∃ v, [Call.edit (.install tool [0])].foldlM step initial = some v ∧
    Agrees smallStore (blankDevice.replay (((Edit.install tool [0]).prog smallStore).eval blankDevice).2) 1 v.map := by
  have hrun := Prog.runs ((Edit.install tool [0]).prog smallStore) blankDevice
  rw [value_install_tool] at hrun
  have hblank : Served smallStore [] blankDevice := .blank (fun _ => zeros 512) fun _ => isBlank_zeros
  exact refines_map (Served.call hblank hrun (eval_done _ _))

end Store

end MakOS.PackageStore
