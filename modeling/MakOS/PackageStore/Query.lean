/-
The queries of the package store on a device that shows its slots: what `installed`, `packages`,
`read_payload` and `read_payload_at` return, in terms of the packages of the newest snapshot.
-/
import MakOS.PackageStore.Edit

namespace MakOS.PackageStore

open Bytes Device Device.Prog

/-! ## Parts of a payload -/

variable {offset count : Nat}

theorem slice_within {n : Nat} (record : Vector UInt8 n) {length : Nat} (h : offset + count ≤ length) :
    slice record offset count = ((slice record 0 length).drop offset).take count := by
  unfold slice
  rw [List.drop_zero, List.drop_take, List.take_take, Nat.min_eq_left (by omega)]

/-- The sector of a payload at an index holds the bytes from there on. -/
theorem getElem?_pieces {k : Nat} {payload : List UInt8} (h : k * sectorBytes < payload.length) :
    (pieces payload)[k]? = some ((payload.drop (k * sectorBytes)).take sectorBytes) := by
  have hne : payload ≠ [] := by
    rintro rfl
    exact absurd h (Nat.not_lt_zero _)
  induction k generalizing payload with
  | zero => rw [pieces_of_ne_nil hne, List.getElem?_cons_zero, Nat.zero_mul, List.drop_zero]
  | succ k ih =>
    rw [Nat.add_mul] at h
    have hk : k * sectorBytes < (payload.drop sectorBytes).length := by
      rw [List.length_drop]
      omega
    have hne' : payload.drop sectorBytes ≠ [] := by
      intro hnil
      rw [hnil] at hk
      exact absurd hk (Nat.not_lt_zero _)
    rw [pieces_of_ne_nil hne, List.getElem?_cons_succ, ih hk hne', List.drop_drop, Nat.add_mul, Nat.one_mul,
      Nat.add_comm sectorBytes]

/-- The bytes a sector of a payload has from an offset of the payload on. -/
theorem slice_piece (payload : List UInt8) (hle : offset + count ≤ payload.length)
    (hc : count ≤ sectorBytes - offset % sectorBytes) :
    slice (toSector ((payload.drop (offset / sectorBytes * sectorBytes)).take sectorBytes)) (offset % sectorBytes) count =
      (payload.drop offset).take count := by
  have hoffset := Nat.div_add_mod' offset sectorBytes
  have hmlt : offset % sectorBytes < sectorBytes := Nat.mod_lt _ (by decide)
  generalize hpiece : (payload.drop (offset / sectorBytes * sectorBytes)).take sectorBytes = piece
  have hlen : piece.length = min sectorBytes (payload.length - offset / sectorBytes * sectorBytes) := by
    rw [← hpiece, List.length_take, List.length_drop]
  rw [slice_within _ (show offset % sectorBytes + count ≤ piece.length by omega), slice_toSector (by omega), ← hpiece,
    List.drop_take, List.take_take, List.drop_drop, hoffset, Nat.min_eq_left hc]

namespace Store

variable {store : Store} {d : Dev Sector} {st : Slots store}

variable {slot : Fin 2} {start : Nat} {pkg : Pkg}

/-- The sector that holds the byte of a payload at an offset. -/
theorem view_payload (h : store.ShowsPayload d slot start pkg) {offset : Nat} (ho : offset < pkg.payload.length) :
    payloadStartSector + (start + offset / sectorBytes) < store.slotSectors ∧
      d.view (store.slotBase slot + (payloadStartSector + (start + offset / sectorBytes))) =
        toSector ((pkg.payload.drop (offset / sectorBytes * sectorBytes)).take sectorBytes) := by
  have hk : offset / sectorBytes * sectorBytes < pkg.payload.length :=
    lt_of_le_of_lt (Nat.div_mul_le_self offset sectorBytes) ho
  obtain ⟨hi, hpiece⟩ := List.getElem?_eq_some_iff.1 (getElem?_pieces hk)
  have hi' : offset / sectorBytes < pkg.sectors.length := by rwa [Pkg.sectors, List.length_map]
  have h2 := h.2
  refine ⟨by omega, ?_⟩
  have hview := h.1 (offset / sectorBytes) hi'
  rw [show store.slotBase slot + (payloadStartSector + (start + offset / sectorBytes)) =
    store.slotBase slot + (payloadStartSector + start) + offset / sectorBytes by omega, hview]
  simp only [Pkg.sectors, List.getElem_map, hpiece]

theorem readOnly_readPayloadFrom (slot : Fin 2) (remaining absolute : Nat) :
    (store.readPayloadFrom slot remaining absolute).ReadOnly := by
  fun_induction readPayloadFrom with
  | case1 | case2 => trivial
  | case3 remaining absolute hne hlt ih =>
    exact readOnly_bind (fun _ => readOnly_bind (fun _ => readOnly_bind (fun _ => by trivial) ih) (readOnly_read _)) (readOnly_lift _)

/-- The loop of `read_payload_at` reads the bytes from an offset on. -/
theorem value_readPayloadFrom (hsize : d.size = store.sectorCount) (hcap : store.capacity < 2 ^ 64) (h : store.ShowsPayload d slot start pkg) (remaining : Nat) : ∀ offset : Nat,
    offset + remaining ≤ pkg.payload.length →
    (store.readPayloadFrom slot remaining (start * sectorBytes + offset)).value d =
      .ok ((pkg.payload.drop offset).take remaining) := by
  induction remaining using Nat.strong_induction_on with
  | _ remaining ih =>
    intro offset hle
    rw [readPayloadFrom]
    by_cases hzero : remaining = 0
    · rw [hzero]
      rfl
    rw [if_neg hzero]
    obtain ⟨hin, hview⟩ := view_payload h (show offset < pkg.payload.length by omega)
    have hdiv : (start * sectorBytes + offset) / sectorBytes = start + offset / sectorBytes := by
      rw [Nat.add_comm, Nat.add_mul_div_right _ _ (by decide), Nat.add_comm]
    have hmod : (start * sectorBytes + offset) % sectorBytes = offset % sectorBytes := by
      rw [Nat.add_comm, Nat.add_mul_mod_self_right]
    have hmlt : offset % sectorBytes < sectorBytes := Nat.mod_lt _ (by decide)
    have hbound : start * sectorBytes + offset < 2 ^ 64 := by
      refine lt_of_lt_of_le ?_ hcap.le
      have hoffset := Nat.div_add_mod' offset sectorBytes
      change start * 512 + offset < (store.slotSectors - payloadStartSector) * 512
      simp only [sectorBytes] at hin hoffset hmlt
      omega
    have hslot := store.slotBase_le slot
    have hread := @value_read (store.slotBase slot + (payloadStartSector + (start + offset / sectorBytes))) d (by omega)
    generalize hcount : min remaining (sectorBytes - (start * sectorBytes + offset) % sectorBytes) = count
    have hrest := ih (remaining - count) (by omega) (offset + count) (by omega)
    rw [← Nat.add_assoc] at hrest
    rw [if_neg (Nat.not_le.2 hbound), hdiv, payloadSector_ok hin, lift_ok_bind,
      value_bind_readOnly (readOnly_read _) hread, value_bind_readOnly (readOnly_readPayloadFrom ..) hrest, hmod, hview,
      slice_piece pkg.payload (by omega) (by omega)]
    change Except.ok _ = Except.ok _
    rw [← List.drop_drop, ← List.take_add, Nat.add_sub_cancel' (by omega)]

/-! ## Looking a package up -/

def findPkg (pkgs : List Pkg) (name : List UInt8) : Option Pkg := pkgs.find? fun pkg => pkg.name == name

theorem findEntry_findPkg (pkgs : List Pkg) (name : List UInt8) :
    (findPkg pkgs name = none ∧ findEntry (layout 0 pkgs) name = none) ∨
      ∃ before pkg after, pkgs = before ++ pkg :: after ∧ findPkg pkgs name = some pkg ∧
        findEntry (layout 0 pkgs) name = some (pkg.entry (payloadSectors before).length) := by
  cases hf : findPkg pkgs name with
  | none =>
    have hsome := isSome_findEntry_layout name pkgs
    have hnone : indexOf pkgs name = none := by
      rw [indexOf]
      simpa [findPkg] using hf
    rw [hnone] at hsome
    simpa using hsome
  | some pkg =>
    obtain ⟨hname, before, after, hl, hbefore⟩ := List.find?_eq_some_iff_append.1 hf
    obtain rfl : pkg.name = name := by simpa using hname
    refine .inr ⟨before, pkg, after, hl, rfl, ?_⟩
    rw [hl, findEntry_layout fun p hp => by simpa using hbefore p hp, Nat.zero_add]

/-- A package of the newest snapshot is found with its payload. -/
theorem lookup (h : store.ShowsSlots d st) (name : List UInt8) :
    (findPkg (newest st).pkgs name = none ∧ findEntry (newest st).snapshot.entries name = none) ∨
      ∃ pkg start, findPkg (newest st).pkgs name = some pkg ∧
        findEntry (newest st).snapshot.entries name = some (pkg.entry start) ∧ store.capacity < 2 ^ 64 ∧
        store.ShowsPayload d (newest st).slot start pkg := by
  rcases findEntry_findPkg (newest st).pkgs name with hnone | ⟨before, pkg, after, hl, hf, he⟩
  · exact .inl hnone
  right
  rcases newest_cases st with ⟨-, hn⟩ | ⟨p, hst, hpkgs⟩
  · rw [hn] at hf
    cases hf
  · have hshow := h.2 (newest st).slot
    rw [hst] at hshow
    refine ⟨pkg, _, hf, he, p.addressable, showsPayload_of_slotData p hshow.2.2 (hpkgs ▸ hl)⟩

theorem value_installed (h : store.ShowsSlots d st) (name : List UInt8) :
    (store.installed name).value d = (do
      validateName name
      .ok ((findPkg (newest st).pkgs name).map fun pkg => ⟨(newest st).generation, pkg.version, pkg.payload.length⟩)) := by
  unfold installed
  cases validateName name with
  | error error => rfl
  | ok u =>
    rw [lift_ok_bind, value_bind_readOnly readOnly_recover (value_recover h)]
    rcases lookup h name with ⟨hf, he⟩ | ⟨pkg, start, hf, he, -⟩
    · rw [he, hf]
      rfl
    · rw [he, hf]
      rfl

theorem value_readPayload (h : store.ShowsSlots d st) (name : List UInt8) (length : Nat) :
    (store.readPayload name length).value d = (do
      validateName name
      match findPkg (newest st).pkgs name with
      | none => .error .notInstalled
      | some pkg => if length < pkg.payload.length then .error .outputTooSmall else .ok pkg.payload) := by
  unfold readPayload
  cases validateName name with
  | error error => rfl
  | ok u =>
    rw [lift_ok_bind, value_bind_readOnly readOnly_recover (value_recover h)]
    rcases lookup h name with ⟨hf, he⟩ | ⟨pkg, start, hf, he, -, hpayload⟩
    · rw [he, hf]
      rfl
    rw [he, hf]
    change (if length < pkg.payload.length then _ else _ : M (List UInt8)).value d =
      if length < pkg.payload.length then _ else _
    split
    · rfl
    · exact value_readPayloadBytes h.1 hpayload

theorem value_readPayloadAt (h : store.ShowsSlots d st) (name : List UInt8) (offset length : Nat) :
    (store.readPayloadAt name offset length).value d = (do
      validateName name
      match findPkg (newest st).pkgs name with
      | none => .error .notInstalled
      | some pkg =>
        if offset > pkg.payload.length then .error .outputTooSmall else .ok ((pkg.payload.drop offset).take length)) := by
  unfold readPayloadAt
  cases validateName name with
  | error error => rfl
  | ok u =>
    rw [lift_ok_bind, value_bind_readOnly readOnly_recover (value_recover h)]
    rcases lookup h name with ⟨hf, he⟩ | ⟨pkg, start, hf, he, hcap, hpayload⟩
    · rw [he, hf]
      rfl
    rw [he, hf]
    change (if offset > pkg.payload.length then _ else _ : M (List UInt8)).value d =
      if offset > pkg.payload.length then _ else _
    split
    · rfl
    have hv := value_readPayloadFrom h.1 hcap hpayload (min length (pkg.payload.length - offset)) offset (by omega)
    refine hv.trans (congrArg Except.ok ?_)
    rw [← List.length_drop]
    exact List.take_eq_take_min.symm

/-! ## The list of packages -/

theorem mapM_ok {α β : Type} {f : α → Except Error β} {g : α → β} : ∀ {xs : List α}, (∀ x ∈ xs, f x = .ok (g x)) →
    xs.mapM f = .ok (xs.map g)
  | [], _ => rfl
  | x :: xs, h => by
    rw [List.mapM_cons, h x List.mem_cons_self, mapM_ok (List.forall_mem_cons.1 h).2]
    rfl

def infoOf (store : Store) (slot : Fin 2) (entry : Entry) : PackageInfo :=
  ⟨entry.name, entry.version, entry.payloadLength,
    store.slotBase slot + (payloadStartSector + entry.payloadOffset / sectorBytes)⟩

theorem value_packages (h : store.ShowsSlots d st) :
    store.packages.value d = .ok (⟨(newest st).generation, (newest st).pkgs.length⟩,
      (layout 0 (newest st).pkgs).map (store.infoOf (newest st).slot)) := by
  have hinfo : ∀ entry ∈ layout 0 (newest st).pkgs,
      store.packageInfo (newest st).slot entry = .ok (store.infoOf (newest st).slot entry) := by
    intro entry he
    obtain ⟨before, pkg, after, hl, rfl⟩ := mem_layout he
    rcases newest_cases st with ⟨-, hn⟩ | ⟨p, -, hpkgs⟩
    · rw [hn] at hl
      simp at hl
    have hfits := p.fits
    have hpayload := p.sound.payloads pkg (by rw [← hpkgs, hl]; simp)
    rw [← hpkgs, hl, payloadSectors_append, payloadSectors_cons, List.length_append, List.length_append,
      length_sectors] at hfits
    have hlen : 0 < pkg.payload.length := List.length_pos_iff.2 hpayload
    have hdiv : (pkg.entry (0 + (payloadSectors before).length)).payloadOffset / sectorBytes =
        0 + (payloadSectors before).length := Nat.mul_div_cancel _ (by decide)
    have hsector := @payloadSector_ok store (newest st).slot (0 + (payloadSectors before).length) (by omega)
    change (store.payloadSector _ ((0 + (payloadSectors before).length) * sectorBytes) >>= _) = _
    rw [hsector, infoOf, hdiv]
    rfl
  unfold packages
  rw [value_bind_readOnly readOnly_recover (value_recover h)]
  change (lift ((layout 0 (newest st).pkgs).mapM (store.packageInfo (newest st).slot)) >>= _ : M _).value d = _
  rw [mapM_ok hinfo]
  change Except.ok (StoreState.mk _ (layout 0 (newest st).pkgs).length, _) = _
  rw [length_layout]
  rfl

end Store

end MakOS.PackageStore
