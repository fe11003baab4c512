/-
Reading a slot back. A slot whose header is blank or marked as being prepared holds no snapshot; a
slot that shows a committed header and the sectors of a set of packages is read as the snapshot of
exactly those packages. `recover` and `rollback` then choose between the two slots by generation.
-/
import MakOS.PackageStore.Layout

namespace MakOS.PackageStore

open MakOS.Bytes MakOS.Device Prog

namespace Store

variable {store : Store}

/-! ## Payloads -/

theorem payloadSector_ok {slot : Fin 2} {k : Nat} (h : payloadStartSector + k < store.slotSectors) :
    store.payloadSector slot (k * sectorBytes) = .ok (store.slotBase slot + (payloadStartSector + k)) := by
  have hdiv : k * sectorBytes / sectorBytes = k := Nat.mul_div_cancel _ (by decide)
  unfold payloadSector
  rw [if_neg (by simp [Nat.mul_mod_left]), hdiv, if_neg (by omega)]

variable {slot : Fin 2}

theorem payloadSector_lt {offset sector : Nat} (h : store.payloadSector slot offset = .ok sector) :
    store.slotBase slot + payloadStartSector ≤ sector ∧ sector < store.slotBase slot + store.slotSectors := by
  unfold payloadSector at h
  split at h
  · cases h
  split at h
  · cases h
  · generalize offset / sectorBytes = k at *
    cases h
    omega

theorem readOnly_read (sector : Nat) : (read sector).ReadOnly := by
  rintro (_ | v) <;> trivial

theorem value_read {sector : Nat} {d : Dev Sector} (h : sector < d.size) : (read sector).value d = .ok (d.view sector) :=
  value_readOne h

theorem slotBase_le (slot : Fin 2) : store.slotBase slot + store.slotSectors ≤ store.sectorCount := by
  have := store.fits
  have hs : slot.val ≤ 1 := Nat.le_of_lt_succ slot.isLt
  have : slot.val * store.slotSectors ≤ 1 * store.slotSectors := Nat.mul_le_mul_right _ hs
  unfold slotBase
  omega

variable {σ : Type}

theorem eachSector_zero (slot : Fin 2) (f : σ → List UInt8 → M σ) (offset : Nat) (s : σ) :
    store.eachSector slot f 0 offset s = .pure s := by
  rw [eachSector]; rfl

variable {f : σ → List UInt8 → M σ}

theorem readOnly_eachSector (slot : Fin 2) (hf : ∀ s bytes, (f s bytes).ReadOnly)
    (remaining offset : Nat) (s : σ) : (store.eachSector slot f remaining offset s).ReadOnly := by
  fun_induction eachSector with
  | case1 => trivial
  | case2 remaining offset s hne ih =>
    exact readOnly_bind (fun _ => readOnly_bind (fun _ => readOnly_bind ih (hf _ _)) (readOnly_read _)) (readOnly_lift _)

/-- The loop over a payload that the device shows is the loop over the payload's pieces. The body may
write, as long as it keeps the payload (`I`). -/
theorem eachSector_pieces {I : Dev Sector → Prop}
    (hI : ∀ d s bytes, I d → I ((f s bytes).after d)) (payload : List UInt8) : ∀ (k : Nat) (s : σ) (d : Dev Sector),
    I d → (∀ d, I d → d.size = store.sectorCount ∧
      d.Shows (store.slotBase slot + (payloadStartSector + k)) ((pieces payload).map toSector)) →
    payloadStartSector + (k + (pieces payload).length) ≤ store.slotSectors →
    let loop := foldEach f (pieces payload) s
    (store.eachSector slot f payload.length (k * sectorBytes) s).Does d (loop.value d) (loop.effects d) := by
  dsimp only
  induction payload using pieces.induct with
  | case1 =>
    intro k s d _ _ _
    rw [pieces_nil, List.length_nil, eachSector_zero]
    exact ⟨rfl, rfl⟩
  | case2 byte rest ih =>
    intro k s d hd hshow hk
    have hne : byte :: rest ≠ [] := List.cons_ne_nil _ _
    generalize byte :: rest = payload at *
    have hpos : payload.length ≠ 0 := fun h => hne (List.length_eq_zero_iff.1 h)
    rw [pieces_of_ne_nil hne] at hshow hk ⊢
    rw [List.length_cons] at hk
    have hslot := store.slotBase_le slot
    obtain ⟨hsize, hs⟩ := hshow d hd
    rw [List.map_cons, shows_cons] at hs
    rw [eachSector, if_neg hpos, payloadSector_ok (by omega), lift_ok_bind, foldEach]
    refine Prog.Does.bind_readOnly ?_ (readOnly_read _) (value_read (by omega))
    dsimp only
    generalize hn : min payload.length sectorBytes = n
    -- what the loop reads in this round
    have hpiece : (payload.take sectorBytes).length = n := by rw [List.length_take, Nat.min_comm, hn]
    rw [hs.1, ← hpiece, slice_toSector (by omega), hpiece]
    -- the rest of the loop, from any device the body can leave
    have hrest : ∀ s' d', I d' → let loop := foldEach f (pieces (payload.drop sectorBytes)) s'
        (store.eachSector slot f (payload.length - n) (k * sectorBytes + n) s').Does d' (loop.value d') (loop.effects d') := by
      intro s' d' hd'
      have hlen : payload.length - n = (payload.drop sectorBytes).length := by
        rw [List.length_drop]; omega
      by_cases hlast : payload.drop sectorBytes = []
      · rw [hlen, hlast, List.length_nil, eachSector_zero, pieces_nil]
        exact ⟨rfl, rfl⟩
      have hlong : sectorBytes < payload.length := by
        by_contra hc
        exact hlast (List.drop_eq_nil_of_le (by omega))
      have hoff : k * sectorBytes + n = (k + 1) * sectorBytes := by
        rw [Nat.add_mul]; omega
      rw [hlen, hoff]
      refine ih (k + 1) s' d' hd' (fun d'' hd'' => ?_) (by omega)
      obtain ⟨hsize'', hs''⟩ := hshow d'' hd''
      rw [List.map_cons, shows_cons] at hs''
      exact ⟨hsize'', by rw [← Nat.add_assoc, ← Nat.add_assoc]; rw [← Nat.add_assoc] at hs''; exact hs''.2⟩
    cases hf : (f s (payload.take sectorBytes)).value d with
    | error e =>
      rw [value_bind_error hf, effects_bind_error hf]
      exact Prog.Does.bind_error ⟨hf, rfl⟩
    | ok s' =>
      rw [value_bind_ok hf, effects_bind_ok hf]
      exact Prog.Does.bind ⟨hf, rfl⟩ (hrest s' _ (hI d s _ hd))

/-- The payload area of the slot shows the payload from the given payload sector on. -/
def ShowsPayload (store : Store) (d : Dev Sector) (slot : Fin 2) (start : Nat) (pkg : Pkg) : Prop :=
  d.Shows (store.slotBase slot + (payloadStartSector + start)) pkg.sectors ∧
    payloadStartSector + (start + pkg.sectors.length) ≤ store.slotSectors

variable {d : Dev Sector} {start : Nat} {pkg : Pkg}

theorem eachSector_pure (hsize : d.size = store.sectorCount) (h : store.ShowsPayload d slot start pkg) (g : σ → List UInt8 → σ) (s : σ) :
    (store.eachSector slot (fun s bytes => .pure (g s bytes)) (pkg.entry start).payloadLength
      (pkg.entry start).payloadOffset s).value d = .ok ((pieces pkg.payload).foldl g s) := by
  have hlen : (pieces pkg.payload).length = pkg.sectors.length := (List.length_map _).symm
  have hI : ∀ (d' : Dev Sector) s bytes, d' = d → ((.pure (g s bytes) : M σ).after d') = d := by
    intro d' s bytes hd'
    rw [hd']; rfl
  refine ((eachSector_pieces hI pkg.payload start s d rfl (fun d' hd' => ?_) (by rw [hlen]; exact h.2)).1).trans
    (value_foldEach_pure g d _ s)
  rw [hd']
  exact ⟨hsize, h.1⟩

theorem crcUpdate_flatten : ∀ (xs : List (List UInt8)) (crc : UInt32), xs.foldl crcUpdate crc = crcUpdate crc xs.flatten
  | [], _ => rfl
  | x :: xs, crc => by rw [List.foldl_cons, List.flatten_cons, crcUpdate_flatten xs, crcUpdate, crcUpdate, crcUpdate, List.foldl_append]

theorem append_flatten : ∀ (xs : List (List UInt8)) (ys : List UInt8), xs.foldl (· ++ ·) ys = ys ++ xs.flatten
  | [], ys => by simp
  | x :: xs, ys => by rw [List.foldl_cons, List.flatten_cons, append_flatten xs, List.append_assoc]

theorem readOnly_eachSector_pure (slot : Fin 2) (g : σ → List UInt8 → σ) (remaining offset : Nat) (s : σ) :
    (store.eachSector slot (fun s bytes => .pure (g s bytes)) remaining offset s).ReadOnly :=
  readOnly_eachSector slot (fun _ _ => by trivial) remaining offset s

variable (hsize : d.size = store.sectorCount)
include hsize

theorem value_validatePayload (hcap : store.capacity < 2 ^ 64) (h : store.ShowsPayload d slot start pkg) :
    (store.validatePayload slot (pkg.entry start)).value d = .ok () := by
  have hcrc := eachSector_pure hsize h crcUpdate crcNew
  rw [crcUpdate_flatten, flatten_pieces] at hcrc
  have hend : (pkg.entry start).payloadOffset + (pkg.entry start).payloadLength ≤ store.capacity % 2 ^ 64 := by
    have h2 := h.2
    rw [length_sectors] at h2
    rw [Nat.mod_eq_of_lt hcap]
    change start * 512 + pkg.payload.length ≤ (store.slotSectors - payloadStartSector) * 512
    omega
  unfold validatePayload
  rw [if_neg (by omega), value_bind_readOnly (readOnly_eachSector_pure ..) hcrc]
  rw [if_neg (not_not.2 (show crcFinish (crcUpdate crcNew pkg.payload) = (pkg.entry start).payloadCrc from rfl))]
  rfl

theorem value_readPayloadBytes (h : store.ShowsPayload d slot start pkg) :
    (store.readPayloadBytes slot (pkg.entry start)).value d = .ok pkg.payload := by
  have hbytes := eachSector_pure hsize h (· ++ ·) []
  rw [append_flatten, flatten_pieces, List.nil_append] at hbytes
  exact hbytes

omit hsize

theorem readOnly_validatePayload (slot : Fin 2) (entry : Entry) : (store.validatePayload slot entry).ReadOnly := by
  unfold validatePayload
  split
  · trivial
  · refine readOnly_bind (fun crc => ?_) (readOnly_eachSector_pure ..)
    split <;> trivial

/-! ## Snapshots -/

/-- The header of a slot that holds no snapshot. -/
def Idle (sector : Sector) : Prop :=
  isBlank sector = true ∨ ∃ generation count, generation < 2 ^ 64 ∧ count ≤ maxPackages ∧
    sector = preparingHeader generation count

variable {generation : Nat}

theorem committedHeader_decode (hg : generation < 2 ^ 64) (p : Packages store) :
    decodeHeader (committedHeader generation p.list) =
      .ok ⟨generation, p.list.length, crc32Sectors (catalogOf p.list), headerCommitted⟩ :=
  decodeHeader_encodeHeader p.sound.few hg

theorem Idle.ne_committed {sector : Sector} (h : Idle sector) (hg : generation < 2 ^ 64)
    (p : Packages store) : sector ≠ committedHeader generation p.list := by
  rintro rfl
  rcases h with hblank | ⟨g, count, hg', hc, heq⟩
  · rw [committedHeader, not_isBlank_encodeHeader] at hblank
    cases hblank
  have hdecode := committedHeader_decode hg p
  rw [heq, preparingHeader, decodeHeader_encodeHeader hc hg'] at hdecode
  have := congrArg Header.state (Except.ok.inj hdecode)
  exact absurd this (show headerPreparing ≠ headerCommitted by decide)

/-- What the device shows of a slot: no snapshot, or the packages of a generation. -/
def ShowsSlot (store : Store) (d : Dev Sector) (slot : Fin 2) : Option (Nat × Packages store) → Prop
  | none => Idle (d.view (store.slotBase slot))
  | some (generation, p) => generation < 2 ^ 64 ∧ d.view (store.slotBase slot) = committedHeader generation p.list ∧
      d.Shows (store.slotBase slot + 1) (slotData p.list)

def snapshotOf (slot : Fin 2) : Option (Nat × Packages store) → Except Error Snapshot
  | none => .error .notInstalled
  | some (generation, p) => .ok ⟨slot, generation, layout 0 p.list⟩

theorem readOnly_readCatalog (slot : Fin 2) : (store.readCatalog slot).ReadOnly :=
  readOnly_bind (fun _ => readOnly_bind (fun _ => readOnly_bind (fun _ => readOnly_bind (fun _ => by trivial)
    (readOnly_read _)) (readOnly_read _)) (readOnly_read _)) (readOnly_read _)

theorem readOnly_readSnapshot (slot : Fin 2) : (store.readSnapshot slot).ReadOnly := by
  unfold readSnapshot readEntries
  repeat' first | exact readOnly_readCatalog slot | refine readOnly_bind (fun _ => ?_) ?_ | split
  all_goals
    first | trivial | exact readOnly_read _ | exact readOnly_lift _ | exact readOnly_forEach (readOnly_validatePayload slot) _

theorem value_readCatalog (hsize : d.size = store.sectorCount) {catalog : Catalog}
    (h : d.Shows (store.slotBase slot + 1) catalog.toList) : (store.readCatalog slot).value d = .ok catalog := by
  have hslot := store.slotBase_le slot
  have hlarge := store.large
  have hlen : catalog.toList.length = 4 := Vector.length_toList ..
  simp only [payloadStartSector, catalogSectors] at hlarge
  have hread : ∀ i (hi : i < 4), (read (store.slotBase slot + 1 + i)).value d = .ok catalog[i] := by
    intro i hi
    rw [value_read (by omega), h i (by omega), Vector.getElem_toList]
  unfold readCatalog
  rw [value_bind_readOnly (readOnly_read _) (hread 0 (by omega)),
    value_bind_readOnly (readOnly_read _) (hread 1 (by omega)),
    value_bind_readOnly (readOnly_read _) (hread 2 (by omega)),
    value_bind_readOnly (readOnly_read _) (hread 3 (by omega))]
  refine congrArg Except.ok (Vector.ext fun i hi => ?_)
  match i, hi with
  | 0, _ | 1, _ | 2, _ | 3, _ => rfl

theorem showsPayload_of_slotData (p : Packages store)
    (h : d.Shows (store.slotBase slot + 1) (slotData p.list)) {before after : List Pkg}
    (hl : p.list = before ++ pkg :: after) : store.ShowsPayload d slot (payloadSectors before).length pkg := by
  have hfits := p.fits
  unfold slotData at h
  rw [shows_append] at h
  have h2 := h.2
  rw [hl, payloadSectors_append, payloadSectors_cons, shows_append, shows_append] at h2
  rw [hl, payloadSectors_append, payloadSectors_cons, List.length_append, List.length_append] at hfits
  refine ⟨?_, by omega⟩
  rw [← Nat.add_assoc]
  exact h2.2.1

include hsize

theorem value_readEntries (p : Packages store)
    (h : d.Shows (store.slotBase slot + 1) (slotData p.list)) (generation : Nat) (state : UInt32) :
    (store.readEntries slot ⟨generation, p.list.length, crc32Sectors (catalogOf p.list), state⟩).value d =
      .ok ⟨slot, generation, layout 0 p.list⟩ := by
  have hcatalog : (store.readCatalog slot).value d = .ok (catalogOf p.list) := by
    have h' := h
    unfold slotData at h'
    rw [shows_append] at h'
    exact value_readCatalog hsize h'.1
  have hentries : decodeEntries (catalogOf p.list) p.list.length 0 = .ok (layout 0 p.list) := by
    have hfew : (layout 0 p.list).length ≤ maxPackages := by rw [length_layout]; exact p.sound.few
    have := decodeEntries_encodeCatalog hfew (validEntry_layout p)
    rwa [length_layout] at this
  have hpayloads : (forEach (store.validatePayload slot) (layout 0 p.list)).value d = .ok () := by
    refine value_forEach_readOnly (readOnly_validatePayload slot) fun entry he => ?_
    obtain ⟨before, pkg, after, hl, rfl⟩ := mem_layout he
    rw [Nat.zero_add]
    exact value_validatePayload hsize p.addressable (showsPayload_of_slotData p h hl)
  unfold readEntries
  rw [value_bind_readOnly (readOnly_readCatalog slot) hcatalog, if_neg (by simp), hentries, lift_ok_bind,
    p.sound.dependencies]
  exact value_bind_readOnly (readOnly_forEach (readOnly_validatePayload slot) _) hpayloads

theorem value_readSnapshot {st : Option (Nat × Packages store)} (h : store.ShowsSlot d slot st) :
    (store.readSnapshot slot).value d = snapshotOf slot st := by
  have hslot := store.slotBase_le slot
  have hlarge := store.large
  have hread : (read (store.slotBase slot)).value d = .ok (d.view (store.slotBase slot)) := value_read (by omega)
  unfold readSnapshot
  rw [value_bind_readOnly (readOnly_read _) hread]
  rcases st with _ | ⟨generation, p⟩
  · rcases h with hblank | ⟨generation, count, hg, hc, hp⟩
    · rw [if_pos hblank]; rfl
    · rw [hp, preparingHeader, if_neg (by rw [not_isBlank_encodeHeader]; simp), decodeHeader_encodeHeader hc hg]
      rfl
  · obtain ⟨hg, hh, hs⟩ := h
    rw [hh, committedHeader, if_neg (by rw [not_isBlank_encodeHeader]; simp), decodeHeader_encodeHeader p.sound.few hg]
    exact value_readEntries hsize p hs generation headerCommitted

omit hsize

/-! ## Choosing a slot -/

variable {α : Type}

theorem readOnly_readSlots {k : Except Error Snapshot → Except Error Snapshot → M α}
    (hk : ∀ a b, (k a b).ReadOnly) : (store.readSlots k).ReadOnly := by
  refine readOnly_bind (fun first => readOnly_bind (fun second => ?_) (readOnly_attempt (readOnly_readSnapshot 1)))
    (readOnly_attempt (readOnly_readSnapshot 0))
  split
  · trivial
  · exact hk first second

def ShowsSlots (store : Store) (d : Dev Sector) (st : Fin 2 → Option (Nat × Packages store)) : Prop :=
  d.size = store.sectorCount ∧ ∀ slot, store.ShowsSlot d slot (st slot)

theorem isIo_snapshotOf (slot : Fin 2) (st : Option (Nat × Packages store)) : isIo (snapshotOf slot st) = false := by
  rcases st with _ | ⟨generation, p⟩ <;> rfl

theorem readSlots_shows {st : Fin 2 → Option (Nat × Packages store)}
    (h : store.ShowsSlots d st) (k : Except Error Snapshot → Except Error Snapshot → M α) :
    (store.readSlots k).value d = (k (snapshotOf 0 (st 0)) (snapshotOf 1 (st 1))).value d ∧
      (store.readSlots k).effects d = (k (snapshotOf 0 (st 0)) (snapshotOf 1 (st 1))).effects d := by
  have h0 : ((store.readSnapshot 0).attempt : M _).value d = .ok (snapshotOf 0 (st 0)) := by
    rw [value_attempt, value_readSnapshot h.1 (h.2 0)]
  have h1 : ((store.readSnapshot 1).attempt : M _).value d = .ok (snapshotOf 1 (st 1)) := by
    rw [value_attempt, value_readSnapshot h.1 (h.2 1)]
  have r0 : ((store.readSnapshot 0).attempt : M _).ReadOnly := readOnly_attempt (readOnly_readSnapshot 0)
  have r1 : ((store.readSnapshot 1).attempt : M _).ReadOnly := readOnly_attempt (readOnly_readSnapshot 1)
  unfold readSlots
  rw [value_bind_readOnly r0 h0, value_bind_readOnly r1 h1, effects_bind_readOnly r0 h0,
    effects_bind_readOnly r1 h1, isIo_snapshotOf, isIo_snapshotOf]
  exact ⟨rfl, rfl⟩

end Store

end MakOS.PackageStore
