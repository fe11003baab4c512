/-
What `commit` writes: the header of the target slot marked as being prepared, a flush, the payloads
and the catalog of the new packages, a flush, the committed header, a flush. When the payloads do
not fit it stops after those that do.
-/
import MakOS.PackageStore.Recovery

namespace MakOS.PackageStore

open MakOS.Bytes MakOS.Device Prog

namespace Store

variable {store : Store}

/-! ## Writing payloads -/

theorem write_does {slot : Fin 2} {k : Nat} (input : Sector) {d : Dev Sector} (hsize : d.size = store.sectorCount)
    (hk : k < store.slotSectors) :
    (write (store.slotBase slot + k) input).Does d (.ok ()) [.write (store.slotBase slot + k) [input]] := by
  have hslot := store.slotBase_le slot
  exact does_writeOne _ _ (by omega)

theorem writePiece_does {slot : Fin 2} {k : Nat} (bytes : List UInt8) {d : Dev Sector} (hsize : d.size = store.sectorCount)
    (hk : payloadStartSector + k < store.slotSectors) :
    (store.writePiece slot (k * sectorBytes) bytes).Does d (.ok (k * sectorBytes + bytes.length))
      [.write (store.slotBase slot + (payloadStartSector + k)) [toSector bytes]] := by
  unfold writePiece
  rw [payloadSector_ok hk]
  exact (write_does (toSector bytes) hsize hk).map _

variable {slot : Fin 2}

/-- A loop over the pieces of a payload that writes each piece where the last one ended. `pos` is the
part of the loop's state that says where that is. -/
theorem foldEach_pieces {σ : Type} {f : σ → List UInt8 → M σ} {g : σ → List UInt8 → σ} (pos : σ → Nat)
    (hpos : ∀ s bytes, pos (g s bytes) = pos s + bytes.length)
    (hf : ∀ s bytes k d, d.size = store.sectorCount → pos s = k * sectorBytes → payloadStartSector + k < store.slotSectors →
      (f s bytes).Does d (.ok (g s bytes)) [.write (store.slotBase slot + (payloadStartSector + k)) [toSector bytes]])
    (payload : List UInt8) : ∀ (k : Nat) (s : σ) (d : Dev Sector), d.size = store.sectorCount →
    pos s = k * sectorBytes → payloadStartSector + (k + (pieces payload).length) ≤ store.slotSectors →
    (foldEach f (pieces payload) s).Does d (.ok ((pieces payload).foldl g s))
      (writesAt (store.slotBase slot + (payloadStartSector + k)) ((pieces payload).map toSector)) := by
  induction payload using pieces.induct with
  | case1 => intro k s d _ _ _; rw [pieces_nil]; exact does_pure s d
  | case2 byte rest ih =>
    intro k s d hsize hs hk
    have hne : byte :: rest ≠ [] := List.cons_ne_nil _ _
    generalize byte :: rest = payload at *
    rw [pieces_of_ne_nil hne] at hk ⊢
    rw [List.length_cons] at hk
    refine (hf s (payload.take sectorBytes) k d hsize hs (by omega)).bind ?_
    -- a last piece that does not fill its sector is not followed by another
    by_cases hlast : payload.drop sectorBytes = []
    · rw [hlast, pieces_nil]
      exact does_pure _ _
    have hlong : sectorBytes < payload.length := by
      by_contra hc
      exact hlast (List.drop_eq_nil_of_le (by omega))
    have hs' : pos (g s (payload.take sectorBytes)) = (k + 1) * sectorBytes := by
      rw [hpos, hs, List.length_take, Nat.min_eq_left (by omega), Nat.add_mul, Nat.one_mul]
    exact ih (k + 1) _ _ (by rw [size_replay, hsize]) hs' (by omega)

variable {k : Nat} {d : Dev Sector}

theorem writeNewPayload_does (pkg : Pkg) (hsize : d.size = store.sectorCount)
    (hk : payloadStartSector + (k + pkg.sectors.length) ≤ store.slotSectors) :
    (store.writeNewPayload slot (k * sectorBytes) pkg.payload).Does d (.ok (crc32 pkg.payload))
      (writesAt (store.slotBase slot + (payloadStartSector + k)) pkg.sectors) := by
  have hlen : (pieces pkg.payload).length = pkg.sectors.length := (List.length_map _).symm
  refine (foldEach_pieces id (fun _ _ => rfl) ?_ pkg.payload k (k * sectorBytes) d hsize rfl (by rw [hlen]; exact hk)).map _
  rintro s bytes k d hsize rfl hk
  exact writePiece_does bytes hsize hk

/-! ## Copying payloads -/

def InSlot (store : Store) (slot : Fin 2) (lba : Nat) : Prop :=
  store.slotBase slot ≤ lba ∧ lba < store.slotBase slot + store.slotSectors

variable {lba : Nat}

theorem inSlot_unique {slot' : Fin 2} (h : store.InSlot slot lba) (h' : store.InSlot slot' lba) : slot = slot' := by
  unfold InSlot slotBase at h h'
  match slot, slot' with
  | 0, 0 => rfl
  | 1, 1 => rfl
  | 0, 1 => simp at h h'; omega
  | 1, 0 => simp at h h'; omega

variable {bytes : List UInt8} {e : Event Sector}

theorem writePiece_touches {target : Nat}
    (he : e ∈ (store.writePiece slot target bytes).effects d) (ht : e.Touches lba) : store.InSlot slot lba := by
  unfold writePiece at he
  cases hs : store.payloadSector slot target with
  | error error => rw [hs] at he; cases he
  | ok sector =>
    have hlt := payloadSector_lt hs
    rw [hs, lift_ok_bind] at he
    rcases mem_effects_bind he with he | ⟨_, _, he⟩
    · obtain rfl := mem_effects_writeOne he
      obtain rfl := touches_write_one.1 ht
      exact ⟨by omega, hlt.2⟩
    · cases he

theorem copyPiece_touches {progress : Nat × UInt32}
    (he : e ∈ (store.copyPiece slot progress bytes).effects d) (ht : e.Touches lba) : store.InSlot slot lba := by
  rcases mem_effects_bind he with he | ⟨_, _, he⟩
  · exact writePiece_touches he ht
  · cases he

theorem snd_foldl : ∀ (ps : List (List UInt8)) (t : Nat) (crc : UInt32),
    (ps.foldl (fun s bytes => (s.1 + bytes.length, crcUpdate s.2 bytes)) (t, crc)).2 = ps.foldl crcUpdate crc
  | [], _, _ => rfl
  | _ :: ps, _, _ => snd_foldl ps _ _

variable {target : Fin 2} {start : Nat} {pkg : Pkg}

theorem copyPayload_does {source : Fin 2} (hne : source ≠ target)
    (hsize : d.size = store.sectorCount) (h : store.ShowsPayload d source start pkg)
    (hk : payloadStartSector + (k + pkg.sectors.length) ≤ store.slotSectors) :
    (store.copyPayload source (pkg.entry start) target (k * sectorBytes)).Does d (.ok (crc32 pkg.payload))
      (writesAt (store.slotBase target + (payloadStartSector + k)) pkg.sectors) := by
  let I : Dev Sector → Prop := fun d => d.size = store.sectorCount ∧
    d.Shows (store.slotBase source + (payloadStartSector + start)) pkg.sectors
  have hlen : (pieces pkg.payload).length = pkg.sectors.length := (List.length_map _).symm
  -- the copy does not touch what it reads
  have hI : ∀ d s bytes, I d → I ((store.copyPiece target s bytes).after d) := by
    intro d s bytes hd
    refine ⟨by rw [after, size_replay]; exact hd.1, hd.2.replay_of_not fun e he i hi ht => hne ?_⟩
    have h2 := h.2
    exact inSlot_unique ⟨by omega, by omega⟩ (copyPiece_touches he ht)
  obtain ⟨hv, he⟩ := eachSector_pieces hI pkg.payload start (k * sectorBytes, crcNew) d ⟨hsize, h.1⟩
    (fun _ hd => hd) (by rw [hlen]; exact h.2)
  have hwrites := @foldEach_pieces store target _ (store.copyPiece target)
    (fun s bytes => (s.1 + bytes.length, crcUpdate s.2 bytes)) Prod.fst (fun _ _ => rfl) (by
      rintro ⟨t, crc⟩ bytes k d hsize rfl hk
      exact (writePiece_does bytes hsize hk).map _) pkg.payload k (k * sectorBytes, crcNew) d hsize rfl (by rw [hlen]; exact hk)
  have hcrc := snd_foldl (pieces pkg.payload) (k * sectorBytes) crcNew
  rw [crcUpdate_flatten, flatten_pieces] at hcrc
  refine List.append_nil (writesAt _ pkg.sectors) ▸ Prog.Does.bind ⟨hv.trans hwrites.1, he.trans hwrites.2⟩ ?_
  rw [hcrc, if_neg (not_not.2 (show crcFinish (crcUpdate crcNew pkg.payload) = (pkg.entry start).payloadCrc from rfl))]
  exact does_pure _ _

/-! ## Placing all payloads -/

/-- The entry describes the package, apart from where its payload lies. -/
structure Describes (entry : Entry) (pkg : Pkg) : Prop where
  used : entry.used = true
  name : entry.name = pkg.name
  version : entry.version = pkg.version
  dependencies : entry.dependencies = pkg.dependencies
  length : entry.payloadLength = pkg.payload.length

/-- Where `commit` takes the payload of a package from. -/
inductive Available (store : Store) (d : Dev Sector) (active : Snapshot) (replacement : Option (List UInt8 × List UInt8))
    (pkg : Pkg) : Prop
  | given (name : List UInt8) : replacement.filter (fun r => r.1 == pkg.name) = some (name, pkg.payload) →
      Available store d active replacement pkg
  | stored (start : Nat) (old : Pkg) : replacement.filter (fun r => r.1 == pkg.name) = none →
      findEntry active.entries pkg.name = some (old.entry start) → old.payload = pkg.payload →
      store.ShowsPayload d active.slot start old → Available store d active replacement pkg

variable {es : List (Event Sector)}

theorem ShowsPayload.replay (h : store.ShowsPayload d slot start pkg) (hne : slot ≠ target)
    (hes : ∀ e ∈ es, ∀ lba, e.Touches lba → store.InSlot target lba) : store.ShowsPayload (d.replay es) slot start pkg := by
  refine ⟨h.1.replay_of_not fun e he i hi ht => hne ?_, h.2⟩
  have h2 := h.2
  exact inSlot_unique ⟨by omega, by omega⟩ (hes e he _ ht)

variable {active : Snapshot} {replacement : Option (List UInt8 × List UInt8)}

theorem Available.replay (h : Available store d active replacement pkg) (hne : active.slot ≠ target)
    (hes : ∀ e ∈ es, ∀ lba, e.Touches lba → store.InSlot target lba) :
    Available store (d.replay es) active replacement pkg := by
  cases h with
  | given name hr => exact .given name hr
  | stored start old hr hf hp hs => exact .stored start old hr hf hp (hs.replay hne hes)

theorem writesAt_inSlot {slot : Fin 2} {k : Nat} {data : List Sector} (hk : k + data.length ≤ store.slotSectors) :
    ∀ e ∈ writesAt (store.slotBase slot + k) data, ∀ lba, e.Touches lba → store.InSlot slot lba := by
  intro e he lba ht
  have := touches_writesAt he ht
  exact ⟨by omega, by omega⟩

theorem alignSector_ok {cursor : Nat} (hcap : store.capacity < 2 ^ 64) (hc : (cursor + 511) / 512 = k)
    (hk : payloadStartSector + k ≤ store.slotSectors) : alignSector cursor = .ok (k * sectorBytes) := by
  have hlt : store.slotSectors - payloadStartSector < 2 ^ 55 := by
    have : (store.slotSectors - payloadStartSector) * 512 < 2 ^ 55 * 512 := by
      have h2 : (2 : Nat) ^ 55 * 512 = 2 ^ 64 := by norm_num
      rw [h2]; exact hcap
    exact Nat.lt_of_mul_lt_mul_right this
  have h1 : cursor + 511 < (k + 1) * 512 := by omega
  have h2 : (k + 1) * 512 ≤ 2 ^ 55 * 512 := Nat.mul_le_mul_right _ (by omega)
  have h3 : cursor + (sectorBytes - 1) < 2 ^ 64 := lt_of_lt_of_le h1 (le_trans h2 (by norm_num))
  unfold alignSector
  rw [if_pos h3]
  exact congrArg (fun n => Except.ok (n * sectorBytes)) hc

theorem placePayload_does (hsize : d.size = store.sectorCount) (hne : active.slot ≠ target) {entry : Entry}
    (hname : entry.name = pkg.name) (h : Available store d active replacement pkg)
    (hk : payloadStartSector + (k + pkg.sectors.length) ≤ store.slotSectors) :
    (store.placePayload active target replacement entry (k * sectorBytes)).Does d (.ok (crc32 pkg.payload))
      (writesAt (store.slotBase target + (payloadStartSector + k)) pkg.sectors) := by
  unfold placePayload
  rw [hname]
  cases h with
  | given name hr =>
    rw [hr]
    exact writeNewPayload_does pkg hsize hk
  | stored start old hr hf hp hs =>
    have hsec : old.sectors = pkg.sectors := by rw [Pkg.sectors, Pkg.sectors, hp]
    rw [hr, hf, ← hp, ← hsec]
    exact copyPayload_does hne hsize hs (by rw [hsec]; exact hk)

/-- The packages before the first whose payload does not fit, from the given payload sector on. -/
def fitting (store : Store) : (k : Nat) → List Pkg → List Pkg
  | _, [] => []
  | k, pkg :: rest =>
    if payloadStartSector + (k + pkg.sectors.length) ≤ store.slotSectors then
      pkg :: fitting store (k + pkg.sectors.length) rest
    else []

theorem fitting_fits : ∀ {k : Nat} {pkgs : List Pkg}, payloadStartSector + k ≤ store.slotSectors →
    payloadStartSector + (k + (payloadSectors (store.fitting k pkgs)).length) ≤ store.slotSectors
  | _, [], h => h
  | k, pkg :: rest, h => by
    unfold fitting
    split
    · rename_i hone
      have := @fitting_fits (k + pkg.sectors.length) rest hone
      rw [payloadSectors_cons, List.length_append]
      omega
    · exact h

theorem fitting_eq : ∀ {k : Nat} {pkgs : List Pkg},
    payloadStartSector + (k + (payloadSectors pkgs).length) ≤ store.slotSectors → store.fitting k pkgs = pkgs
  | _, [], _ => rfl
  | k, pkg :: rest, h => by
    rw [payloadSectors_cons, List.length_append] at h
    rw [fitting, if_pos (by omega), fitting_eq (by omega)]

/-- The payloads are placed one after another, up to the first that does not fit. -/
theorem placePayloads_does (hcap : store.capacity < 2 ^ 64) (hne : active.slot ≠ target) {entries : List Entry}
    {pkgs : List Pkg} {cursor k : Nat} {d : Dev Sector} (hsize : d.size = store.sectorCount)
    (hds : List.Forall₂ Describes entries pkgs) (ha : ∀ pkg ∈ pkgs, Available store d active replacement pkg)
    (hc : (cursor + 511) / 512 = k) (hk : payloadStartSector + k ≤ store.slotSectors) :
    (store.placePayloads active target replacement entries cursor).Does d
      (if payloadStartSector + (k + (payloadSectors pkgs).length) ≤ store.slotSectors then .ok (layout k pkgs)
        else .error .noSpace)
      (writesAt (store.slotBase target + (payloadStartSector + k)) (payloadSectors (store.fitting k pkgs))) := by
  induction hds generalizing cursor k d with
  | nil =>
    change (Prog.pure [] : M (List Entry)).Does d (if payloadStartSector + k ≤ store.slotSectors then .ok [] else _) []
    rw [if_pos hk]
    exact does_pure _ d
  | @cons entry pkg entries pkgs hd hds ih =>
    have hlen := length_sectors pkg
    rw [placePayloads, alignSector_ok hcap hc hk, lift_ok_bind, hd.length, fitting, payloadSectors_cons, List.length_append]
    by_cases hone : payloadStartSector + (k + pkg.sectors.length) ≤ store.slotSectors
    · have hroom : ¬ k * sectorBytes + pkg.payload.length > store.capacity := by
        change ¬ (store.slotSectors - payloadStartSector) * 512 < k * 512 + pkg.payload.length
        omega
      have hnext : (k * sectorBytes + pkg.payload.length + 511) / 512 = k + pkg.sectors.length := by
        rw [sectorBytes]; omega
      have hin := @writesAt_inSlot store target (payloadStartSector + k) pkg.sectors (by omega)
      rw [if_neg hroom, if_pos hone, payloadSectors_cons, writesAt_append]
      refine (placePayload_does hsize hne hd.name (ha pkg List.mem_cons_self) hone).bind ?_
      have hrest := (ih (by rw [size_replay]; exact hsize)
        (fun p hp => (ha p (List.mem_cons_of_mem _ hp)).replay hne hin) hnext hone).map (pkg.entry k :: ·)
      rw [apply_ite (Except.map _), Nat.add_assoc k] at hrest
      rw [hd.used, hd.name, hd.version, hd.dependencies, Nat.add_assoc, Nat.add_assoc]
      exact hrest
    · have hover : k * sectorBytes + pkg.payload.length > store.capacity := by
        change (store.slotSectors - payloadStartSector) * 512 < k * 512 + pkg.payload.length
        omega
      rw [if_pos hover, if_neg hone, if_neg (by omega)]
      exact does_throw _ d

/-! ## The commit -/

theorem writeCatalog_does {slot : Fin 2} (catalog : Catalog) {d : Dev Sector} (hsize : d.size = store.sectorCount) :
    (store.writeCatalog slot catalog).Does d (.ok ()) (writesAt (store.slotBase slot + 1) catalog.toList) := by
  have hslot := store.slotBase_le slot
  have hlarge := store.large
  simp only [payloadStartSector, catalogSectors] at hlarge
  have hwrites := @forEach_writeOne Sector Error .io (store.slotBase slot + 1)
    (fun index => catalog[index]?.getD (zeros 512)) (List.range catalogSectors) d fun i hi => by
      have := List.mem_range.1 hi
      simp only [catalogSectors] at this
      omega
  obtain ⟨⟨sectors⟩, hl⟩ := catalog
  obtain ⟨a, b, c, e, rfl⟩ := List.length_eq_four.1 hl
  exact hwrites

/-- The two requests that mark a slot as being prepared. -/
def commitStart (store : Store) (slot : Fin 2) (generation count : Nat) : List (Event Sector) :=
  [.write (store.slotBase slot) [preparingHeader generation count], .flush]

def commitBody (store : Store) (slot : Fin 2) (pkgs : List Pkg) : List (Event Sector) :=
  writesAt (store.slotBase slot + payloadStartSector) (payloadSectors pkgs) ++
    writesAt (store.slotBase slot + 1) (catalogOf pkgs).toList

def commitEnd (store : Store) (slot : Fin 2) (generation : Nat) (pkgs : List Pkg) : List (Event Sector) :=
  [.flush, .write (store.slotBase slot) [committedHeader generation pkgs], .flush]

theorem beginCommit_does {slot : Fin 2} (generation count : Nat) {d : Dev Sector} (hsize : d.size = store.sectorCount) :
    (store.beginCommit slot generation count).Does d (.ok ()) (store.commitStart slot generation count) := by
  have hlarge := store.large
  exact (write_does (k := 0) (preparingHeader generation count) hsize (by omega)).bind (does_sync _)

theorem finishCommit_does {slot : Fin 2} (generation : Nat) (pkgs : List Pkg) {d : Dev Sector}
    (hsize : d.size = store.sectorCount) :
    (store.finishCommit slot generation pkgs.length (layout 0 pkgs)).Does d (.ok ())
      (writesAt (store.slotBase slot + 1) (catalogOf pkgs).toList ++ store.commitEnd slot generation pkgs) := by
  have hlarge := store.large
  refine (writeCatalog_does (catalogOf pkgs) hsize).bind ((does_sync _).bind ?_)
  exact (write_does (k := 0) (committedHeader generation pkgs) (by rw [size_replay, size_replay, hsize]) (by omega)).bind
    (does_sync _)

theorem commitStart_inSlot (slot : Fin 2) (generation count : Nat) :
    ∀ e ∈ store.commitStart slot generation count, ∀ lba, e.Touches lba → store.InSlot slot lba := by
  have hlarge := store.large
  intro e he lba ht
  simp only [commitStart, List.mem_cons, List.not_mem_nil, or_false] at he
  rcases he with rfl | rfl
  · obtain rfl := touches_write_one.1 ht
    exact ⟨le_refl _, by omega⟩
  · obtain ⟨s, hs⟩ := ht
    cases hs

section Commit

variable {active : Snapshot} {target : Fin 2} {entries : List Entry} {replacement : Option (List UInt8 × List UInt8)}
  {pkgs : List Pkg} {d : Dev Sector}

theorem commit_large (hcap : store.capacity ≥ 2 ^ 64) (next : Snapshot) :
    (store.commit active next replacement).Does d (.error .noSpace) [] := by
  rw [commit, if_pos hcap]
  exact does_throw _ d

variable (hsize : d.size = store.sectorCount) (hcap : store.capacity < 2 ^ 64) (hne : active.slot ≠ target)
  (hd : List.Forall₂ Describes entries pkgs) (ha : ∀ pkg ∈ pkgs, Available store d active replacement pkg)
include hsize hcap hne hd ha

/-- The payloads are placed once the slot is marked. -/
theorem placePayloads_commit (generation : Nat) : (store.placePayloads active target replacement entries 0).Does
    (d.replay (store.commitStart target generation pkgs.length))
    (if payloadStartSector + (payloadSectors pkgs).length ≤ store.slotSectors then .ok (layout 0 pkgs) else .error .noSpace)
    (writesAt (store.slotBase target + payloadStartSector) (payloadSectors (store.fitting 0 pkgs))) := by
  have hlarge := store.large
  have hplaced := placePayloads_does (k := 0) hcap hne (by rw [size_replay]; exact hsize) hd
    (fun pkg hp => (ha pkg hp).replay hne (commitStart_inSlot target generation pkgs.length)) (show (0 + 511) / 512 = 0 from rfl) (by omega)
  rw [Nat.zero_add] at hplaced
  exact hplaced

theorem commit_ok (hfits : payloadStartSector + (payloadSectors pkgs).length ≤ store.slotSectors) (generation : Nat) :
    (store.commit active ⟨target, generation, entries⟩ replacement).Does d (.ok ())
      (store.commitStart target generation pkgs.length ++ store.commitBody target pkgs ++
        store.commitEnd target generation pkgs) := by
  have hplaced := placePayloads_commit hsize hcap hne hd ha generation
  rw [if_pos hfits, fitting_eq (by omega)] at hplaced
  rw [commit, if_neg (by omega), hd.length_eq, commitBody, List.append_assoc, List.append_assoc]
  exact (beginCommit_does generation pkgs.length hsize).bind
    (hplaced.bind (finishCommit_does generation pkgs (by rw [size_replay, size_replay]; exact hsize)))

/-- A commit whose payloads do not all fit fails, after writing some of them. -/
theorem commit_noSpace (hfull : ¬ payloadStartSector + (payloadSectors pkgs).length ≤ store.slotSectors) (generation : Nat) :
    (store.commit active ⟨target, generation, entries⟩ replacement).Does d (.error .noSpace)
      (store.commitStart target generation pkgs.length ++
        writesAt (store.slotBase target + payloadStartSector) (payloadSectors (store.fitting 0 pkgs))) := by
  have hplaced := placePayloads_commit hsize hcap hne hd ha generation
  rw [if_neg hfull] at hplaced
  rw [commit, if_neg (by omega), hd.length_eq]
  exact (beginCommit_does generation pkgs.length hsize).bind hplaced.bind_error

end Commit

end Store

end MakOS.PackageStore
