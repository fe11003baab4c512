/-
A sector device with a volatile write cache. Reads return the cache's view; a completed flush makes
the view durable; after a power loss every sector independently holds its last durable content or
the content of some write issued since, whether that write was reported as done or as failed.

`Always` is the invariant of such a device that survives everything but a bad write: a property of
every content a sector has now or could have after a power loss.
-/
import Mathlib.Tactic

namespace MakOS.Device

variable {S : Type}

/-! ## State and requests -/

/-- A served request. A failed write carries, per sector, whether later reads see it; whatever
`seen` says, it may reach the medium. -/
inductive Event (S : Type)
  | read (lba count : Nat)
  | readFail (lba count : Nat)
  | write (lba : Nat) (data : List S)
  | writeFail (lba : Nat) (data : List S) (seen : List Bool)
  | flush
  | flushFail

def Event.Done : Event S → Prop
  | .read .. | .write .. | .flush => True
  | .readFail .. | .writeFail .. | .flushFail => False

def Event.IsRead : Event S → Prop
  | .read .. | .readFail .. => True
  | _ => False

def sectorWrites (lba : Nat) (data : List S) : List (Nat × S) :=
  data.mapIdx fun i s => (lba + i, s)

def Event.writes : Event S → List (Nat × S)
  | .write lba data | .writeFail lba data _ => sectorWrites lba data
  | _ => []

/-- The request may change the sector. -/
def Event.Touches (lba : Nat) (e : Event S) : Prop := ∃ s, (lba, s) ∈ e.writes

structure Dev (S : Type) where
  /-- number of sectors -/
  size : Nat
  /-- what reads return -/
  view : Nat → S
  /-- what the last completed flush left on the medium -/
  durable : Nat → S
  /-- writes issued since the last completed flush -/
  pending : List (Nat × S)

/-- A device just powered on with the given medium. -/
def Dev.ofImage (size : Nat) (image : Nat → S) : Dev S := ⟨size, image, image, []⟩

def overlay (image : Nat → S) (lba : Nat) (data : List S) : Nat → S := fun i =>
  if h : lba ≤ i ∧ i < lba + data.length then data.get ⟨i - lba, by omega⟩ else image i

/-- Overwrite those of consecutive sectors that are marked. -/
def overlaySeen (image : Nat → S) (lba : Nat) (data : List S) (seen : List Bool) : Nat → S := fun i =>
  if (seen[i - lba]?).getD false then overlay image lba data i else image i

def Dev.apply (d : Dev S) : Event S → Dev S
  | .read .. | .readFail .. | .flushFail => d
  | .write lba data =>
    { d with view := overlay d.view lba data, pending := sectorWrites lba data ++ d.pending }
  | .writeFail lba data seen =>
    { d with view := overlaySeen d.view lba data seen, pending := sectorWrites lba data ++ d.pending }
  | .flush => { d with durable := d.view, pending := [] }

def Dev.replay (d : Dev S) (events : List (Event S)) : Dev S := events.foldl Dev.apply d

/-- A medium the device can be found with after losing power. -/
def Dev.Crash (d : Dev S) (image : Nat → S) : Prop :=
  ∀ lba, image lba = d.durable lba ∨ (lba, image lba) ∈ d.pending

@[simp] theorem replay_nil (d : Dev S) : d.replay [] = d := rfl
@[simp] theorem replay_cons (d : Dev S) (e : Event S) (es : List (Event S)) :
    d.replay (e :: es) = (d.apply e).replay es := rfl
@[simp] theorem replay_append (d : Dev S) (es es' : List (Event S)) :
    d.replay (es ++ es') = (d.replay es).replay es' := by simp [Dev.replay]

/-- What holds at the start and from the first event on holds all the way. -/
theorem replay_take_cons {I : Dev S → Prop} {d : Dev S} {e : Event S} {es : List (Event S)} (hI : I d)
    (h : ∀ n, I ((d.apply e).replay (es.take n))) : ∀ n, I (d.replay ((e :: es).take n))
  | 0 => hI
  | n + 1 => h n

@[simp] theorem size_apply (d : Dev S) (e : Event S) : (d.apply e).size = d.size := by
  cases e <;> rfl

@[simp] theorem size_replay (d : Dev S) : ∀ es : List (Event S), (d.replay es).size = d.size
  | [] => rfl
  | e :: es => by rw [replay_cons, size_replay, size_apply]

variable {image : Nat → S} {lba i : Nat} {data : List S}

theorem overlay_at {image : Nat → S} {lba : Nat} {data : List S} {i : Nat} (h : i < data.length) :
    overlay image lba data (lba + i) = data[i] := by
  unfold overlay; rw [dif_pos (by omega)]; simp

@[simp] theorem overlay_one (image : Nat → S) (lba : Nat) (s : S) : overlay image lba [s] lba = s :=
  @overlay_at S image lba [s] 0 (by simp)

variable {s : S}

theorem mem_sectorWrites : (i, s) ∈ sectorWrites lba data ↔ ∃ k, ∃ h : k < data.length, i = lba + k ∧ s = data[k] := by
  simp [sectorWrites, eq_comm]

@[simp] theorem sectorWrites_one (lba : Nat) (s : S) : sectorWrites lba [s] = [(lba, s)] := by
  simp [sectorWrites]

/-- After a write a sector in its range holds one of the sectors written. -/
theorem overlay_cases (image : Nat → S) (lba : Nat) (data : List S) (i : Nat) :
    (i, overlay image lba data i) ∈ sectorWrites lba data ∨
      ((∀ s, (i, s) ∉ sectorWrites lba data) ∧ overlay image lba data i = image i) := by
  by_cases h : lba ≤ i ∧ i < lba + data.length
  · obtain ⟨k, rfl⟩ := Nat.exists_eq_add_of_le h.1
    rw [overlay_at (by omega)]
    exact .inl (mem_sectorWrites.2 ⟨k, by omega, rfl, rfl⟩)
  · refine .inr ⟨fun s hs => h ?_, dif_neg h⟩
    obtain ⟨k, hk, rfl, -⟩ := mem_sectorWrites.1 hs; omega

/-- After a request a sector shows what it showed before or one of the sectors written to it. -/
theorem view_apply (d : Dev S) (e : Event S) (lba : Nat) :
    (d.apply e).view lba = d.view lba ∨ (lba, (d.apply e).view lba) ∈ e.writes := by
  cases e with
  | read | readFail | flush | flushFail => exact .inl rfl
  | write at' data =>
    rcases overlay_cases d.view at' data lba with h | h
    · exact .inr h
    · exact .inl h.2
  | writeFail at' data seen =>
    simp only [Dev.apply, overlaySeen]
    split
    · rcases overlay_cases d.view at' data lba with h | h
      · exact .inr h
      · exact .inl h.2
    · exact .inl rfl

variable {d : Dev S} {e : Event S}

theorem not_touches_flush : ¬ (Event.flush : Event S).Touches lba := by
  rintro ⟨s, ⟨⟩⟩

theorem view_replay_of_not : ∀ {d : Dev S} {es : List (Event S)}, (∀ e ∈ es, ¬ e.Touches lba) →
    (d.replay es).view lba = d.view lba
  | _, [], _ => rfl
  | d, e :: es, h => by
    rw [replay_cons, view_replay_of_not (List.forall_mem_cons.1 h).2,
      (view_apply d e lba).resolve_right fun hw => h e List.mem_cons_self ⟨_, hw⟩]

/-! ## Contents that survive -/

/-- Every content the sector has now, or can have after a power loss, satisfies `P`. -/
structure Dev.Always (d : Dev S) (lba : Nat) (P : S → Prop) : Prop where
  view : P (d.view lba)
  durable : P (d.durable lba)
  pending : ∀ s, (lba, s) ∈ d.pending → P s

variable {P : S → Prop}

theorem Dev.Always.mono {Q : S → Prop} (h : d.Always lba P) (hPQ : ∀ s, P s → Q s) : d.Always lba Q :=
  ⟨hPQ _ h.view, hPQ _ h.durable, fun s hs => hPQ s (h.pending s hs)⟩

/-- A power loss leaves a sector with one of the contents `Always` speaks of. -/
theorem Dev.Always.crash (h : d.Always lba P) {image : Nat → S} (hc : d.Crash image) : P (image lba) := by
  rcases hc lba with e | e
  · rw [e]; exact h.durable
  · exact h.pending _ e

theorem always_ofImage {size : Nat} : (Dev.ofImage size image).Always lba P ↔ P (image lba) :=
  ⟨fun h => h.view, fun h => ⟨h, h, fun _ hs => absurd hs List.not_mem_nil⟩⟩

/-- A request keeps `Always` unless it writes something else to the sector. -/
theorem Dev.Always.apply (h : d.Always lba P) (he : ∀ s, (lba, s) ∈ e.writes → P s) : (d.apply e).Always lba P := by
  have view : P ((d.apply e).view lba) := by
    rcases view_apply d e lba with hv | hv
    · rw [hv]; exact h.view
    · exact he _ hv
  cases e with
  | read | readFail | flushFail => exact h
  | flush => exact ⟨h.view, h.view, fun _ hs => absurd hs List.not_mem_nil⟩
  | write | writeFail =>
    refine ⟨view, h.durable, fun s hs => ?_⟩
    rcases List.mem_append.1 hs with hs | hs
    · exact he s hs
    · exact h.pending s hs

theorem Dev.Always.apply_of_not (h : d.Always lba P) (he : ¬ e.Touches lba) : (d.apply e).Always lba P :=
  h.apply fun s hs => absurd ⟨s, hs⟩ he

theorem Dev.Always.replay : ∀ {d : Dev S} {es : List (Event S)}, d.Always lba P →
    (∀ e ∈ es, ∀ s, (lba, s) ∈ e.writes → P s) → (d.replay es).Always lba P
  | _, [], h, _ => h
  | _, e :: _, h, hes => (h.apply (hes e List.mem_cons_self)).replay
      (List.forall_mem_cons.1 hes).2

variable {es : List (Event S)}

theorem Dev.Always.replay_of_not (h : d.Always lba P) (hes : ∀ e ∈ es, ¬ e.Touches lba) : (d.replay es).Always lba P :=
  h.replay fun e he s hs => absurd ⟨s, hs⟩ (hes e he)

/-- A completed flush settles every sector at its view. -/
theorem always_flush (d : Dev S) (lba : Nat) : (d.apply .flush).Always lba (· = d.view lba) :=
  ⟨rfl, rfl, fun _ hs => absurd hs List.not_mem_nil⟩

/-! ## Consecutive sectors -/

/-- Reads of the sectors from `lba` on return the given ones. -/
def Dev.Shows (d : Dev S) (lba : Nat) (data : List S) : Prop :=
  ∀ i (h : i < data.length), d.view (lba + i) = data[i]

/-- The sectors from `lba` on hold the given ones now and after any power loss. -/
def Dev.Settled (d : Dev S) (lba : Nat) (data : List S) : Prop :=
  ∀ i (h : i < data.length), d.Always (lba + i) (· = data[i])

theorem Dev.Settled.shows (h : d.Settled lba data) : d.Shows lba data :=
  fun i hi => (h i hi).view

theorem Dev.Settled.crash (h : d.Settled lba data)
    (hc : d.Crash image) (size : Nat) : (Dev.ofImage size image).Settled lba data :=
  fun i hi => always_ofImage.2 ((h i hi).crash hc)

theorem Dev.Shows.settled_flush (h : d.Shows lba data) : (d.apply .flush).Settled lba data := by
  intro i hi
  rw [← h i hi]
  exact always_flush d (lba + i)

theorem Dev.Shows.replay_of_not (h : d.Shows lba data)
    (hes : ∀ e ∈ es, ∀ i < data.length, ¬ e.Touches (lba + i)) : (d.replay es).Shows lba data := by
  intro i hi
  rw [view_replay_of_not fun e he => hes e he i hi]
  exact h i hi

theorem Dev.Settled.replay_of_not (h : d.Settled lba data) (hes : ∀ e ∈ es, ∀ i < data.length, ¬ e.Touches (lba + i)) : (d.replay es).Settled lba data :=
  fun i hi => (h i hi).replay_of_not fun e he => hes e he i hi

variable {xs : List S}

theorem shows_append {ys : List S} : d.Shows lba (xs ++ ys) ↔ d.Shows lba xs ∧ d.Shows (lba + xs.length) ys := by
  constructor
  · intro h
    refine ⟨fun i hi => ?_, fun i hi => ?_⟩
    · rw [h i (by rw [List.length_append]; omega), List.getElem_append_left hi]
    · rw [Nat.add_assoc, h (xs.length + i) (by rw [List.length_append]; omega),
        List.getElem_append_right (Nat.le_add_right _ _)]
      simp
  · rintro ⟨h1, h2⟩ i hi
    rw [List.length_append] at hi
    by_cases hlt : i < xs.length
    · rw [h1 i hlt, List.getElem_append_left hlt]
    · obtain ⟨k, rfl⟩ := Nat.exists_eq_add_of_le (Nat.le_of_not_lt hlt)
      rw [← Nat.add_assoc, h2 k (by omega)]
      simp

theorem shows_cons {x : S} : d.Shows lba (x :: xs) ↔ d.view lba = x ∧ d.Shows (lba + 1) xs := by
  rw [show x :: xs = [x] ++ xs from rfl, shows_append]
  refine and_congr_left fun _ => ⟨fun h => h 0 (by simp), fun h i hi => ?_⟩
  simp only [List.length_singleton, Nat.lt_one_iff] at hi
  subst hi
  exact h

/-! ## Sector by sector -/

/-- Write consecutive sectors with one request each. -/
def writesAt : Nat → List S → List (Event S)
  | _, [] => []
  | lba, s :: rest => .write lba [s] :: writesAt (lba + 1) rest

theorem writesAt_append : ∀ (lba : Nat) (xs ys : List S),
    writesAt lba (xs ++ ys) = writesAt lba xs ++ writesAt (lba + xs.length) ys
  | _, [], _ => rfl
  | lba, x :: xs, ys => by
    simp only [List.cons_append, writesAt, writesAt_append (lba + 1) xs ys, List.length_cons]
    rw [Nat.add_assoc, Nat.add_comm 1]

theorem touches_write_one : (Event.write lba [s]).Touches i ↔ i = lba := by
  simp [Event.Touches, Event.writes]

theorem touches_writesAt : ∀ {lba : Nat} {data : List S}, e ∈ writesAt lba data → e.Touches i →
    lba ≤ i ∧ i < lba + data.length
  | _, [], h, _ => by cases h
  | lba, s :: rest, h, ht => by
    rcases List.mem_cons.1 h with rfl | h
    · obtain rfl := touches_write_one.1 ht
      simp
    · have := touches_writesAt h ht
      rw [List.length_cons]
      omega

theorem shows_writesAt : ∀ (d : Dev S) (lba : Nat) (data : List S), (d.replay (writesAt lba data)).Shows lba data
  | d, _, [] => fun _ h => absurd h (Nat.not_lt_zero _)
  | d, lba, s :: rest => by
    rw [shows_cons, writesAt, replay_cons]
    refine ⟨?_, shows_writesAt _ _ _⟩
    rw [view_replay_of_not]
    · exact overlay_one d.view lba s
    · intro e he ht
      have := touches_writesAt he ht
      omega

theorem view_writesAt_of_shows (h : d.Shows lba data) : (d.replay (writesAt lba data)).view = d.view := by
  funext i
  by_cases hi : lba ≤ i ∧ i < lba + data.length
  · obtain ⟨k, rfl⟩ := Nat.exists_eq_add_of_le hi.1
    rw [shows_writesAt d lba data k (by omega), h k (by omega)]
  · exact view_replay_of_not fun e he ht => hi (touches_writesAt he ht)

end MakOS.Device
