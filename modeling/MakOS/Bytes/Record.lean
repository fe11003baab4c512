/-
Fixed-size byte records with little-endian fields: writing a byte string at an offset, reading a
slice back, and the integers stored in such slices. A record is written by a chain of `put`s, so
the two laws that matter are that a slice reads what the last overlapping `put` wrote and that it
does not see a `put` elsewhere.
-/
import Mathlib.Tactic

namespace MakOS.Bytes

/-! ## Little-endian integers -/

/-- The `width` low bytes of `n`, least significant first. -/
def leBytes : (width n : Nat) → List UInt8
  | 0, _ => []
  | width + 1, n => UInt8.ofNat (n % 256) :: leBytes width (n / 256)

/-- The integer whose little-endian bytes are given. -/
def ofLe : List UInt8 → Nat
  | [] => 0
  | b :: bs => b.toNat + 256 * ofLe bs

@[simp] theorem length_leBytes : ∀ width n, (leBytes width n).length = width
  | 0, _ => rfl
  | width + 1, n => by simp [leBytes, length_leBytes width]

theorem ofLe_leBytes : ∀ width n, ofLe (leBytes width n) = n % 256 ^ width
  | 0, n => by simp [ofLe, leBytes, Nat.mod_one]
  | width + 1, n => by
    have hb : (UInt8.ofNat (n % 256)).toNat = n % 256 :=
      UInt8.toNat_ofNat_of_lt' (by simp [UInt8.size]; omega)
    simp only [ofLe, leBytes, hb, ofLe_leBytes width, pow_succ, Nat.mul_comm _ 256]
    rw [Nat.mod_mul]

variable {width n : Nat}

theorem ofLe_leBytes_of_lt (h : n < 256 ^ width) : ofLe (leBytes width n) = n := by
  rw [ofLe_leBytes, Nat.mod_eq_of_lt h]

/-! ## Records -/

def zeros (n : Nat) : Vector UInt8 n := Vector.replicate n 0

/-- Overwrite the bytes from `offset` on with `bytes`; what would fall past the end is dropped. -/
def put {n : Nat} (record : Vector UInt8 n) (offset : Nat) (bytes : List UInt8) : Vector UInt8 n :=
  Vector.ofFn fun i =>
    if h : offset ≤ i.val ∧ i.val < offset + bytes.length then bytes.get ⟨i.val - offset, by omega⟩
    else record.get i

/-- The `length` bytes from `offset` on. -/
def slice {n : Nat} (record : Vector UInt8 n) (offset length : Nat) : List UInt8 :=
  (record.toList.drop offset).take length

def putLe {n : Nat} (record : Vector UInt8 n) (offset width value : Nat) : Vector UInt8 n :=
  put record offset (leBytes width value)

def getLe {n : Nat} (record : Vector UInt8 n) (offset width : Nat) : Nat := ofLe (slice record offset width)

def putU32 {n : Nat} (record : Vector UInt8 n) (offset : Nat) (value : UInt32) : Vector UInt8 n :=
  putLe record offset 4 value.toNat

def putU64 {n : Nat} (record : Vector UInt8 n) (offset : Nat) (value : UInt64) : Vector UInt8 n :=
  putLe record offset 8 value.toNat

def getU32 {n : Nat} (record : Vector UInt8 n) (offset : Nat) : UInt32 := UInt32.ofNat (getLe record offset 4)

def getU64 {n : Nat} (record : Vector UInt8 n) (offset : Nat) : UInt64 := UInt64.ofNat (getLe record offset 8)

/-- The byte at an offset, zero past the end. -/
def byteAt {n : Nat} (record : Vector UInt8 n) (offset : Nat) : UInt8 :=
  if h : offset < n then record[offset] else 0

theorem getElem_put (record : Vector UInt8 n) (offset : Nat) (bytes : List UInt8) (i : Nat)
    (hi : i < n) : (put record offset bytes)[i] =
      if h : offset ≤ i ∧ i < offset + bytes.length then bytes[i - offset] else record[i] := by
  simp only [put, Vector.getElem_ofFn]
  split <;> simp [Vector.get]

@[simp] theorem length_slice (record : Vector UInt8 n) (offset length : Nat)
    (h : offset + length ≤ n) : (slice record offset length).length = length := by
  simp only [slice, List.length_take, List.length_drop, Vector.length_toList]; omega

variable {offset length : Nat}

theorem slice_ext {record record' : Vector UInt8 n}
    (h : ∀ i (hi : i < n), offset ≤ i → i < offset + length → record[i] = record'[i]) :
    slice record offset length = slice record' offset length := by
  apply List.ext_getElem
  · simp [slice]
  intro i h1 h2
  simp only [slice, List.length_take] at h1
  simp only [slice, List.getElem_take, List.getElem_drop, Vector.getElem_toList]
  exact h _ _ (by omega) (by omega)

theorem slice_put_self (record : Vector UInt8 n) (offset length : Nat) (bytes : List UInt8)
    (hl : bytes.length = length) (hn : offset + length ≤ n) : slice (put record offset bytes) offset length = bytes := by
  apply List.ext_getElem
  · rw [length_slice _ _ _ hn, hl]
  intro i h1 h2
  have hin : offset ≤ offset + i ∧ offset + i < offset + bytes.length := by omega
  simp only [slice, List.getElem_take, List.getElem_drop, Vector.getElem_toList]
  rw [getElem_put, dif_pos hin]
  simp

theorem slice_put_other (record : Vector UInt8 n) (offset length at' : Nat) (bytes : List UInt8)
    (h : offset + length ≤ at' ∨ at' + bytes.length ≤ offset) :
    slice (put record at' bytes) offset length = slice record offset length := by
  apply slice_ext
  intro i hi h1 h2
  rw [getElem_put, dif_neg (by omega)]

theorem getU32_putU32 (record : Vector UInt8 n) (offset : Nat) (value : UInt32)
    (h : offset + 4 ≤ n) : getU32 (putU32 record offset value) offset = value := by
  unfold getU32 putU32
  rw [getLe, putLe, slice_put_self _ _ _ _ (by simp) h, ofLe_leBytes_of_lt (by have := value.toNat_lt; omega),
    UInt32.ofNat_toNat]

/-! ## Fixed-width fields -/

/-- A byte string in a field of `width` bytes, filled up with zeros. -/
def pad (width : Nat) (bytes : List UInt8) : List UInt8 := (bytes ++ List.replicate width 0).take width

@[simp] theorem length_pad (width : Nat) (bytes : List UInt8) : (pad width bytes).length = width := by
  simp [pad]

variable {bytes : List UInt8}

theorem take_pad (h : bytes.length ≤ width) : (pad width bytes).take bytes.length = bytes := by
  rw [pad, List.take_take, Nat.min_eq_left h, List.take_left']
  rfl

/-! ## Parts of a record -/

/-- The part of a record that is itself a record. -/
def window {n : Nat} (record : Vector UInt8 n) (offset width : Nat) : Vector UInt8 width :=
  Vector.ofFn fun i => byteAt record (offset + i.val)

/-! ## Records given by their fields -/

/-- Write a list of fields, each a byte string at an offset. -/
def writeFields {n : Nat} (record : Vector UInt8 n) (fields : List (Nat × List UInt8)) : Vector UInt8 n :=
  fields.foldl (fun record field => put record field.1 field.2) record

/-- Each field ends before the next begins, and the last before the end of the record. -/
structure Ascending (n : Nat) (fields : List (Nat × List UInt8)) : Prop where
  apart : fields.Pairwise fun f g => f.1 + f.2.length ≤ g.1
  within : ∀ f ∈ fields, f.1 + f.2.length ≤ n

variable {fields : List (Nat × List UInt8)}

theorem Ascending.tail {f : Nat × List UInt8} (h : Ascending n (f :: fields)) : Ascending n fields :=
  ⟨(List.pairwise_cons.1 h.apart).2, (List.forall_mem_cons.1 h.within).2⟩

theorem Ascending.mono {m : Nat} (h : Ascending n fields) (hm : n ≤ m) : Ascending m fields :=
  ⟨h.apart, fun f hf => le_trans (h.within f hf) hm⟩

theorem slice_writeFields_other : ∀ {fields : List (Nat × List UInt8)} (record : Vector UInt8 n),
    (∀ f ∈ fields, offset + length ≤ f.1) → slice (writeFields record fields) offset length = slice record offset length
  | [], _, _ => rfl
  | f :: fields, record, h => by
    have hrest := (List.forall_mem_cons.1 h).2
    rw [← slice_put_other record offset length f.1 f.2 (.inl (h f List.mem_cons_self))]
    exact slice_writeFields_other (put record f.1 f.2) hrest

theorem slice_writeFields :
    ∀ {fields : List (Nat × List UInt8)} (record : Vector UInt8 n), Ascending n fields → (offset, bytes) ∈ fields →
      bytes.length = length → slice (writeFields record fields) offset length = bytes
  | f :: fields, record, h, hm, hl => by
    rcases List.mem_cons.1 hm with rfl | hm
    · have hn := h.within _ List.mem_cons_self
      have hrest := (List.pairwise_cons.1 h.apart).1
      subst hl
      exact (slice_writeFields_other _ hrest).trans (slice_put_self record offset bytes.length bytes rfl hn)
    · exact slice_writeFields (put record f.1 f.2) h.tail hm hl

theorem byteAt_of_slice {record : Vector UInt8 n} {byte : UInt8} (hn : offset < n) (h : slice record offset 1 = [byte]) :
    byteAt record offset = byte := by
  have hone : slice record offset 1 = [byteAt record offset] := by
    rw [byteAt, dif_pos hn]
    refine List.ext_getElem ?_ fun i h1 h2 => ?_
    · rw [length_slice _ _ _ (by omega)]; rfl
    simp only [List.length_cons, List.length_nil] at h2
    have : i = 0 := by omega
    subst this
    simp [slice]
  exact List.head_eq_of_cons_eq (hone.symm.trans h)

theorem byteAt_writeFields {byte : UInt8} (record : Vector UInt8 n)
    (h : Ascending n fields) (hm : (offset, [byte]) ∈ fields) : byteAt (writeFields record fields) offset = byte :=
  byteAt_of_slice (h.within _ hm) (slice_writeFields record h hm rfl)

theorem window_of_slice {record : Vector UInt8 n} {part : Vector UInt8 width} (hn : offset + width ≤ n)
    (h : slice record offset width = part.toList) : window record offset width = part := by
  rw [← Vector.toList_inj, ← h]
  refine List.ext_getElem ?_ fun i h1 h2 => ?_
  · rw [length_slice _ _ _ hn, Vector.length_toList]
  have hi : i < width := by simpa using h1
  simp only [Vector.getElem_toList, window, Vector.getElem_ofFn, byteAt, slice, List.getElem_take,
    List.getElem_drop]
  rw [dif_pos (by omega)]

theorem window_writeFields {part : Vector UInt8 width}
    (record : Vector UInt8 n) (h : Ascending n fields) (hm : (offset, part.toList) ∈ fields) :
    window (writeFields record fields) offset width = part := by
  have hn := h.within _ hm
  rw [Vector.length_toList] at hn
  exact window_of_slice hn (slice_writeFields record h hm (Vector.length_toList ..))

/-! ## Results of checks -/

/-- A successful bind went through a value. -/
theorem except_bind_ok {ε α β : Type} {x : Except ε α} {f : α → Except ε β} {b : β} (h : (x >>= f) = .ok b) :
    ∃ a, x = .ok a ∧ f a = .ok b := by
  cases x with
  | error e => cases h
  | ok a => exact ⟨a, rfl, h⟩

theorem forM_ok {α ε : Type} {f : α → Except ε Unit} : ∀ {xs : List α}, xs.forM f = .ok () ↔ ∀ x ∈ xs, f x = .ok ()
  | [] => by simp [List.forM, pure, Except.pure]
  | x :: xs => by
    have ih := @forM_ok α ε f xs
    rw [List.forall_mem_cons, ← ih]
    show (f x >>= fun _ => xs.forM f) = .ok () ↔ _
    cases f x <;> simp [bind, Except.bind]

end MakOS.Bytes
