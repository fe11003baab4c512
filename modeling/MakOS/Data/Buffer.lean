/-
A buffer of fixed capacity that is filled at its end and read from its start. What was read stays in
place until the buffer is compacted or empty.
-/
import Mathlib.Tactic

namespace MakOS.Data

variable {α : Type} {capacity : Nat}

structure Buffer (α : Type) (capacity : Nat) where
  cells : List α
  length : Nat
  offset : Nat
  size : cells.length = capacity
  ordered : offset ≤ length
  fits : length ≤ capacity

namespace Buffer

def empty (blank : α) : Buffer α capacity where
  cells := List.replicate capacity blank
  length := 0
  offset := 0
  size := List.length_replicate
  ordered := Nat.le_refl 0
  fits := Nat.zero_le _

/-- What was written and not yet read. -/
def contents (buffer : Buffer α capacity) : List α := (buffer.cells.take buffer.length).drop buffer.offset

def available (buffer : Buffer α capacity) : Nat := buffer.length - buffer.offset

def room (buffer : Buffer α capacity) : Nat := capacity - buffer.length

/-- Move what was not read to the start. -/
def compact (buffer : Buffer α capacity) : Buffer α capacity :=
  if buffer.offset = 0 then buffer
  else
    { cells := (buffer.cells.drop buffer.offset).take buffer.available ++ buffer.cells.drop buffer.available
      length := buffer.available
      offset := 0
      size := by
        have := buffer.size
        have := buffer.fits
        simp only [List.length_append, List.length_take, List.length_drop, available]
        omega
      ordered := Nat.zero_le _
      fits := le_trans (Nat.sub_le _ _) buffer.fits }

def append (buffer : Buffer α capacity) (added : List α) (h : added.length ≤ buffer.room) : Buffer α capacity where
  cells := buffer.cells.take buffer.length ++ added ++ buffer.cells.drop (buffer.length + added.length)
  length := buffer.length + added.length
  offset := buffer.offset
  size := by
    have := buffer.size
    have := buffer.fits
    unfold room at h
    simp only [List.length_append, List.length_take, List.length_drop]
    omega
  ordered := le_trans buffer.ordered (Nat.le_add_right _ _)
  fits := by
    have := buffer.fits
    unfold room at h
    omega

def read (buffer : Buffer α capacity) (count : Nat) : List α := (buffer.cells.drop buffer.offset).take count

/-- Read some cells; once all is read the buffer starts over. -/
def consume (buffer : Buffer α capacity) (count : Nat) (h : count ≤ buffer.available) : Buffer α capacity :=
  if hall : buffer.offset + count = buffer.length then
    { buffer with length := 0, offset := 0, ordered := Nat.le_refl 0, fits := Nat.zero_le _ }
  else
    { buffer with
      offset := buffer.offset + count
      ordered := by
        have := buffer.ordered
        unfold available at h
        omega }

/-! ## What the operations do to the contents -/

@[simp] theorem length_contents (buffer : Buffer α capacity) : buffer.contents.length = buffer.available := by
  have := buffer.size
  have := buffer.fits
  simp only [contents, available, List.length_drop, List.length_take]
  omega

theorem available_le (buffer : Buffer α capacity) : buffer.available ≤ capacity :=
  le_trans (Nat.sub_le _ _) buffer.fits

theorem contents_eq (buffer : Buffer α capacity) : buffer.contents = buffer.read buffer.available := by
  rw [contents, read, available, List.drop_take]

@[simp] theorem contents_compact (buffer : Buffer α capacity) : buffer.compact.contents = buffer.contents := by
  unfold compact
  split
  · rfl
  have hlen := buffer.length_contents
  rw [contents_eq buffer] at hlen ⊢
  unfold contents
  simp only [List.drop_zero]
  unfold read at hlen ⊢
  rw [List.take_append_of_le_length (by omega), List.take_of_length_le (by omega)]

@[simp] theorem offset_compact (buffer : Buffer α capacity) : buffer.compact.offset = 0 := by
  unfold compact
  split
  · assumption
  · rfl

@[simp] theorem available_compact (buffer : Buffer α capacity) : buffer.compact.available = buffer.available := by
  rw [← length_contents, contents_compact, length_contents]

/-- A compacted buffer has all the room there can be. -/
theorem room_compact (buffer : Buffer α capacity) : buffer.compact.room = capacity - buffer.available := by
  rw [← available_compact]
  simp [room, available]

@[simp] theorem contents_append (buffer : Buffer α capacity) (added : List α) (h : added.length ≤ buffer.room) :
    (buffer.append added h).contents = buffer.contents ++ added := by
  have hsize := buffer.size
  have hfits := buffer.fits
  have htake : (buffer.cells.take buffer.length).length = buffer.length := by
    rw [List.length_take]
    omega
  simp only [contents, append]
  rw [List.take_append_of_le_length (by rw [List.length_append, htake]),
    List.take_of_length_le (by rw [List.length_append, htake]),
    List.drop_append_of_le_length (by rw [htake]; exact buffer.ordered)]

theorem read_eq (buffer : Buffer α capacity) {count : Nat} (h : count ≤ buffer.available) :
    buffer.read count = buffer.contents.take count := by
  rw [contents_eq, read, read, List.take_take, Nat.min_eq_left h]

@[simp] theorem contents_consume (buffer : Buffer α capacity) (count : Nat) (h : count ≤ buffer.available) :
    (buffer.consume count h).contents = buffer.contents.drop count := by
  unfold consume
  split
  · have hlen := buffer.length_contents
    unfold available at hlen
    rw [List.drop_eq_nil_of_le (by omega)]
    rfl
  · simp [contents]

end Buffer

end MakOS.Data
