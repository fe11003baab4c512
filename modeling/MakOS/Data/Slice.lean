/-
Slices of arrays of bytes, with the bounds checks of `data[start..stop]`: a slice that is out of range has no
value, as the program that takes it stops there.
-/
import Mathlib.Tactic

namespace MakOS.Data

variable {α : Type}

/-- `&data[start..stop]` -/
def slice (data : List α) (start stop : Nat) : Option (List α) :=
  if start ≤ stop ∧ stop ≤ data.length then some ((data.drop start).take (stop - start)) else none

/-- `data[start..stop].copy_from_slice(source)`, which also stops when the lengths differ -/
def copyInto (data : List α) (start stop : Nat) (source : List α) : Option (List α) :=
  if start ≤ stop ∧ stop ≤ data.length ∧ source.length = stop - start then
    some (data.take start ++ source ++ data.drop stop)
  else none

/-- `data[start..stop].fill(value)` -/
def fillRange (data : List α) (start stop : Nat) (value : α) : Option (List α) :=
  copyInto data start stop (List.replicate (stop - start) value)

/-- `data[index] = value` -/
def store (data : List α) (index : Nat) (value : α) : Option (List α) :=
  if index < data.length then some (data.set index value) else none

/-- Fill an array from chunks: at each turn, some bytes of a chunk go to the place after what is copied already.
`turn` gives the chunk, where in it to start and how much to take. A loop that would not end within `turns` turns
counts as one that stops with `panic`. -/
def copyChunks {ε : Type} (panic : ε) (turn : Nat → Except ε (List α × Nat × Nat)) (count : Nat) :
    (turns : Nat) → (copied : Nat) → List α → Except ε (List α)
  | turns, copied, output =>
    if count ≤ copied then .ok output
    else
      match turns with
      | 0 => .error panic
      | turns + 1 =>
        match turn copied with
        | .error e => .error e
        | .ok (chunk, start, amount) =>
          match slice chunk start (start + amount) with
          | none => .error panic
          | some part =>
            match copyInto output copied (copied + amount) part with
            | none => .error panic
            | some output => copyChunks panic turn count turns (copied + amount) output

variable {data data' source part : List α} {start stop index : Nat} {value : α}

end MakOS.Data
