/-
First-fit search for a run of free places: walk over the places and count those in a row that are not used.
-/
import Mathlib.Tactic

namespace MakOS.Data

/-- The start of the first run of `count` places that are not used. The `runLength` places before the next one are
not used, and they start at `runStart`. -/
def firstRun (used : Nat → Bool) (count : Nat) : (places : List Nat) → (runStart runLength : Nat) → Option Nat
  | [], _, _ => none
  | place :: rest, runStart, runLength =>
    if used place then firstRun used count rest runStart 0
    else
      let runStart := if runLength = 0 then place else runStart
      if runLength + 1 = count then some runStart else firstRun used count rest runStart (runLength + 1)

/-- Where a run starts does not matter before there is one. -/
theorem firstRun_restart (used : Nat → Bool) (count first second : Nat) :
    ∀ places, firstRun used count places first 0 = firstRun used count places second 0
  | [] => rfl
  | place :: rest => by simp only [firstRun, firstRun_restart used count first second rest, if_true]

/-- No place from `start` on is used, for `count` places. -/
def Run (used : Nat → Bool) (start count : Nat) : Prop := ∀ place, start ≤ place → place < start + count → used place = false

variable {used : Nat → Bool} {count low next runStart runLength : Nat}

/-- The search from `low` on has come to `next`: no run starts before the one it is counting. -/
structure Scan (used : Nat → Bool) (count low next runStart runLength : Nat) : Prop where
  short : runLength < count
  above : low + runLength ≤ next
  starts : runLength ≠ 0 → runStart + runLength = next
  run : Run used (next - runLength) runLength
  first : ∀ start, low ≤ start → start + runLength < next → ¬Run used start count

theorem Scan.reset (h : Scan used count low next runStart runLength) (hused : used next = true) :
    Scan used count low (next + 1) runStart 0 := by
  refine ⟨Nat.zero_lt_of_lt h.short, Nat.le_succ_of_le (Nat.le_of_add_right_le h.above), fun hne => absurd rfl hne,
    fun _ _ _ => by omega, fun start hlow hstart hrun => ?_⟩
  have hshort := h.short
  by_cases hend : next < start + count
  · have := hrun next (by omega) hend
    simp [hused] at this
  · exact h.first start hlow (by omega) hrun

theorem Scan.extend (h : Scan used count low next runStart runLength) (hfree : used next = false) :
    Run used (next - runLength) (runLength + 1) := by
  intro place hle hlt
  have := h.above
  by_cases hplace : place = next
  · rwa [hplace]
  · exact h.run place hle (by omega)

/-- The answer of a search of the places from `low` to before `limit`: the lowest run, or none if there is none -/
def Found (used : Nat → Bool) (count low limit : Nat) : Option Nat → Prop
  | none => ∀ start, low ≤ start → start + count ≤ limit → ¬Run used start count
  | some start => low ≤ start ∧ start + count ≤ limit ∧ Run used start count ∧
      ∀ other, low ≤ other → Run used other count → start ≤ other

theorem Scan.found {left limit : Nat} (h : Scan used count low next runStart runLength) (hlimit : next + left = limit) :
    Found used count low limit (firstRun used count (List.range' next left) runStart runLength) := by
  have hshort := h.short
  have habove := h.above
  induction left generalizing next runStart runLength with
  | zero => exact fun start hlow hend => h.first start hlow (by omega)
  | succ left ih =>
    rw [List.range'_succ, firstRun]
    cases hused : used next with
    | true => exact ih (h.reset hused) (by omega) (by omega) (by omega)
    | false =>
      have hstart : (if runLength = 0 then next else runStart) = next - runLength := by
        have := h.starts
        split <;> omega
      simp only [Bool.false_eq_true, if_false, hstart]
      split
      · rename_i hcount
        refine ⟨by omega, by omega, hcount ▸ h.extend hused, fun other hlow hrun => ?_⟩
        by_contra hlt
        exact h.first other hlow (by omega) hrun
      refine ih ⟨by omega, by omega, fun _ => by omega, ?_, fun start hlow hend => h.first start hlow (by omega)⟩
        (by omega) (by omega) (by omega)
      rw [Nat.add_sub_add_right]
      exact h.extend hused

theorem firstRun_found (used : Nat → Bool) (hpos : 0 < count) (low left runStart : Nat) :
    Found used count low (low + left) (firstRun used count (List.range' low left) runStart 0) :=
  Scan.found ⟨hpos, Nat.le_refl _, fun hne => absurd rfl hne, fun _ _ _ => by omega, fun _ _ _ => by omega⟩ rfl

end MakOS.Data
