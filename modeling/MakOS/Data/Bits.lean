/-
Sets of small numbers as the bits of a word: one bit tested, set or cleared, and how many there are.
-/
import Mathlib.Tactic

namespace MakOS.Data

variable {w : Nat} {mask : BitVec w} {i j : Nat}

/-- `mask & (1 << i) != 0` -/
theorem and_twoPow_ne_zero (h : i < w) : (mask &&& BitVec.twoPow w i != 0#w) = mask.getLsbD i := by
  rw [Bool.eq_iff_iff, bne_iff_ne]
  constructor
  · intro hne
    by_contra hclear
    apply hne
    refine BitVec.eq_of_getLsbD_eq fun j _ => ?_
    by_cases hj : i = j
    · subst hj
      simp [Bool.eq_false_iff.2 hclear]
    · simp [hj]
  · intro hset hzero
    have hbit : (mask &&& BitVec.twoPow w i).getLsbD i = true := by
      simp [hset, h]
    rw [hzero, BitVec.getLsbD_zero] at hbit
    cases hbit

/-- `mask | (1 << i)` -/
theorem getLsbD_or_twoPow (h : i < w) :
    (mask ||| BitVec.twoPow w i).getLsbD j = (mask.getLsbD j || decide (j = i)) := by
  rw [BitVec.getLsbD_or, BitVec.getLsbD_twoPow, decide_eq_true h, Bool.true_and]
  simp only [eq_comm]

/-- `mask & !(1 << i)` -/
theorem getLsbD_and_not_twoPow :
    (mask &&& ~~~BitVec.twoPow w i).getLsbD j = (mask.getLsbD j && decide (j ≠ i)) := by
  rw [BitVec.getLsbD_and, BitVec.getLsbD_not]
  by_cases hj : j < w
  · simp [hj]
  · rw [BitVec.getLsbD_of_ge mask j (by omega)]
    rfl

/-- `a & !b` -/
theorem getLsbD_and_not (a b : BitVec w) : (a &&& ~~~b).getLsbD i = (a.getLsbD i && !b.getLsbD i) := by
  rw [BitVec.getLsbD_and]
  by_cases hi : i < w
  · simp [hi]
  · rw [BitVec.getLsbD_of_ge a i (by omega)]
    rfl

theorem bits_eq_zero : mask = 0#w ↔ ∀ i, mask.getLsbD i = false := by
  constructor
  · rintro rfl i
    exact BitVec.getLsbD_zero
  · intro h
    refine BitVec.eq_of_getLsbD_eq fun i _ => ?_
    rw [h i, BitVec.getLsbD_zero]

def bitCount (mask : BitVec w) : Nat := ((Finset.range w).filter fun i => mask.getLsbD i = true).card

theorem bitCount_clear_lt (h : mask.getLsbD i = true) : bitCount (mask &&& ~~~BitVec.twoPow w i) < bitCount mask := by
  have hi : i < w := BitVec.lt_of_getLsbD h
  refine Finset.card_lt_card ((Finset.ssubset_iff_of_subset fun j hj => ?_).2 ⟨i, ?_, ?_⟩)
  · rw [Finset.mem_filter, getLsbD_and_not_twoPow, Bool.and_eq_true] at hj
    exact Finset.mem_filter.2 ⟨hj.1, hj.2.1⟩
  · exact Finset.mem_filter.2 ⟨Finset.mem_range.2 hi, h⟩
  · simp

end MakOS.Data
