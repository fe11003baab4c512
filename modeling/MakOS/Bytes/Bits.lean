/-
Bit sets in 64-bit words: one bit of a word, and of a list of words taken together.
-/
import Mathlib.Tactic

namespace MakOS.Bytes

/-! ## One word -/

def bitMask (index : Nat) : UInt64 := 1 <<< UInt64.ofNat (index % 64)

def testBit (word : UInt64) (index : Nat) : Bool := word &&& bitMask index != 0

def setBit (word : UInt64) (index : Nat) : UInt64 := word ||| bitMask index

def clearBit (word : UInt64) (index : Nat) : UInt64 := word &&& ~~~bitMask index

theorem toBitVec_bitMask (index : Nat) : (bitMask index).toBitVec = BitVec.twoPow 64 (index % 64) := by
  have hshift : (UInt64.ofNat (index % 64)).toBitVec = BitVec.ofNat 64 (index % 64) := rfl
  rw [bitMask, UInt64.toBitVec_shiftLeft, hshift]
  have hamount : BitVec.ofNat 64 (index % 64) % 64 = BitVec.ofNat 64 (index % 64) := by
    apply BitVec.eq_of_toNat_eq
    rw [BitVec.toNat_umod, BitVec.toNat_ofNat, show BitVec.toNat (64 : BitVec 64) = 64 from rfl]
    omega
  rw [hamount, BitVec.shiftLeft_eq', BitVec.toNat_ofNat, Nat.mod_eq_of_lt (by omega)]
  rfl

theorem testBit_eq (word : UInt64) (index : Nat) : testBit word index = word.toBitVec.getLsbD (index % 64) := by
  have hlt : index % 64 < 64 := Nat.mod_lt _ (by decide)
  have hand : (word &&& bitMask index).toBitVec =
      if word.toBitVec.getLsbD (index % 64) then BitVec.twoPow 64 (index % 64) else 0#64 := by
    rw [UInt64.toBitVec_and, toBitVec_bitMask, BitVec.and_twoPow]
  have hne : BitVec.twoPow 64 (index % 64) ≠ 0#64 := fun h => by
    have := congrArg (fun v => BitVec.getLsbD v (index % 64)) h
    simp [hlt] at this
  rw [testBit, Bool.eq_iff_iff, bne_iff_ne, ne_eq, ← UInt64.toBitVec_inj, hand]
  cases word.toBitVec.getLsbD (index % 64) <;> simp [hne]

theorem testBit_setBit (word : UInt64) {i j : Nat} (hi : i < 64) (hj : j < 64) :
    testBit (setBit word i) j = (decide (j = i) || testBit word j) := by
  have himod := Nat.mod_eq_of_lt hi
  have hjmod := Nat.mod_eq_of_lt hj
  simp only [testBit_eq, setBit, UInt64.toBitVec_or, toBitVec_bitMask, BitVec.getLsbD_or, BitVec.getLsbD_twoPow,
    himod, hjmod]
  by_cases h : i = j
  · simp [h, hj]
  · simp [h, Ne.symm h]

theorem testBit_clearBit (word : UInt64) {i j : Nat} (hi : i < 64) (hj : j < 64) :
    testBit (clearBit word i) j = (!decide (j = i) && testBit word j) := by
  have himod := Nat.mod_eq_of_lt hi
  have hjmod := Nat.mod_eq_of_lt hj
  simp only [testBit_eq, clearBit, UInt64.toBitVec_and, UInt64.toBitVec_not, toBitVec_bitMask, BitVec.getLsbD_and,
    BitVec.getLsbD_not, BitVec.getLsbD_twoPow, himod, hjmod]
  by_cases h : i = j
  · simp [h, hj]
  · simp [h, Ne.symm h, hj]

/-! ## Lists of words -/

/-- The bit with the given number, false past the end. -/
def bitAt (words : List UInt64) (index : Nat) : Bool := testBit (words.getD (index / 64) 0) (index % 64)

def putBit (words : List UInt64) (index : Nat) (value : Bool) : List UInt64 :=
  words.modify (index / 64) fun word => if value then setBit word (index % 64) else clearBit word (index % 64)

@[simp] theorem length_putBit (words : List UInt64) (index : Nat) (value : Bool) :
    (putBit words index value).length = words.length := by simp [putBit]

theorem bitAt_putBit {words : List UInt64} {i : Nat} (hi : i < 64 * words.length) (j : Nat) (value : Bool) :
    bitAt (putBit words i value) j = if j = i then value else bitAt words j := by
  have hword : i / 64 < words.length := by omega
  have himod : i % 64 < 64 := Nat.mod_lt _ (by decide)
  have hjmod : j % 64 < 64 := Nat.mod_lt _ (by decide)
  unfold bitAt putBit
  rw [List.getD_eq_getElem?_getD, List.getD_eq_getElem?_getD, List.getElem?_modify]
  by_cases hsame : i / 64 = j / 64
  · simp only [← hsame, List.getElem?_eq_getElem hword, Option.map_eq_map, Option.map_some, Option.getD_some,
      if_true]
    cases value
    · rw [if_neg (by decide), testBit_clearBit _ himod hjmod]
      by_cases h : j = i
      · simp [h]
      · rw [if_neg h, decide_eq_false (by omega : ¬ j % 64 = i % 64)]; rfl
    rw [if_pos rfl, testBit_setBit _ himod hjmod]
    by_cases h : j = i
    · simp [h]
    · rw [if_neg h, decide_eq_false (by omega : ¬ j % 64 = i % 64)]; rfl
  · rw [if_neg (by rintro rfl; exact hsame rfl)]
    simp [hsame]

theorem words_ext {ws ws' : List UInt64} (hl : ws.length = ws'.length) (h : ∀ i, bitAt ws i = bitAt ws' i) : ws = ws' := by
  refine List.ext_getElem hl fun k hk hk' => ?_
  rw [← UInt64.toBitVec_inj]
  refine BitVec.eq_of_getLsbD_eq fun j hj => ?_
  have hbit := h (64 * k + j)
  simpa only [bitAt, testBit_eq, List.getD_eq_getElem?_getD, show (64 * k + j) / 64 = k by omega,
    show (64 * k + j) % 64 % 64 = j by omega, List.getElem?_eq_getElem hk, List.getElem?_eq_getElem hk',
    Option.getD_some] using hbit

end MakOS.Bytes
