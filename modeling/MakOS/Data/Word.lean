/-
Arithmetic of 64-bit unsigned words on natural numbers: the checked operations and the masks of a
power of two.
-/
import Mathlib.Tactic
import Mathlib.Data.Nat.Bitwise

namespace MakOS.Data

def wordMax : Nat := 2 ^ 64 - 1

def checkedAdd (a b : Nat) : Option Nat := if a + b ≤ wordMax then some (a + b) else none

def checkedMul (a b : Nat) : Option Nat := if a * b ≤ wordMax then some (a * b) else none

/-- The result of an unchecked operation. -/
def wrap (n : Nat) : Nat := n % 2 ^ 64

def isPowerOfTwo (n : Nat) : Bool := n != 0 && n &&& (n - 1) == 0

/-- `n & !(size - 1)` -/
def clearLow (n size : Nat) : Nat := n &&& (2 ^ 64 - size)

variable {a b c n : Nat}

theorem checkedAdd_eq_some : checkedAdd a b = some c ↔ a + b ≤ wordMax ∧ a + b = c := by
  unfold checkedAdd; split <;> simp_all

end MakOS.Data
