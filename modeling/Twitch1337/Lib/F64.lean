import Mathlib.Algebra.GroupWithZero.Nat
import Mathlib.Data.Int.Order.Basic

/-!
# Double-precision numbers

An IEEE 754 double as its bit pattern, with the comparisons of the standard. Every comparison with a NaN is false; two other
doubles compare as their keys, the magnitude bits read as a number and negated when the sign bit is set, so that the two
zeros are equal and the infinities are the extremes.
-/

/-- A double: one sign bit, eleven exponent bits and fifty-two fraction bits. -/
structure F64 where
  bits : BitVec 64
deriving DecidableEq, Repr

namespace F64

/-- The bits below the sign bit, as a number. -/
def magnitude (a : F64) : Nat := a.bits.toNat % 2 ^ 63

/-- All exponent bits set, and a fraction that is not zero. -/
def isNaN (a : F64) : Bool := decide (0x7FF0000000000000 < a.magnitude)

/-- The number that orders the doubles which are not NaN. -/
def key (a : F64) : Int := if a.bits.msb then -(a.magnitude : Int) else a.magnitude

/-- `a < b`. -/
def lt (a b : F64) : Bool := !a.isNaN && !b.isNaN && decide (a.key < b.key)

/-- `a <= b`. -/
def le (a b : F64) : Bool := !a.isNaN && !b.isNaN && decide (a.key ≤ b.key)

/-- `0.0`. -/
def zero : F64 := ⟨0⟩

/-- `1.0`. -/
def one : F64 := ⟨0x3FF0000000000000⟩

example : lt ⟨0x8000000000000000⟩ zero = false := by decide

example : lt zero one = true := by decide

end F64
