/-!
# Single-precision numbers

A number of the IEEE 754 binary32 format, held as its bit pattern.  A finite number is, up to its
sign, `significand * 2 ^ scale`.
-/

set_option autoImplicit false

namespace CrossShader

/-- A binary32 number by its bit pattern: sign, eight exponent bits, 23 fraction bits. -/
structure Single where
  bits : UInt32
  deriving DecidableEq, Repr

namespace Single

/-- The bit pattern as a natural number. -/
def word (x : Single) : Nat := x.bits.toNat

/-- Whether the sign bit is set; so it is for `-0.0` and for half of the NaN patterns. -/
def isNegative (x : Single) : Bool := decide (0x80000000 ≤ x.word)

/-- The biased exponent. -/
def exponentField (x : Single) : Nat := x.word / 0x800000 % 0x100

/-- The fraction bits. -/
def fraction (x : Single) : Nat := x.word % 0x800000

/-- Whether the pattern stands for a number, and not for an infinity or NaN. -/
def isFinite (x : Single) : Bool := x.exponentField != 255

/-- Whether the pattern is one of the NaN patterns. -/
def isNaN (x : Single) : Bool := x.exponentField == 255 && x.fraction != 0

/-- The integer significand; normal numbers have the hidden bit. -/
def significand (x : Single) : Nat :=
  if x.exponentField = 0 then x.fraction else 0x800000 + x.fraction

/-- The exponent of two that goes with the integer significand. -/
def scale (x : Single) : Int :=
  (max x.exponentField 1 : Nat) - 150

end Single

end CrossShader
