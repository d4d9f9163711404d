import CrossShader.Decimal.Single

/-!
# Shortest decimals

The decimal with the fewest digits that reads back as a given binary32 number.

* `Single.rounding` — the interval of reals that round to a number, nearest with ties to even,
  over a common denominator; its ends belong to it exactly if the significand is even.
* `Rounding.neighbour` — for a digit count, the better of the number's two neighbours on the
  decimal grid of that many digits, if one of them lies in the interval.
* `Single.shortest` — the neighbour with the fewest digits.  Nine digits always suffice.

All comparisons are between natural numbers.
-/

set_option autoImplicit false

namespace CrossShader

/-- The number `digits * 10 ^ exponent`. -/
structure Decimal where
  digits : Nat
  exponent : Int
  deriving DecidableEq, Repr

/-- How many decimal digits a natural number has; zero has one. -/
def digitCount (n : Nat) : Nat :=
  (Nat.toDigits 10 n).length

/-- A positive number with the interval of reals that round to it, as fractions over one
denominator. -/
structure Rounding where
  lower : Nat
  value : Nat
  upper : Nat
  denominator : Nat
  closed : Bool
  deriving DecidableEq, Repr

namespace Rounding

/-- Whether a decimal lies in the interval. -/
def contains (r : Rounding) (d : Decimal) : Bool :=
  let x := d.digits * Nat.pow 10 d.exponent.toNat * r.denominator
  let k := Nat.pow 10 (-d.exponent).toNat
  if r.closed then decide (r.lower * k ≤ x ∧ x ≤ r.upper * k)
  else decide (r.lower * k < x ∧ x < r.upper * k)

/-- The exponent of the greatest power of ten that is at most the number. -/
def magnitude (r : Rounding) : Int :=
  if r.denominator ≤ r.value then (digitCount (r.value / r.denominator) : Int) - 1
  else -(digitCount ((r.denominator - 1) / r.value) : Int)

/-- The better neighbour of the number among the decimals of at most `count` digits, if the interval
has one; of two that are equally near, the greater.  A neighbour that is a power of ten is written
with one digit. -/
def neighbour (r : Rounding) (count : Nat) : Option Decimal :=
  let exponent := r.magnitude - count + 1
  let x := r.value * Nat.pow 10 (-exponent).toNat
  let y := r.denominator * Nat.pow 10 exponent.toNat
  let below : Decimal := ⟨x / y, exponent⟩
  let above : Decimal :=
    if x / y + 1 = Nat.pow 10 count then ⟨1, exponent + count⟩ else ⟨x / y + 1, exponent⟩
  match r.contains below, r.contains above with
  | true, true => if y ≤ 2 * (x % y) then some above else some below
  | true, false => some below
  | false, true => some above
  | false, false => none

/-- The first neighbour found with `count`, `count + 1`, … digits, within `tries` digit counts. -/
def search (r : Rounding) : (tries count : Nat) → Option Decimal
  | 0, _ => none
  | tries + 1, count =>
    match r.neighbour count with
    | some d => some d
    | none => r.search tries (count + 1)

end Rounding

namespace Single

/-- The interval of a finite number other than zero, in quarters of its last place.  Below a power
of two the gap is half as wide, except at the least normal number. -/
def rounding (x : Single) : Rounding :=
  let up := Nat.pow 2 (x.scale - 2).toNat
  let down := Nat.pow 2 (2 - x.scale).toNat
  let gap := if x.fraction = 0 ∧ 1 < x.exponentField then 1 else 2
  { lower := (4 * x.significand - gap) * up
    value := 4 * x.significand * up
    upper := (4 * x.significand + 2) * up
    denominator := down
    closed := x.significand % 2 == 0 }

/-- The magnitude of a finite number as the decimal with the fewest digits that reads back. -/
def shortest (x : Single) : Decimal :=
  if x.significand = 0 then ⟨0, 0⟩
  else (x.rounding.search 9 1).getD ⟨0, 0⟩

end Single

end CrossShader
