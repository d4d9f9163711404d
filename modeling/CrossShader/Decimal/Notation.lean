import CrossShader.Decimal.Shortest

/-!
# Writing numbers

How a binary32 number is written: the digits come from `Single.shortest`, and everything else is a
decision of a `NumberFormat`.
-/

set_option autoImplicit false

namespace CrossShader

/-- The decisions of a number format. -/
structure NumberFormat where
  /-- Least power of ten of a leading digit that is written without an exponent. -/
  leastPositional : Int
  /-- Greatest power of ten of a leading digit that is written without an exponent. -/
  greatestPositional : Int
  /-- What follows a whole number. -/
  wholeSuffix : String
  /-- What stands before an exponent. -/
  exponentMark : String
  /-- Text of the infinities, after the sign. -/
  infinity : String
  /-- Text of every NaN; it carries no sign. -/
  notANumber : String
  deriving DecidableEq, Repr

namespace NumberFormat

/-- Numbers from 0.0001 up to, and not including, 10 ^ 16 have no exponent; a whole number keeps one
zero after its point, a whole leading digit of an exponent form does not. -/
def literal : NumberFormat :=
  { leastPositional := -4
    greatestPositional := 15
    wholeSuffix := ".0"
    exponentMark := "e"
    infinity := "inf"
    notANumber := "NaN" }

/-- The digits with the point in its place. -/
def positional (format : NumberFormat) (digits : List Char) (exponent : Int) : String :=
  if 0 ≤ exponent then
    String.ofList (digits ++ List.replicate exponent.toNat '0') ++ format.wholeSuffix
  else
    let places := (-exponent).toNat
    if places < digits.length then
      let whole := digits.length - places
      String.ofList (digits.take whole ++ '.' :: digits.drop whole)
    else
      String.ofList ('0' :: '.' :: (List.replicate (places - digits.length) '0' ++ digits))

/-- One digit before the point, and the power of ten of that digit. -/
def scientific (format : NumberFormat) (digits : List Char) (power : Int) : String :=
  let lead :=
    match digits with
    | [] => []
    | [d] => [d]
    | d :: rest => d :: '.' :: rest
  String.ofList lead ++ format.exponentMark ++ toString power

/-- A decimal without trailing zeros. -/
def decimal (format : NumberFormat) (d : Decimal) : String :=
  let digits := Nat.toDigits 10 d.digits
  let power := d.exponent + digits.length - 1
  if d.digits = 0 ∨ format.leastPositional ≤ power ∧ power ≤ format.greatestPositional then
    format.positional digits d.exponent
  else
    format.scientific digits power

/-- A binary32 number. -/
def single (format : NumberFormat) (x : Single) : String :=
  if x.isNaN then format.notANumber
  else
    let sign := if x.isNegative then "-" else ""
    sign ++ (if x.isFinite then format.decimal x.shortest else format.infinity)

end NumberFormat

namespace Single

/-- The text of a number as a literal. -/
def text (x : Single) : String := NumberFormat.literal.single x

end Single

end CrossShader
