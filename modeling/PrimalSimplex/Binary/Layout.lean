import PrimalSimplex.Binary.Shortest

/-!
# How numbers are written

Two layouts are in use outside of JSON:

* `Format.plain` — messages, reports and rendered problems: the shortest digits, the larger of two
  equally near ones, always positional, a whole number without a point;
* `Format.fixed` — cells of a table: a fixed number of decimals of the exact binary value, a half
  going to the even neighbour.

An infinity and what is not a number have words for texts in both.
-/

namespace PrimalSimplex

namespace Decimal

/-- The digits of a decimal without its scale. -/
def digitText (d : Decimal) : List Char :=
  Nat.toDigits 10 d.digits

/-- Writes the digits before and after the point, without an exponent. A whole number has an empty
second part. -/
def positional (d : Decimal) : List Char × List Char :=
  let digits := d.digitText
  if 0 ≤ d.exponent then
    (digits ++ List.replicate d.exponent.toNat '0', [])
  else
    let places := (-d.exponent).toNat
    if places < digits.length then
      (digits.take (digits.length - places), digits.drop (digits.length - places))
    else
      (['0'], List.replicate (places - digits.length) '0' ++ digits)

end Decimal

namespace Binary

/-- Puts a minus in front of a negative number. -/
def signed (negative : Bool) (body : List Char) : String :=
  String.ofList (if negative then '-' :: body else body)

/-- The text of an infinity. -/
def infinityText (negative : Bool) : String :=
  signed negative ['i', 'n', 'f']

/-- The text of what is not a number, which has no sign. -/
def nanText : String := "NaN"

namespace Format

variable (format : Format)

/-- The shortest positional text of a bit pattern. -/
def plain (bits : Nat) : String :=
  match format.decode bits with
  | .nan => nanText
  | .infinite negative => infinityText negative
  | .finite negative significand exponent =>
    match (format.shortest .larger significand exponent).positional with
    | (whole, []) => signed negative whole
    | (whole, fraction) => signed negative (whole ++ '.' :: fraction)

/-- The text of a bit pattern with a fixed, positive number of decimals. -/
def fixed (places : Nat) (bits : Nat) : String :=
  match format.decode bits with
  | .nan => nanText
  | .infinite negative => infinityText negative
  | .finite negative significand exponent =>
    let scaled :=
      roundDiv (significand * tenPow places * twoPow exponent.toNat) (twoPow (-exponent).toNat)
    let fraction := Nat.toDigits 10 (scaled % tenPow places)
    signed negative (Nat.toDigits 10 (scaled / tenPow places) ++
      '.' :: (List.replicate (places - fraction.length) '0' ++ fraction))

end Format

end Binary
end PrimalSimplex
