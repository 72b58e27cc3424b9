import PrimalSimplex.Decimal

/-!
# Binary floating point, as natural numbers

A run is made in one of two binary number types, and the texts it reads and writes must agree with
those types to the last digit. This module holds the part that is pure arithmetic on natural
numbers: the bit pattern of a value, the value of a bit pattern, and rounding to the nearest
representable value.

* `Format` — a binary interchange format: its precision and the width of its exponent;
* `Format.decode` — the sign, significand and exponent behind a bit pattern;
* `Format.roundRatio` — the bit pattern nearest to a ratio, a half going to the even neighbour;
* `Format.ofDecimal`, `Format.ofText` — the same for decimals and for written numbers.

Patterns are natural numbers throughout. What makes the encoding short is that the patterns of the
nonnegative values count them in order: the value `m · 2 ^ q` of a full significand stands at
`m + (q - least) · 2 ^ (precision - 1)`, also below the normal range and also when rounding carries
into the next power of two.
-/

namespace PrimalSimplex

/-- The integer nearest to `num / den`; a half goes to the even neighbour. -/
def roundDiv (num den : Nat) : Nat :=
  let quotient := num / den
  let twice := 2 * (num % den)
  if twice < den then quotient
  else if den < twice then quotient + 1
  else quotient + quotient % 2

/-- The base two logarithm of `num / den`, rounded down; both are positive. -/
def floorLogTwo (num den : Nat) : Int :=
  let guess : Int := (num.log2 : Int) - (den.log2 : Int)
  if den * twoPow guess.toNat ≤ num * twoPow (-guess).toNat then guess else guess - 1

namespace Binary

/-- A binary interchange format. -/
structure Format where
  /-- the number of significant bits, the leading one included -/
  precision : Nat
  /-- the number of bits that hold the exponent -/
  exponentBits : Nat
  deriving DecidableEq

/-- The 64 bit format. -/
def binary64 : Format := ⟨53, 11⟩

/-- The 32 bit format. -/
def binary32 : Format := ⟨24, 8⟩

/-- What a bit pattern stands for; a finite value is `significand · 2 ^ exponent`. -/
inductive Value where
  /-- not a number -/
  | nan
  /-- an infinity of the given sign -/
  | infinite (negative : Bool)
  /-- a finite value of the given sign, which also zero has -/
  | finite (negative : Bool) (significand : Nat) (exponent : Int)
  deriving DecidableEq

namespace Format

variable (format : Format)

/-- The exponent of the smallest positive value. -/
def leastExponent : Int :=
  3 - (twoPow (format.exponentBits - 1) : Int) - (format.precision : Int)

/-- The number of patterns between two neighbouring powers of two. -/
def binade : Nat := twoPow (format.precision - 1)

/-- The pattern of the positive infinity, which follows the largest finite value. -/
def infinity : Nat := (twoPow format.exponentBits - 1) * format.binade

/-- The weight of the sign bit. -/
def signBit : Nat := twoPow format.exponentBits * format.binade

/-- The pattern of the value that is not a number. -/
def nan : Nat := format.infinity + format.binade / 2

/-- The value of a bit pattern. -/
def decode (bits : Nat) : Value :=
  let negative := decide (format.signBit ≤ bits)
  let magnitude := bits % format.signBit
  let step := magnitude / format.binade
  if format.infinity < magnitude then .nan
  else if magnitude = format.infinity then .infinite negative
  else if step = 0 then .finite negative magnitude format.leastExponent
  else
    .finite negative (magnitude % format.binade + format.binade)
      (format.leastExponent + (step - 1))

/-- The pattern nearest to `num / den`, which is not negative. -/
def roundRatio (num den : Nat) : Nat :=
  if num = 0 then 0
  else
    let exponent := max format.leastExponent (floorLogTwo num den - (format.precision - 1))
    let significand := roundDiv (num * twoPow (-exponent).toNat) (den * twoPow exponent.toNat)
    min format.infinity
      (significand + (exponent - format.leastExponent).toNat * format.binade)

/-- The pattern nearest to a decimal. Since a factor of ten is more than three factors of two, a
decimal whose leading digit stands far outside the range is settled before any power is taken. -/
def ofDecimal (d : Decimal) : Nat :=
  let leading : Int := (Nat.toDigits 10 d.digits).length + d.exponent
  if d.digits = 0 then 0
  else if (twoPow (format.exponentBits - 1) : Int) ≤ 3 * (leading - 1) then format.infinity
  else if 3 * leading < format.leastExponent - 1 then 0
  else format.roundRatio (d.digits * tenPow d.exponent.toNat) (tenPow (-d.exponent).toNat)

/-- Puts a sign on the pattern of a magnitude. -/
def withSign (negative : Bool) (magnitude : Nat) : Nat :=
  if negative then format.signBit + magnitude else magnitude

/-- The pattern of a written number. -/
def ofText : NumberText → Nat
  | .nan => format.nan
  | .infinite negative => format.withSign negative format.infinity
  | .finite negative magnitude => format.withSign negative (format.ofDecimal magnitude)

end Format

end Binary

end PrimalSimplex
