import PrimalSimplex.Json
import PrimalSimplex.Numeral

/-!
# Numbers in JSON

Writing a number gives the shortest digits that read back, the even one of two equally near ones,
with at least one decimal, and in scientific notation when the leading digit stands outside a range
that depends on the number type. An infinity and what is not a number have no lexeme.

Reading a number is quick rather than correctly rounded. It keeps as many leading digits as fit into
an unsigned 64 bit integer, turns that integer into a 64 bit number, and scales it by one
multiplication or division by a power of ten; results can be off by a last bit. A number beyond the
range is an error, one below it is zero.
-/

namespace PrimalSimplex

/-- Number types whose values can be written to and read from JSON. -/
class JsonNumeral (F : Type) where
  /-- the lexeme of a value; only finite values have one -/
  toNumber? : F → Option Json.Number
  /-- the value of a lexeme, unless it is out of range -/
  ofNumber? : Json.Number → Option F

/-! ## Writing -/

namespace Decimal

/-- The power of ten of the leading digit. -/
def leadingExponent (d : Decimal) : Int := d.digitText.length - 1 + d.exponent

end Decimal

namespace Json.Number

/-- The powers of ten of the leading digit that are written without an exponent. -/
structure PositionalRange where
  /-- the smallest of them -/
  least : Int
  /-- the largest of them -/
  greatest : Int

/-- The lexeme of a decimal, by its sign. -/
def ofDecimal (range : PositionalRange) (negative : Bool) (d : Decimal) : Number :=
  let leading := d.leadingExponent
  if d.digits = 0 ∨ (range.least ≤ leading ∧ leading ≤ range.greatest) then
    match d.positional with
    | (whole, []) => ⟨negative, whole, ['0'], none⟩
    | (whole, fraction) => ⟨negative, whole, fraction, none⟩
  else
    ⟨negative, d.digitText.take 1, d.digitText.drop 1,
      some (decide (leading < 0), Nat.toDigits 10 leading.natAbs)⟩

/-- The lexeme of a bit pattern. -/
def ofBits? (range : PositionalRange) (format : Binary.Format) (bits : Nat) : Option Number :=
  match format.decode bits with
  | .finite negative significand exponent =>
    some (ofDecimal range negative (format.shortest .even significand exponent))
  | _ => none

/-- The range of the 64 bit numbers. -/
def range64 : PositionalRange := ⟨-5, 15⟩

/-- The range of the 32 bit numbers. -/
def range32 : PositionalRange := ⟨-6, 12⟩

/-! ## Reading -/

/-- The largest unsigned 64 bit integer. -/
def greatestWord : Nat := twoPow 64 - 1

/-- Appends digits to a significand as long as it fits into a word. Returns the significand and the
number of digits that are left over. -/
def takeDigits (significand : Nat) : List Char → Nat × Nat
  | [] => (significand, 0)
  | c :: rest =>
    let next := significand * 10 + (c.toNat - '0'.toNat)
    if next ≤ greatestWord then takeDigits next rest else (significand, rest.length + 1)

/-- The significand of a number and the power of ten that scales it, its exponent apart. Digits that
do not fit scale the number up when they stand before the point and are dropped after it. -/
def significand (n : Number) : Nat × Int :=
  let (whole, excess) := takeDigits 0 n.whole
  let (all, dropped) := takeDigits whole n.fraction
  (all, (excess : Int) - ((n.fraction.length - dropped : Nat) : Int))

/-- A natural number as a 64 bit number. -/
def floatOfNat (n : Nat) : Float := Binary64.ofText (.finite false ⟨n, 0⟩)

/-- A power of ten as a 64 bit number. -/
def powerOfTen (power : Nat) : Float := Binary64.ofText (.finite false ⟨1, power⟩)

/-- The largest power of ten below the largest 64 bit number. -/
def greatestPower : Nat := 308

/-- Scales a number by a negative power of ten that may be far out of range, in several steps. -/
def scaleDown : Nat → Float → Nat → Float
  | 0, value, _ => value
  | fuel + 1, value, power =>
    if power ≤ greatestPower then value / powerOfTen power
    else if value == 0 then value
    else scaleDown fuel (value / powerOfTen greatestPower) (power - greatestPower)

/-- Scales a number by a power of ten; there is no result beyond the range. -/
def scale? (value : Float) (power : Int) : Option Float :=
  if power < 0 then some (scaleDown power.natAbs value power.natAbs)
  else if power.natAbs ≤ greatestPower then
    let scaled := value * powerOfTen power.natAbs
    if scaled.isFinite then some scaled else none
  else if value == 0 then some value
  else none

/-- The largest exponent that is looked at. -/
def greatestExponent : Nat := twoPow 31 - 1

/-- The magnitude of a number. An exponent with a value out of all proportion makes it zero or too
large. -/
def magnitude? (n : Number) : Option Float :=
  let (significand, power) := n.significand
  match n.exponent with
  | none => scale? (floatOfNat significand) power
  | some (negative, digits) =>
    let exponent := digitsValue digits
    if exponent ≤ greatestExponent then
      scale? (floatOfNat significand) (if negative then power - exponent else power + exponent)
    else if significand = 0 ∨ negative then some 0
    else none

/-- The value of a number. -/
def toFloat? (n : Number) : Option Float :=
  n.magnitude?.map fun value => if n.negative then -value else value

/-- The value of a number without sign, fraction and exponent, as far as it fits into a word. -/
def toNat? (n : Number) : Option Nat :=
  let value := digitsValue n.whole
  if n.negative = false ∧ n.fraction = [] ∧ n.exponent = none ∧ value ≤ greatestWord then some value
  else none

end Json.Number

instance : JsonNumeral Float where
  toNumber? x := Json.Number.ofBits? Json.Number.range64 Binary.binary64 x.toBits.toNat
  ofNumber? n := n.toFloat?

instance : JsonNumeral Float32 where
  toNumber? x := Json.Number.ofBits? Json.Number.range32 Binary.binary32 x.toBits.toNat
  ofNumber? n := n.toFloat?.map Float.toFloat32

namespace Json

/-- A value of a number type; one without a lexeme is written as null. -/
def ofNumeral {F : Type} [JsonNumeral F] (value : F) : Json :=
  match JsonNumeral.toNumber? value with
  | some lexeme => number lexeme
  | none => null

end Json

end PrimalSimplex
