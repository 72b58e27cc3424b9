/-!
# Decimal numbers and the texts that denote them

Everything a user types as a number is first read as an exact decimal `digits · 10 ^ exponent`; only
afterwards is it rounded to the number type of the run. Keeping the two steps apart means that
whether a text is a number does not depend on the number type, and that rounding is a question
about natural numbers.

Two grammars are read here:

* `Decimal.ofLiteral?` — the unsigned literals of linear expressions: digits with at most one point
  and at least one digit, so `5.` and `.5` are literals while `.` and `1.2.3` are not;
* `NumberText.ofChars?` — the richer texts of settings: a sign, a literal, an exponent, or one of
  the words for the infinities and for "not a number".

There is deliberately no signed decimal type: the sign of a literal belongs to the term it stands
in, and the sign of a setting must survive on zero.
-/

namespace PrimalSimplex

/-- An unsigned decimal number, `digits · 10 ^ exponent`. -/
structure Decimal where
  /-- the digits read as one natural number -/
  digits : Nat
  /-- the power of ten that scales them -/
  exponent : Int
  deriving DecidableEq

/-- A power of two. -/
def twoPow (n : Nat) : Nat := Nat.pow 2 n

/-- A power of ten. -/
def tenPow (n : Nat) : Nat := Nat.pow 10 n

/-- The natural number that a run of decimal digits denotes. -/
def digitsValue (cs : List Char) : Nat :=
  cs.foldl (fun value c => 10 * value + (c.toNat - '0'.toNat)) 0

namespace Decimal

/-- The decimal with the given digits before and after the point. -/
def ofParts (whole fraction : List Char) : Decimal :=
  ⟨digitsValue (whole ++ fraction), -(fraction.length : Int)⟩

/-- Reads an unsigned literal: decimal digits with at most one point among them, and at least one
digit. -/
def ofLiteral? (cs : List Char) : Option Decimal :=
  let whole := cs.takeWhile Char.isDigit
  match cs.dropWhile Char.isDigit with
  | [] => if whole.isEmpty then none else some (ofParts whole [])
  | c :: fraction =>
    if c = '.' ∧ fraction.all Char.isDigit ∧ ¬(whole.isEmpty ∧ fraction.isEmpty) then
      some (ofParts whole fraction)
    else
      none

/-- Scales a decimal by a power of ten. -/
def scale (d : Decimal) (power : Int) : Decimal :=
  ⟨d.digits, d.exponent + power⟩

end Decimal

/-! ## Numbers as they are written in settings -/

/-- What a written number denotes: a signed decimal, an infinity, or no number at all. -/
inductive NumberText where
  /-- not a number -/
  | nan
  /-- an infinity of the given sign -/
  | infinite (negative : Bool)
  /-- a decimal of the given sign, which also zero keeps -/
  | finite (negative : Bool) (magnitude : Decimal)
  deriving DecidableEq

namespace NumberText

/-- Splits an optional sign off a text; `true` stands for a minus. -/
def splitSign : List Char → Bool × List Char
  | '-' :: rest => (true, rest)
  | '+' :: rest => (false, rest)
  | cs => (false, cs)

/-- Reads the digits of an exponent, with their optional sign. -/
def exponent? (cs : List Char) : Option Int :=
  let (negative, digits) := splitSign cs
  if digits.isEmpty || !digits.all Char.isDigit then none
  else if negative then some (-(digitsValue digits : Int))
  else some (digitsValue digits)

/-- Reads a literal with an optional exponent after `e` or `E`. -/
def scientific? (cs : List Char) : Option Decimal :=
  let isMark := fun c : Char => c == 'e' || c == 'E'
  let mantissa := cs.takeWhile fun c => !isMark c
  match cs.dropWhile fun c => !isMark c with
  | [] => Decimal.ofLiteral? mantissa
  | _ :: exponent => do
    let d ← Decimal.ofLiteral? mantissa
    let power ← exponent? exponent
    return d.scale power

/-- Reads a number with its optional sign: a literal with an optional exponent, or the words `nan`,
`inf` and `infinity` in any letter case. -/
def ofChars? (cs : List Char) : Option NumberText :=
  let (negative, body) := splitSign cs
  let word := String.ofList (body.map Char.toLower)
  if word = "nan" then some nan
  else if word = "inf" ∨ word = "infinity" then some (infinite negative)
  else (scientific? body).map (finite negative)

end NumberText

end PrimalSimplex
