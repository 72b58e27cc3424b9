/-!
# JSON values and their texts

Traces, problems and settings are exchanged as JSON. A value is kept the way it is written, which
means two things:

* a number is its lexeme — sign, digits, fraction, exponent — and not a value of a number type,
  because how it is read depends on what it is read for (`Json.Number`);
* a string is `none` when one of its escapes names half of a surrogate pair. Such a string is
  well-formed syntax but denotes no text; it may stand in a place that nobody looks at.

Two printers are defined by recursion on the value: `Json.compact`, without any white space, and
`Json.pretty`, which puts every element on a line of its own and indents by two blanks.
-/

namespace PrimalSimplex

namespace Json

/-- A number as it is written. -/
structure Number where
  /-- whether there is a minus in front -/
  negative : Bool
  /-- the digits before the point -/
  whole : List Char
  /-- the digits after the point; without a point there are none -/
  fraction : List Char
  /-- the exponent, if there is one: whether it is negative, and its digits -/
  exponent : Option (Bool × List Char)
  deriving DecidableEq

namespace Number

/-- A natural number. -/
def ofNat (n : Nat) : Number := ⟨false, Nat.toDigits 10 n, [], none⟩

/-- Writes the part after the point, with the point. -/
def fractionChars : List Char → List Char
  | [] => []
  | digits => '.' :: digits

/-- Writes an exponent, which always shows its sign. -/
def exponentChars : Option (Bool × List Char) → List Char
  | none => []
  | some (negative, digits) => 'e' :: (if negative then '-' else '+') :: digits

/-- Writes a number. -/
def chars (n : Number) : List Char :=
  (if n.negative then ['-'] else []) ++ n.whole ++ fractionChars n.fraction ++
    exponentChars n.exponent

end Number

end Json

/-- A JSON value. -/
inductive Json where
  /-- the null value -/
  | null
  /-- a truth value -/
  | bool (value : Bool)
  /-- a number, as it is written -/
  | number (lexeme : Json.Number)
  /-- a string, or `none` if its escapes denote no text -/
  | string (text : Option String)
  /-- an array -/
  | array (items : List Json)
  /-- an object: its keys, which are strings, with their values in order -/
  | object (members : List (Option String × Json))

namespace Json

/-! ## Strings -/

/-- The hexadecimal digit of a number below sixteen. -/
def hexDigit (n : Nat) : Char := (Nat.toDigits 16 n).headD '0'

/-- Writes a character inside a string: quotes, backslashes and control characters are escaped. -/
def escapeChar (c : Char) : List Char :=
  if c = '"' then ['\\', '"']
  else if c = '\\' then ['\\', '\\']
  else if c = '\x08' then ['\\', 'b']
  else if c = '\x0c' then ['\\', 'f']
  else if c = '\n' then ['\\', 'n']
  else if c = '\r' then ['\\', 'r']
  else if c = '\t' then ['\\', 't']
  else if c.toNat < 0x20 then
    ['\\', 'u', '0', '0', hexDigit (c.toNat / 16), hexDigit (c.toNat % 16)]
  else [c]

/-- Writes a string. One that denotes no text is written as half of a surrogate pair. -/
def stringChars : Option String → List Char
  | some text => '"' :: (text.toList.flatMap escapeChar ++ ['"'])
  | none => "\"\\ud800\"".toList

/-- Writes a truth value. -/
def boolChars (value : Bool) : List Char := (if value then "true" else "false").toList

/-- The bracket that opens an object. -/
def openBrace : Char := '\x7b'

/-- The bracket that closes an object. -/
def closeBrace : Char := '\x7d'

/-! ## Without white space -/

mutual

/-- Writes a value without white space. -/
def compactChars : Json → List Char
  | null => "null".toList
  | bool value => boolChars value
  | number lexeme => lexeme.chars
  | string text => stringChars text
  | array items => '[' :: (compactItems items ++ [']'])
  | object members => openBrace :: (compactMembers members ++ [closeBrace])

/-- Writes the elements of an array with commas between them. -/
def compactItems : List Json → List Char
  | [] => []
  | [item] => compactChars item
  | item :: rest => compactChars item ++ ',' :: compactItems rest

/-- Writes the members of an object with commas between them. -/
def compactMembers : List (Option String × Json) → List Char
  | [] => []
  | [(key, value)] => stringChars key ++ ':' :: compactChars value
  | (key, value) :: rest =>
    stringChars key ++ ':' :: (compactChars value ++ ',' :: compactMembers rest)

end

/-- The text of a value without white space. -/
def compact (json : Json) : String := String.ofList (compactChars json)

/-! ## With indentation -/

/-- The beginning of a line at a depth. -/
def newLine (depth : Nat) : List Char := '\n' :: List.replicate (2 * depth) ' '

mutual

/-- Writes a value that stands at a depth. -/
def prettyChars (depth : Nat) : Json → List Char
  | null => "null".toList
  | bool value => boolChars value
  | number lexeme => lexeme.chars
  | string text => stringChars text
  | array [] => ['[', ']']
  | array (item :: rest) =>
    '[' :: (prettyItems (depth + 1) (item :: rest) ++ newLine depth ++ [']'])
  | object [] => [openBrace, closeBrace]
  | object (member :: rest) =>
    openBrace :: (prettyMembers (depth + 1) (member :: rest) ++ newLine depth ++ [closeBrace])

/-- Writes the elements of an array, each on a line. -/
def prettyItems (depth : Nat) : List Json → List Char
  | [] => []
  | [item] => newLine depth ++ prettyChars depth item
  | item :: rest => newLine depth ++ prettyChars depth item ++ ',' :: prettyItems depth rest

/-- Writes the members of an object, each on a line. -/
def prettyMembers (depth : Nat) : List (Option String × Json) → List Char
  | [] => []
  | [(key, value)] => newLine depth ++ stringChars key ++ ':' :: ' ' :: prettyChars depth value
  | (key, value) :: rest =>
    newLine depth ++ stringChars key ++
      ':' :: ' ' :: (prettyChars depth value ++ ',' :: prettyMembers depth rest)

end

/-- The text of a value with every element on a line of its own. -/
def pretty (json : Json) : String := String.ofList (prettyChars 0 json)

/-! ## Building values -/

/-- The object with the given fields. -/
def record (fields : List (String × Json)) : Json :=
  object (fields.map fun (key, value) => (some key, value))

/-- A text. -/
def ofString (text : String) : Json := string (some text)

/-- A natural number. -/
def ofNat (n : Nat) : Json := number (.ofNat n)

/-- The array of the images of a list. -/
def ofList {α : Type} (encode : α → Json) (items : List α) : Json := array (items.map encode)

/-- A value that may be absent. -/
def ofOption {α : Type} (encode : α → Json) : Option α → Json
  | some value => encode value
  | none => null

end Json

end PrimalSimplex
