import PrimalSimplex.Decimal
import PrimalSimplex.Error
import PrimalSimplex.Expression.Token

/-!
# Terms of linear expressions

The grammar of expressions over the tokens, white space being gone:

    expression := [sign] term (sign term)*
    term       := number times variable | number variable | variable | number

Reading a text gives its list of terms with exact decimals as magnitudes. Neither the terms nor the
errors depend on a number type; adding the terms up does, and is done elsewhere.

Terms are read from left to right and each is checked completely before the next: its sign, its
shape, its subscript, its literal. So the error that is reported is that of the first faulty term.
-/

namespace PrimalSimplex

/-- A term of a linear expression. -/
structure Term where
  /-- the sign in front of it -/
  sign : Sign
  /-- the number in it; a variable on its own counts once -/
  magnitude : Option Decimal
  /-- the index of its variable, `x1` having index zero; a constant has none -/
  index : Option Nat
  deriving DecidableEq

/-- The parts of a term before their texts are looked into. -/
structure TermShape where
  /-- the characters of its number -/
  literal : Option (List Char)
  /-- the digits of its subscript -/
  subscript : Option (List Char)
  deriving DecidableEq

namespace Term

/-- Reads the sign in front of a term, with its position if it is written. Only the first term of
an expression may go without. -/
def readSign (text : String) (first : Bool) :
    List Token → Except ParseError (Sign × Option Nat × List Token)
  | ⟨.sign sign, position⟩ :: rest => .ok (sign, some position, rest)
  | [] => .ok (.plus, none, [])
  | token :: rest =>
    if first then .ok (.plus, none, token :: rest)
    else .error (.missingSign token.position text)

/-- Reads the shape of a term after its sign, whose position is given if it is written. -/
def readShape (text : String) (signPosition : Option Nat) :
    List Token → Except ParseError (TermShape × List Token)
  | ⟨.number literal, _⟩ :: ⟨.times, _⟩ :: ⟨.var subscript, _⟩ :: rest =>
    .ok (⟨some literal, some subscript⟩, rest)
  | ⟨.number _, _⟩ :: ⟨.times, position⟩ :: _ => .error (.unexpectedCharacter '*' position text)
  | ⟨.number literal, _⟩ :: ⟨.var subscript, _⟩ :: rest =>
    .ok (⟨some literal, some subscript⟩, rest)
  | ⟨.number literal, _⟩ :: rest => .ok (⟨some literal, none⟩, rest)
  | ⟨.var subscript, _⟩ :: rest => .ok (⟨none, some subscript⟩, rest)
  | ⟨.times, position⟩ :: _ =>
    match signPosition with
    | some signPosition => .error (.danglingSign signPosition text)
    | none => .error (.unexpectedCharacter '*' position text)
  | ⟨.sign _, position⟩ :: _ => .error (.danglingSign (signPosition.getD position) text)
  | [] => .error (.danglingSign (signPosition.getD 0) text)

/-- The index that a subscript denotes: subscripts count from one and are bounded. -/
def readIndex (text : String) (subscript : List Char) : Except ParseError Nat :=
  let value := digitsValue subscript
  if 1 ≤ value ∧ value ≤ maximumSubscript then .ok (value - 1)
  else .error (.invalidSubscript (String.ofList subscript) text)

/-- The decimal that a literal denotes. -/
def readLiteral (text : String) (literal : List Char) : Except ParseError Decimal :=
  match Decimal.ofLiteral? literal with
  | some d => .ok d
  | none => .error (.invalidNumber (String.ofList literal) text)

/-- Applies a reader to a part of a term that may be absent. -/
def readPart {α : Type} (read : List Char → Except ParseError α) :
    Option (List Char) → Except ParseError (Option α)
  | some cs => (read cs).map some
  | none => .ok none

/-- Reads one term from the front of the tokens. -/
def read (text : String) (first : Bool) (tokens : List Token) :
    Except ParseError (Term × List Token) := do
  let (sign, signPosition, afterSign) ← readSign text first tokens
  let (shape, rest) ← readShape text signPosition afterSign
  let index ← readPart (readIndex text) shape.subscript
  let magnitude ← readPart (readLiteral text) shape.literal
  return (⟨sign, magnitude, index⟩, rest)

/-! ## Progress -/

/-- Reading a sign consumes at most what is there. -/
theorem length_le_of_readSign {text : String} {first : Bool} {tokens rest : List Token}
    {sign : Sign} {position : Option Nat}
    (h : readSign text first tokens = .ok (sign, position, rest)) :
    rest.length ≤ tokens.length := by
  unfold readSign at h
  split at h
  · cases h; simp
  · cases h; simp
  · split at h <;> cases h; simp

/-- Reading a shape consumes at least one token. -/
theorem length_lt_of_readShape {text : String} {position : Option Nat}
    {tokens rest : List Token} {shape : TermShape}
    (h : readShape text position tokens = .ok (shape, rest)) :
    rest.length < tokens.length := by
  unfold readShape at h
  split at h
  case h_6 => split at h <;> cases h
  all_goals cases h
  all_goals simp
  all_goals omega

/-- Reading a term consumes at least one token. -/
theorem length_lt_of_read {text : String} {first : Bool} {tokens rest : List Token} {term : Term}
    (h : read text first tokens = .ok (term, rest)) : rest.length < tokens.length := by
  simp only [read, bind, Except.bind] at h
  split at h
  · cases h
  · rename_i signed hsign
    obtain ⟨sign, position, afterSign⟩ := signed
    simp only at h
    split at h
    · cases h
    · rename_i shaped hshape
      obtain ⟨shape, rest'⟩ := shaped
      simp only at h
      split at h
      · cases h
      · split at h
        · cases h
        · cases h
          exact Nat.lt_of_lt_of_le (length_lt_of_readShape hshape) (length_le_of_readSign hsign)

/-! ## Whole expressions -/

/-- Reads terms until the tokens are used up. -/
def readAll (text : String) (first : Bool) (tokens : List Token) :
    Except ParseError (List Term) :=
  if tokens.isEmpty then .ok []
  else match _h : read text first tokens with
    | .error e => .error e
    | .ok (term, rest) => (readAll text false rest).map (term :: ·)
termination_by tokens.length
decreasing_by exact length_lt_of_read _h

/-- The terms of a text, of which there is at least one. -/
def ofText (text : String) : Except ParseError (List Term) :=
  match Token.scan text.toList with
  | .error stray => .error (.unexpectedCharacter stray.character stray.position text)
  | .ok [] => .error .empty
  | .ok tokens => readAll text true tokens

end Term

end PrimalSimplex
