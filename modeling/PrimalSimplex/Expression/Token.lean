import PrimalSimplex.Text.Blank

/-!
# Tokens of linear expressions

A text like `3x1 - 2.5 * x2 + 4` is a sequence of signs, numbers, multiplication signs and
subscripted variables, with white space between them. `scan` splits a text into these tokens by
maximal munch: a number is a maximal run of digits and points, a variable is an `x` with the maximal
run of digits right after it. What a run denotes, or whether it denotes anything, is not decided
here: `1.2.3` is one number token and a lone `x` is a variable token with an empty subscript.

Tokens keep the position of their first character, for the messages about misplaced ones.
-/

namespace PrimalSimplex

/-- The sign of a term. -/
inductive Sign where
  /-- a plus, written or understood -/
  | plus
  /-- a minus -/
  | minus
  deriving DecidableEq

/-- What a token is. -/
inductive TokenKind where
  /-- a plus or a minus -/
  | sign (sign : Sign)
  /-- a run of digits and points -/
  | number (literal : List Char)
  /-- a multiplication sign -/
  | times
  /-- an `x` and the digits of its subscript -/
  | var (subscript : List Char)
  deriving DecidableEq

/-- A token and the position of its first character. -/
structure Token where
  /-- what the token is -/
  kind : TokenKind
  /-- how many characters stand before it -/
  position : Nat
  deriving DecidableEq

/-- A character that belongs to no token, and its position. -/
structure StrayCharacter where
  /-- the character -/
  character : Char
  /-- how many characters stand before it -/
  position : Nat
  deriving DecidableEq

namespace Token

/-- Whether a character is a minus: the hyphen, or the minus sign of typeset texts. -/
def isMinus (c : Char) : Bool := c == '-' || c == '\u2212'

/-- Whether a character is a multiplication sign: the asterisk or the middle dot. -/
def isTimes (c : Char) : Bool := c == '*' || c == '\u00b7'

/-- Whether a character begins a variable. -/
def isLetter (c : Char) : Bool := c == 'x' || c == 'X'

/-- Whether a character may stand in a number. -/
def isNumeric (c : Char) : Bool := c.isDigit || c == '.'

/-- The tokens of one character. -/
def symbol? (c : Char) : Option TokenKind :=
  if c = '+' then some (.sign .plus)
  else if isMinus c then some (.sign .minus)
  else if isTimes c then some .times
  else none

/-- Splits a text into tokens, given the position of its first character. -/
def scanFrom (position : Nat) : List Char → Except StrayCharacter (List Token)
  | [] => .ok []
  | c :: rest =>
    if Text.isBlank c then scanFrom (position + 1) rest
    else match symbol? c with
      | some kind => (scanFrom (position + 1) rest).map (⟨kind, position⟩ :: ·)
      | none =>
        if isLetter c then
          let subscript := rest.takeWhile Char.isDigit
          (scanFrom (position + 1 + subscript.length) (rest.dropWhile Char.isDigit)).map
            (⟨.var subscript, position⟩ :: ·)
        else if isNumeric c then
          let more := rest.takeWhile isNumeric
          (scanFrom (position + 1 + more.length) (rest.dropWhile isNumeric)).map
            (⟨.number (c :: more), position⟩ :: ·)
        else .error ⟨c, position⟩
termination_by cs => cs.length
decreasing_by
  all_goals simp only [List.length_cons]
  · omega
  · omega
  · exact Nat.lt_succ_of_le (List.dropWhile_sublist _).length_le
  · exact Nat.lt_succ_of_le (List.dropWhile_sublist _).length_le

/-- Splits a text into tokens, or finds the first character that belongs to none. -/
def scan (cs : List Char) : Except StrayCharacter (List Token) := scanFrom 0 cs

end Token

end PrimalSimplex
