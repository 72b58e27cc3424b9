/-!
# Relations between two sides of a constraint

A constraint relates two expressions, and each relation has several spellings. Strict inequalities
are read as their weak counterparts, since a linear program has no others.

`Relation.find?` looks for the leftmost relation in a text and takes its longest spelling there, so
that `<=` is not read as `<` with a stray `=` after it. The result is the text cut in three
(`Relation.Match`); byte offsets, for those who want them, are sizes of the pieces.
-/

namespace PrimalSimplex

/-- A relation between two expressions. -/
inductive Relation where
  /-- both sides are equal -/
  | equal
  /-- the left side is at least the right side -/
  | atLeast
  /-- the left side is at most the right side -/
  | atMost
  deriving DecidableEq

namespace Relation

/-- All relations, in the order in which their spellings are listed. -/
def all : List Relation := [equal, atLeast, atMost]

/-- The spellings of a relation. -/
def spellings : Relation → List String
  | equal => ["==", "="]
  | atLeast => [">=", "=>", "\u2265", ">"]
  | atMost => ["<=", "=<", "\u2264", "<"]

/-- How a relation is written. -/
def symbol : Relation → String
  | equal => "="
  | atLeast => ">="
  | atMost => "<="

/-- A text cut at a relation. -/
structure Match where
  /-- the relation -/
  relation : Relation
  /-- the text before it -/
  before : List Char
  /-- the spelling that was found -/
  spelling : List Char
  /-- the text after it -/
  after : List Char
  deriving DecidableEq

/-- Every relation with each of its spellings. -/
def allSpellings : List (Relation × List Char) :=
  all.flatMap fun relation => relation.spellings.map fun s => (relation, s.toList)

/-- The longer of two spellings, the second one if both are equally long. -/
def longer (best next : Relation × List Char) : Relation × List Char :=
  if best.2.length ≤ next.2.length then next else best

/-- The longest spelling at the front of a text. -/
def longestAt? (cs : List Char) : Option (Relation × List Char) :=
  match allSpellings.filter fun s => s.2.isPrefixOf cs with
  | [] => none
  | s :: rest => some (rest.foldl longer s)

/-- Cuts a text at its leftmost relation. -/
def find? : List Char → Option Match
  | [] => none
  | c :: rest =>
    match longestAt? (c :: rest) with
    | some (relation, spelling) =>
      some ⟨relation, [], spelling, (c :: rest).drop spelling.length⟩
    | none => (find? rest).map fun m => { m with before := c :: m.before }

/-- The number of bytes before the relation. -/
def Match.start (m : Match) : Nat := (String.ofList m.before).utf8ByteSize

/-- The number of bytes of the spelling. -/
def Match.size (m : Match) : Nat := (String.ofList m.spelling).utf8ByteSize

end Relation

end PrimalSimplex
