import PrimalSimplex.Text.Blank
import PrimalSimplex.Text.LowerCase

/-!
# Problem files

A problem file is read line by line. Lines are trimmed; blank lines and comments, which start with
`#` or `*`, are dropped. Of the others, the lines with a digit matter: the first is the objective
function, all later ones are constraints, so a header such as "subject to" needs no special
treatment.

One kind of line without a digit is not noise: before the objective function, a line that starts
with a direction (`Minimize`, `max:`) says which way to go. It is put in front of the objective
line, where the direction is checked. If there are several, the last one counts.
-/

namespace PrimalSimplex

/-- The lines of a problem, before their expressions are read. -/
structure ProblemText where
  /-- the objective line -/
  objective : String
  /-- the constraint lines, in order -/
  constraints : List String
  deriving DecidableEq

namespace ProblemText

/-- Whether a trimmed line is a comment. -/
def isComment (line : List Char) : Bool :=
  line.head? == some '#' || line.head? == some '*'

/-- Whether a line has a digit, so that an expression may stand in it. -/
def hasDigit (line : List Char) : Bool := line.any Char.isDigit

/-- Whether a line starts with a direction of optimisation, in any letter case. -/
def isDirection (line : List Char) : Bool :=
  let lowered := Text.lower line
  "max".toList.isPrefixOf lowered || "min".toList.isPrefixOf lowered

/-- The trimmed lines of a file that are neither blank nor comments. -/
def contentLines (contents : List Char) : List (List Char) :=
  ((Text.lines contents).map Text.trim).filter fun line => !line.isEmpty && !isComment line

/-- The objective line, with the last direction before it put in front. -/
def withDirection (direction : Option (List Char)) (line : List Char) : List Char :=
  match direction with
  | some keyword => keyword ++ ' ' :: line
  | none => line

/-- Finds the objective line and the lines after it, given the last direction seen so far. -/
def split? (direction : Option (List Char)) :
    List (List Char) → Option (List Char × List (List Char))
  | [] => none
  | line :: rest =>
    if hasDigit line then some (withDirection direction line, rest)
    else split? (if isDirection line then some line else direction) rest

/-- Splits the contents of a file into its objective line and its constraint lines. There is no
problem in a file without an objective line. -/
def ofContents? (contents : String) : Option ProblemText :=
  (split? none (contentLines contents.toList)).map fun (objective, rest) =>
    { objective := String.ofList objective
      constraints := (rest.filter hasDigit).map String.ofList }

end ProblemText

end PrimalSimplex
