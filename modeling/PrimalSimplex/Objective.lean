import PrimalSimplex.Expression
import PrimalSimplex.Text.Alphanumeric
import PrimalSimplex.Text.LowerCase
import PrimalSimplex.Text.Search

/-!
# Objective functions

An objective line reads like `Maximize Z = 3x1 + 2x2`. Finding the expression in it takes the first
of these that applies:

* what follows the first `z` with an equals sign after it, blanks between them being allowed;
* what follows a leading keyword of maximisation, and the colon that may come with it;
* the whole line, if it has no equals sign at all.

Only maximisation is solved. A line that mentions a minimisation anywhere is refused before its
expression is looked for, so that nothing is ever solved in the wrong direction.
-/

namespace PrimalSimplex

namespace Objective

/-- The keywords of maximisation that may stand before an expression, the longer ones first. -/
def keywords : List String := ["maximize", "maximizar", "max"]

/-- Whether a text mentions a minimisation, in any letter case. -/
def mentionsMinimum (cs : List Char) : Bool :=
  Text.occursIn "min".toList (Text.lower cs)

/-- What follows the first `z` that has an equals sign after it. -/
def afterName? : List Char → Option (List Char)
  | [] => none
  | c :: rest =>
    if c = 'z' ∨ c = 'Z' then
      match Text.trimStart rest with
      | '=' :: expression => some expression
      | _ => afterName? rest
    else afterName? rest

/-- Whether a lower-cased text starts with a keyword that ends there. -/
def startsWithKeyword (lowered : List Char) (keyword : String) : Bool :=
  keyword.toList.isPrefixOf lowered &&
    !((lowered.drop keyword.length).head?.any Text.isAlphanumeric)

/-- What follows a leading keyword and its colon. -/
def afterKeyword? (cs : List Char) : Option (List Char) :=
  (keywords.find? (startsWithKeyword (Text.lower cs))).map fun keyword =>
    Text.dropLeading ':' (Text.trimStart (cs.drop keyword.length))

/-- The part of an objective line that holds the expression. -/
def expression? (cs : List Char) : Option (List Char) :=
  match afterName? cs with
  | some expression => some expression
  | none =>
    let trimmed := Text.trimStart cs
    match afterKeyword? trimmed with
    | some expression => some expression
    | none => if trimmed.contains '=' then none else some trimmed

end Objective

/-- Reads the objective function of a maximisation problem: an expression with variables and without
a constant. -/
def LinearExpression.readObjective {F : Type} [Zero F] [One F] [Add F] [Neg F] [BEq F] [Numeral F]
    (text : String) : Except ProblemError (LinearExpression F) :=
  if Objective.mentionsMinimum text.toList then
    .error (.unsupportedDirection (String.ofList (Text.trim text.toList)))
  else match Objective.expression? text.toList with
    | none => .error (.parse text (.missingObjective text))
    | some expression =>
      match LinearExpression.readWithVariable (String.ofList expression) with
      | .error (.noVariable _) => .error (.formulation .noVariables)
      | .error e => .error (.parse text e)
      | .ok e =>
        if e.constant == 0 then .ok e
        else .error (.formulation (.objectiveConstant (Numeral.text e.constant)))

end PrimalSimplex
