import PrimalSimplex.Relation
import PrimalSimplex.Expression

/-!
# Declarations of nonnegativity

Problems are often written with a last line `x1, x2 >= 0`. The standard form implies it, so such a
line is not to become a row. `declaresNonnegativity` recognises

    x1 >= 0        x1, x2 >= 0        x1 >= 0, x2 >= 0

that is, parts between commas, each a variable with a positive coefficient that is said to be at
least zero, where all parts but the last may leave the "at least zero" to a later one. A sum of
variables is no declaration, and neither is anything with another relation.
-/

namespace PrimalSimplex

section

variable {F : Type} [Zero F] [LT F] [DecidableLT F] [BEq F]

/-- Whether an expression is a positive multiple of one variable. -/
def LinearExpression.isSingleVariable (e : LinearExpression F) : Bool :=
  e.constant == 0 &&
    match e.coefficients.filter (· != 0) with
    | [c] => decide (0 < c)
    | _ => false

/-- Whether an expression is the constant zero, with no variable in it. -/
def LinearExpression.isZero (e : LinearExpression F) : Bool :=
  e.coefficients.isEmpty && e.constant == 0

end

variable (F : Type) [Zero F] [One F] [Add F] [Neg F] [LT F] [DecidableLT F] [BEq F] [Numeral F]

/-- Whether a text is an expression with a property; a text that is none has no property. -/
def readsAs (property : LinearExpression F → Bool) (cs : List Char) : Bool :=
  match LinearExpression.read (F := F) (String.ofList cs) with
  | .ok e => property e
  | .error _ => false

/-- Whether a part between commas declares a variable; the last part has to state the bound. -/
def declaresPart (last : Bool) (part : List Char) : Bool :=
  match Relation.find? part with
  | some ⟨.atLeast, before, _, after⟩ =>
    readsAs F LinearExpression.isSingleVariable before && readsAs F LinearExpression.isZero after
  | some _ => false
  | none => !last && readsAs F LinearExpression.isSingleVariable part

/-- Whether all parts of a line declare variables. -/
def declaresAll : List (List Char) → Bool
  | [] => true
  | part :: rest => declaresPart F rest.isEmpty part && declaresAll rest

/-- Whether a line only declares variables to be nonnegative, its numbers being read as values of
the given type. -/
def declaresNonnegativity (line : String) : Bool :=
  declaresAll F (Text.splitAll ',' line.toList)

end PrimalSimplex
