import PrimalSimplex.Relation
import PrimalSimplex.Row
import PrimalSimplex.Tolerance

/-!
# Constraints

A constraint is written as two expressions around a relation, with variables and constants on
either side, like `x1 >= x2 + 3`. `Constraint.read` moves the variables to the left and the
constants to the right. Only when the number of variables of the whole problem is known does
`Constraint.toRow` make a row `a x ≤ b` of it:

* a `>=` constraint is multiplied by minus one;
* an equation is kept as `<=`, since the slack basis cannot enforce the other direction;
* a right hand side that is negative within the tolerance becomes zero.
-/

namespace PrimalSimplex

/-- A constraint with its variables on the left and a constant on the right. -/
structure Constraint (F : Type) where
  /-- the coefficients, that of `x1` first -/
  coefficients : List F
  /-- how the two sides are related -/
  relation : Relation
  /-- the right hand side -/
  rhs : F
  deriving DecidableEq

namespace Constraint

variable {F : Type}

/-- The number of variables: the largest subscript on either side. -/
def variableCount (constraint : Constraint F) : Nat := constraint.coefficients.length

/-- The constraint between two expressions. -/
def between [Zero F] [Sub F] (left : LinearExpression F) (relation : Relation)
    (right : LinearExpression F) : Constraint F :=
  let n := max left.variableCount right.variableCount
  { coefficients := List.zipWith (· - ·) (padTo n left.coefficients) (padTo n right.coefficients)
    relation
    rhs := right.constant - left.constant }

/-- Reads a constraint: the leftmost relation divides its sides, and one of them has a variable. -/
def read [Zero F] [One F] [Add F] [Sub F] [Neg F] [Numeral F] (text : String) :
    Except ParseError (Constraint F) :=
  match Relation.find? text.toList with
  | none => .error (.missingRelation text)
  | some found => do
    let left ← LinearExpression.read (String.ofList found.before)
    let right ← LinearExpression.read (String.ofList found.after)
    if left.coefficients.isEmpty && right.coefficients.isEmpty then
      .error (.noVariable text)
    else
      return between left found.relation right

/-- The row of a constraint over the given number of variables. -/
def toRow [Zero F] [Neg F] [LT F] [LE F] [DecidableLT F] [DecidableLE F]
    (n : Nat) (eps : F) (constraint : Constraint F) : Row F :=
  let coefficients := padTo n constraint.coefficients
  match constraint.relation with
  | .atLeast => ⟨coefficients.map (- ·), snapToZero eps (-constraint.rhs)⟩
  | .atMost | .equal => ⟨coefficients, snapToZero eps constraint.rhs⟩

/-- Whether all numbers of a constraint are finite. -/
def allFinite [Finiteness F] (constraint : Constraint F) : Bool :=
  constraint.coefficients.all isFinite && isFinite constraint.rhs

end Constraint

end PrimalSimplex
