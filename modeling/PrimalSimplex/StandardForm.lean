import PrimalSimplex.Row
import PrimalSimplex.Tolerance

/-!
# Problems in standard form

Maximise `c x` subject to `A x ≤ b` and `x ≥ 0`, where `b ≥ 0`: the slack variables of the rows then
form a feasible basis to start from, and no other form is ever solved.

There are two ways to build one, from rows (`StandardForm.ofRows`) and from a matrix
(`StandardForm.ofMatrix`). Both check, in this order, what the method relies on: there are variables
and constraints, all rows are as wide as the objective function, no right hand side is negative, and
all numbers are finite. The structure itself does not carry these facts, since a stored problem is
shown as it was stored.
-/

namespace PrimalSimplex

/-- The problem to maximise `objective` subject to `constraints`, all variables being
nonnegative. -/
structure StandardForm (F : Type) where
  /-- the coefficients of the objective function, that of `x1` first -/
  objective : List F
  /-- the rows `a x ≤ b` -/
  constraints : List (Row F)
  deriving DecidableEq

namespace StandardForm

variable {F : Type}

/-- The number of decision variables. -/
def variableCount (problem : StandardForm F) : Nat := problem.objective.length

/-- The number of constraints, which is also that of the slack variables. -/
def constraintCount (problem : StandardForm F) : Nat := problem.constraints.length

/-- All numbers of a problem: the objective function, the coefficients, the right hand sides. -/
def numbers (problem : StandardForm F) : List F :=
  problem.objective ++ problem.constraints.flatMap Row.coefficients ++
    problem.constraints.map Row.rhs

section Checks

variable [Zero F] [LE F] [DecidableLE F] [Finiteness F] [Numeral F]

/-- The first fault of a problem, if it has one. -/
def fault? (problem : StandardForm F) : Option Formulation :=
  let n := problem.variableCount
  if problem.objective.isEmpty then some .noVariables
  else if problem.constraints.isEmpty then some .noConstraints
  else match problem.constraints.zipIdx.find? fun (row, _) => row.variableCount != n with
    | some (row, i) => some (.constraintLength i row.variableCount n)
    | none =>
      match problem.constraints.zipIdx.find? fun (row, _) => !decide row.FeasibleAtOrigin with
      | some (row, i) => some (.negativeRhs i (Numeral.text row.rhs))
      | none => if problem.numbers.all isFinite then none else some .notFinite

/-- The problem with the given objective function and rows. -/
def ofRows (objective : List F) (constraints : List (Row F)) :
    Except ProblemError (StandardForm F) :=
  let problem : StandardForm F := ⟨objective, constraints⟩
  match problem.fault? with
  | some fault => .error (.formulation fault)
  | none => .ok problem

end Checks

section Matrix

variable [Zero F] [Neg F] [LT F] [LE F] [DecidableLT F] [DecidableLE F] [Finiteness F] [Numeral F]

/-- The first fault of a matrix and its right hand sides, if there is one. A right hand side may be
negative within the tolerance. -/
def matrixFault? (c : List F) (a : List (List F)) (b : List F) (eps : F) : Option Formulation :=
  if a.length ≠ b.length then some (.rowCount a.length b.length)
  else match a.zipIdx.find? fun (row, _) => row.length != c.length with
    | some (row, i) => some (.rowLength i row.length c.length)
    | none =>
      match b.zipIdx.find? fun (rhs, _) => !decide (IsNonnegativeWithin eps rhs) with
      | some (rhs, i) => some (.negativeRhs i (Numeral.text rhs))
      | none => none

/-- The problem with objective function `c`, matrix `a` and right hand sides `b`. Right hand sides
that are negative within the tolerance become zero. -/
def ofMatrix (c : List F) (a : List (List F)) (b : List F) (eps : F) :
    Except ProblemError (StandardForm F) :=
  match matrixFault? c a b eps with
  | some fault => .error (.formulation fault)
  | none => ofRows c (List.zipWith (fun row rhs => ⟨row, snapToZero eps rhs⟩) a b)

end Matrix

/-- Writes a problem such that it can be read back: the objective function, the rows, and the
declaration of its variables. -/
def render [Zero F] [Neg F] [LT F] [DecidableLT F] [BEq F] [Numeral F]
    (problem : StandardForm F) : String :=
  "maximize Z = " ++ renderCoefficients problem.objective ++ "\nsubject to\n" ++
    String.join (problem.constraints.map fun row => "    " ++ row.render ++ "\n") ++
    "    " ++ ", ".intercalate ((List.range problem.variableCount).map variableName) ++ " >= 0"

end StandardForm

end PrimalSimplex
