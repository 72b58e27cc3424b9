import PrimalSimplex.Problem
import PrimalSimplex.Solve

/-!
# Settings

How a problem is solved: the limit on the number of pivots, the tolerance, and the pivot rule. The
tolerance is a 64 bit number whatever the number type of the run, which makes of it what it can.

The number type also decides what the tolerance is while a problem is read, so reading from a matrix
and from text is found here too, next to solving, together with the events that go with it.
-/

namespace PrimalSimplex

/-- How a problem is solved. -/
structure Settings where
  /-- the largest number of pivots -/
  maxIterations : Nat
  /-- the tolerance -/
  epsilon : Float
  /-- how pivots are chosen -/
  pivotRule : PivotRule

namespace Settings

/-- The settings where nothing else is said: a hundred pivots, a tolerance of `10 ^ -10`, and
Dantzig's rule. -/
def standard : Settings where
  maxIterations := 100
  epsilon := Binary64.ofText (.finite false ⟨1, -10⟩)
  pivotRule := .dantzig

section

variable {F : Type} [Zero F] [One F] [Add F] [Sub F] [Neg F] [Mul F] [Div F] [LT F] [LE F]
  [DecidableLT F] [DecidableLE F] [BEq F] [Finiteness F] [Precision F] [Numeral F]

/-- Solves a problem in standard form. -/
def solve (settings : Settings) (problem : StandardForm F) : Outcome F :=
  PrimalSimplex.solve settings.pivotRule settings.maxIterations (tolerance settings.epsilon) problem

/-- What is told while a problem in standard form is solved. -/
def solveEvents (settings : Settings) (problem : StandardForm F) : List Event :=
  PrimalSimplex.solveEvents settings.pivotRule settings.maxIterations (tolerance settings.epsilon)
    problem

/-- The problem with objective function `c`, matrix `a` and right hand sides `b`. -/
def problemOfMatrix (settings : Settings) (c : List F) (a : List (List F)) (b : List F) :
    Except ProblemError (StandardForm F) :=
  StandardForm.ofMatrix c a b (tolerance settings.epsilon)

/-- The problem of an objective line and constraint lines. -/
def readProblem (settings : Settings) (objective : String) (lines : List String) :
    Except ProblemError (Problem F) :=
  Problem.read objective lines (tolerance settings.epsilon)

/-- What is told while the problem of an objective line and constraint lines is read, and solved if
it can be. -/
def textEvents (F : Type) [Zero F] [One F] [Add F] [Sub F] [Neg F] [Mul F] [Div F] [LT F] [LE F]
    [DecidableLT F] [DecidableLE F] [BEq F] [Finiteness F] [Precision F] [Numeral F]
    (settings : Settings) (objective : String) (lines : List String) : List Event :=
  Problem.readEvents objective lines (tolerance settings.epsilon : F) ++
    match settings.readProblem (F := F) objective lines with
    | .error _ => []
    | .ok problem => settings.solveEvents problem.standardForm

end

end Settings

end PrimalSimplex
