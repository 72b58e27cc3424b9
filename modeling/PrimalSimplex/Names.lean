import PrimalSimplex.Expression

/-!
# Names of the columns of a tableau

The columns of a tableau belong to the decision variables `x1`, `x2`, … and then to the slack
variables `s1`, `s2`, …; the last column holds the right hand sides. Names are stored with a trace,
so that a stored trace can be shown without the problem it came from.
-/

namespace PrimalSimplex

/-- The names of the variables of a tableau, the decision variables first. -/
structure Names where
  /-- how many of the columns belong to decision variables -/
  decisionCount : Nat
  /-- the names of all variables -/
  columns : List String
  deriving DecidableEq

namespace Names

/-- The name of the column of right hand sides. -/
def rhsName : String := "RHS"

/-- The name of the objective row. -/
def objectiveName : String := "Z"

/-- The name of the slack variable of the given row. -/
def slackName (row : Nat) : String := "s" ++ toString (row + 1)

/-- The names for `n` decision variables and `m` constraints. -/
def standard (n m : Nat) : Names where
  decisionCount := n
  columns := (List.range n).map variableName ++ (List.range m).map slackName

/-- The name of a column; the one after the variables holds the right hand sides. -/
def column (names : Names) (j : Nat) : String := names.columns.getD j rhsName

/-- The names of the decision variables. -/
def decisionVariables (names : Names) : List String := names.columns.take names.decisionCount

/-- The names of all columns, that of the right hand sides last. -/
def headers (names : Names) : List String := names.columns ++ [rhsName]

end Names

end PrimalSimplex
