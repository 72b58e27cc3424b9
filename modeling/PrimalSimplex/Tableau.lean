import PrimalSimplex.StandardForm
import PrimalSimplex.Table

/-!
# Tableaus

The tableau of a problem with `n` decision variables and `m` constraints has `m + 1` rows of
`n + m + 1` values. The first `m` rows are the constraints, solved for their basic variables; the
last one holds the relative costs. The first `n` columns belong to the decision variables, the next
`m` to the slacks, and the last one holds the values of the basic variables and, in the objective
row, the objective value.

A pivot makes another variable basic by Gauss–Jordan elimination. The row of the pivot is divided by
the pivot element; from every other row a multiple of it is subtracted, unless the row already has a
zero in the column.

Rows are lists, and `entry` is their view by indices. Nothing is assumed about the arithmetic here.
-/

namespace PrimalSimplex

/-- A basis change. -/
structure Pivot (F : Type) where
  /-- the row of the variable that leaves the basis -/
  row : Nat
  /-- the column of the variable that enters it -/
  column : Nat
  /-- the value at that row and column before the pivot -/
  element : F
  /-- the column of the variable that leaves the basis -/
  leaving : Nat
  deriving DecidableEq

/-- A simplex tableau. -/
structure Tableau (F : Type) where
  /-- the constraint rows and then the objective row, each with its right hand side last -/
  rows : List (List F)
  /-- the column of the basic variable of each constraint row -/
  basis : List Nat
  /-- the number of decision variables -/
  decisionCount : Nat
  /-- values up to this size count as zero when a pivot is chosen -/
  eps : F
  deriving DecidableEq

namespace Tableau

variable {F : Type}

/-! ## The first tableau -/

section Initial

variable [Zero F] [One F] [Neg F]

/-- The coefficients of the slack variables in a row: its own slack counts once, the others not. -/
def slackCoefficients (m i : Nat) : List F :=
  (List.range m).map fun k => if k = i then 1 else 0

/-- The tableau of a problem, with the slack variables as its basis. -/
def initial (problem : StandardForm F) (eps : F) : Tableau F :=
  let n := problem.variableCount
  let m := problem.constraintCount
  { rows :=
      (problem.constraints.mapIdx fun i row =>
        row.coefficients ++ slackCoefficients m i ++ [row.rhs]) ++
      [problem.objective.map (- ·) ++ List.replicate (m + 1) 0]
    basis := List.range' n m
    decisionCount := n
    eps }

end Initial

/-! ## Views -/

/-- The number of constraint rows. -/
def rowCount (t : Tableau F) : Nat := t.basis.length

/-- The number of variables, slacks included. -/
def columnCount (t : Tableau F) : Nat := t.decisionCount + t.rowCount

/-- The objective row. -/
def objectiveRow (t : Tableau F) : List F := t.rows.getD t.rowCount []

/-- The relative costs of the variables. -/
def relativeCosts (t : Tableau F) : List F := t.objectiveRow.take t.columnCount

/-- The value at a row and a column; the objective row and the column of right hand sides come after
the others. -/
def entry [Zero F] (t : Tableau F) (row column : Nat) : F :=
  (t.rows.getD row []).getD column 0

/-- The relative cost of a variable. -/
def relativeCost [Zero F] (t : Tableau F) (column : Nat) : F := t.entry t.rowCount column

/-- The value of the basic variable of a row. -/
def constraintValue [Zero F] (t : Tableau F) (row : Nat) : F := t.entry row t.columnCount

/-- The column of the basic variable of a row. -/
def basicColumn (t : Tableau F) (row : Nat) : Nat := t.basis.getD row 0

/-- Whether a variable is basic. -/
def isBasic (t : Tableau F) (column : Nat) : Bool := t.basis.contains column

/-- The objective value of the basic solution. -/
def objectiveValue [Zero F] (t : Tableau F) : F := t.entry t.rowCount t.columnCount

/-- The value of a decision variable in the basic solution: a variable that is not basic is zero. -/
def basicValue [Zero F] (t : Tableau F) (column : Nat) : F :=
  match t.basis.idxOf? column with
  | some row => t.constraintValue row
  | none => 0

/-- The basic solution: the values of the decision variables. -/
def basicSolution [Zero F] (t : Tableau F) : List F :=
  (List.range t.decisionCount).map t.basicValue

/-- Whether no relative cost is negative beyond the tolerance. -/
def isOptimal [Neg F] [LE F] [DecidableLE F] (t : Tableau F) : Bool :=
  t.relativeCosts.all fun cost => decide (-t.eps ≤ cost)

/-! ## Pivots -/

section Pivoting

variable [Zero F] [Sub F] [Mul F] [Div F] [BEq F]

/-- Subtracts a multiple of the pivot row such that the given column becomes zero. -/
def eliminate (pivotRow : List F) (column : Nat) (row : List F) : List F :=
  let factor := row.getD column 0
  if factor == 0 then row
  else List.zipWith (fun value pivotValue => value - factor * pivotValue) row pivotRow

/-- The rows after a pivot. -/
def pivotRows (rows : List (List F)) (row column : Nat) : List (List F) :=
  let pivotRow := (rows.getD row []).map (· / (rows.getD row []).getD column 0)
  rows.mapIdx fun i values => if i = row then pivotRow else eliminate pivotRow column values

/-- The tableau after the variable of `column` has replaced the basic variable of `row`. -/
def pivot (t : Tableau F) (row column : Nat) : Tableau F :=
  { t with rows := pivotRows t.rows row column, basis := t.basis.set row column }

/-- The description of that basis change. -/
def pivotAt (t : Tableau F) (row column : Nat) : Pivot F :=
  ⟨row, column, t.entry row column, t.basicColumn row⟩

/-- A pivot keeps the number of rows. -/
theorem length_pivotRows (rows : List (List F)) (row column : Nat) :
    (pivotRows rows row column).length = rows.length := by
  simp [pivotRows]

omit [Div F] in
/-- Elimination keeps the length of a row that is as long as the pivot row. -/
theorem length_eliminate {pivotRow row : List F} (column : Nat)
    (h : row.length = pivotRow.length) : (eliminate pivotRow column row).length = row.length := by
  simp only [eliminate]
  split
  · rfl
  · simp [h]

/-- A pivot keeps the number of constraint rows. -/
theorem rowCount_pivot (t : Tableau F) (row column : Nat) :
    (t.pivot row column).rowCount = t.rowCount := by
  simp [pivot, rowCount]

/-- A pivot keeps the number of variables. -/
theorem columnCount_pivot (t : Tableau F) (row column : Nat) :
    (t.pivot row column).columnCount = t.columnCount := by
  rw [columnCount, rowCount_pivot]
  rfl

end Pivoting

/-- Writes a tableau as a table with the standard names. -/
def render [Numeral F] (t : Tableau F) : String :=
  Table.render (Names.standard t.decisionCount t.rowCount) t.rows t.basis

/-! ## A diagnostic -/

/-- The size of a value. -/
def magnitude [Zero F] [Neg F] [LT F] [DecidableLT F] (value : F) : F :=
  if value < 0 then -value else value

/-- Whether the basic columns are unit vectors and no basic value is negative, up to the square root
of the tolerance. -/
def isBasicFeasible [Zero F] [One F] [Sub F] [Neg F] [LT F] [LE F] [DecidableLT F] [DecidableLE F]
    [SquareRoot F] (t : Tableau F) : Bool :=
  let bound := SquareRoot.sqrt t.eps
  let isUnit := fun (basicRow column : Nat) => (List.range (t.rowCount + 1)).all fun row =>
    decide (magnitude (t.entry row column - if row = basicRow then 1 else 0) ≤ bound)
  (t.basis.zipIdx.all fun (column, row) => isUnit row column) &&
    (List.range t.rowCount).all fun row => decide (-bound ≤ t.constraintValue row)

end Tableau

end PrimalSimplex
