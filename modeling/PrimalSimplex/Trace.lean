import PrimalSimplex.Names
import PrimalSimplex.Tableau

/-!
# Traces

Every tableau that the method passes through is recorded, so that the pivots can be inspected after
the fact. A trace keeps plain rows and bases, not tableaus: it can be stored and read back, and then
nothing is promised about the shapes of its parts.
-/

namespace PrimalSimplex

/-- A recorded tableau. -/
structure Record (F : Type) where
  /-- the number of pivots before it -/
  iteration : Nat
  /-- the rows, the objective row last and the right hand sides last in each -/
  rows : List (List F)
  /-- the column of the basic variable of each constraint row -/
  basis : List Nat
  /-- the pivot that led to it; the first tableau has none -/
  pivot : Option (Pivot F)
  /-- whether it passed the optimality test -/
  isOptimal : Bool
  deriving DecidableEq

/-- The recorded tableaus of a run, the first one included. -/
structure Trace (F : Type) where
  /-- the names of the columns -/
  names : Names
  /-- the tableaus, in order -/
  records : List (Record F)
  deriving DecidableEq

namespace Record

variable {F : Type}

/-- The record of a tableau. -/
def of [Neg F] [LE F] [DecidableLE F] (iteration : Nat) (t : Tableau F)
    (pivot : Option (Pivot F)) : Record F :=
  ⟨iteration, t.rows, t.basis, pivot, t.isOptimal⟩

/-- The objective value of a recorded tableau: the last value of the last row. -/
def objectiveValue [Zero F] (record : Record F) : F :=
  (record.rows.getLastD []).getLastD 0

end Record

namespace Trace

variable {F : Type}

/-- The number of records. -/
def length (trace : Trace F) : Nat := trace.records.length

/-- The number of pivots, one less than there are records. -/
def pivotCount (trace : Trace F) : Nat := trace.length - 1

end Trace

end PrimalSimplex
