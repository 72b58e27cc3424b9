import PrimalSimplex.Trace

/-!
# Reports

A trace is shown iteration by iteration: a header, the pivot that led to the tableau, if wanted the
tableau itself, and a mark on an optimal one.
-/

namespace PrimalSimplex

namespace Report

/-- The rule above and below a header. -/
def headerRule : String := Text.rule 60 '='

/-- The title of an iteration. -/
def title (iteration : Nat) : String :=
  if iteration = 0 then "INITIAL TABLEAU" else "ITERATION " ++ toString iteration

/-- The header of an iteration. -/
def header (iteration : Nat) : String :=
  headerRule ++ "\n" ++ title iteration ++ "\n" ++ headerRule ++ "\n"

/-- The mark on an optimal tableau. -/
def optimalMark : String := "\n*** OPTIMAL SOLUTION REACHED ***\n"

variable {F : Type} [Numeral F]

/-- Describes a pivot. -/
def describePivot (names : Names) (pivot : Pivot F) : String :=
  "\nEntering variable: " ++ names.column pivot.column ++ " (column " ++ toString pivot.column ++
    ")\nLeaving variable: " ++ names.column pivot.leaving ++ " (row " ++ toString pivot.row ++
    ")\nPivot element: " ++ Table.cell pivot.element ++ "\n"

/-- Describes a recorded tableau, with or without the tableau itself. -/
def describe (names : Names) (withTableau : Bool) (record : Record F) : String :=
  header record.iteration ++
    (match record.pivot with
      | some pivot => describePivot names pivot
      | none => "") ++
    (if withTableau then "\n" ++ Table.render names record.rows record.basis else "") ++
    (if record.isOptimal then optimalMark else "")

end Report

namespace Trace

variable {F : Type} [Numeral F]

/-- Describes the record at an index, if there is one. -/
def summary? (trace : Trace F) (withTableau : Bool) (index : Nat) : Option String :=
  trace.records[index]?.map (Report.describe trace.names withTableau)

/-- Describes all records, with blank lines between them. -/
def report (trace : Trace F) (withTableaus : Bool) : String :=
  "\n".intercalate (trace.records.map (Report.describe trace.names withTableaus))

end Trace

end PrimalSimplex
