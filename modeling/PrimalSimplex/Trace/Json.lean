import PrimalSimplex.Json.Decode
import PrimalSimplex.Trace

/-!
# Traces in JSON

A trace is stored with the names of its columns and all its records. Reading accepts any shapes: it
is only checked that the parts are numbers, indices and names where they should be.
-/

namespace PrimalSimplex

open Json

namespace Names

/-- Writes names. -/
def toJson (names : Names) : Json :=
  .record [
    ("nr_decision_variables", .ofNat names.decisionCount),
    ("columns", .ofList .ofString names.columns)]

/-- Reads names. -/
def ofJson? (json : Json) : Option Names := do
  match ← json.fields? .opened ["nr_decision_variables", "columns"] with
  | [decisionCount, columns] =>
    return ⟨← required? nat? decisionCount, ← required? (list? text?) columns⟩
  | _ => none

end Names

namespace Pivot

variable {F : Type} [JsonNumeral F]

/-- Writes a pivot. -/
def toJson (pivot : Pivot F) : Json :=
  .record [
    ("row", .ofNat pivot.row),
    ("column", .ofNat pivot.column),
    ("element", .ofNumeral pivot.element),
    ("leaving", .ofNat pivot.leaving)]

/-- Reads a pivot. -/
def ofJson? (json : Json) : Option (Pivot F) := do
  match ← json.fields? .opened ["row", "column", "element", "leaving"] with
  | [row, column, element, leaving] =>
    return ⟨← required? nat? row, ← required? nat? column, ← required? numeral? element,
      ← required? nat? leaving⟩
  | _ => none

end Pivot

namespace Record

variable {F : Type} [JsonNumeral F]

/-- Writes a record. -/
def toJson (record : Record F) : Json :=
  .record [
    ("iteration", .ofNat record.iteration),
    ("tableau", .ofList (.ofList .ofNumeral) record.rows),
    ("basis", .ofList .ofNat record.basis),
    ("pivot", .ofOption Pivot.toJson record.pivot),
    ("is_optimal", .bool record.isOptimal)]

/-- Reads a record. -/
def ofJson? (json : Json) : Option (Record F) := do
  match ← json.fields? .opened ["iteration", "tableau", "basis", "pivot", "is_optimal"] with
  | [iteration, rows, basis, pivot, isOptimal] =>
    return ⟨← required? nat? iteration, ← required? (list? (list? numeral?)) rows,
      ← required? (list? nat?) basis, ← optional? Pivot.ofJson? pivot,
      ← required? bool? isOptimal⟩
  | _ => none

end Record

namespace Trace

variable {F : Type} [JsonNumeral F]

/-- The fields of a trace. -/
def jsonFields (trace : Trace F) : List (String × Json) :=
  [("names", trace.names.toJson), ("records", .ofList Record.toJson trace.records)]

/-- Writes a trace. -/
def toJson (trace : Trace F) : Json := .record trace.jsonFields

/-- Reads a trace. -/
def ofJson? (json : Json) : Option (Trace F) := do
  match ← json.fields? .opened ["names", "records"] with
  | [names, records] =>
    return ⟨← required? Names.ofJson? names, ← required? (list? Record.ofJson?) records⟩
  | _ => none

/-- Reads the text of a trace. -/
def ofJsonText? (text : String) : Option (Trace F) := do ofJson? (← Json.read? text)

end Trace

end PrimalSimplex
