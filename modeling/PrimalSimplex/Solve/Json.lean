import PrimalSimplex.Solve
import PrimalSimplex.Trace.Json

/-!
# Solutions and outcomes in JSON

Answers are written but never read. An outcome is one object: its status, then the fields of what it
holds.
-/

namespace PrimalSimplex

variable {F : Type} [JsonNumeral F]

namespace Solution

/-- Writes a solution; a named value is a pair. -/
def toJson (solution : Solution F) : Json :=
  .record [
    ("objective_value", .ofNumeral solution.objectiveValue),
    ("solution_values",
      .ofList (fun (name, value) => .array [.ofString name, .ofNumeral value]) solution.values)]

end Solution

namespace Outcome

/-- The name of the kind of an outcome. -/
def status {F : Type} : Outcome F → String
  | optimal _ => "optimal"
  | unbounded _ => "unbounded"
  | nonConvergent _ => "non_convergent"

/-- The fields of what an outcome holds. -/
def jsonFields : Outcome F → List (String × Json)
  | optimal optimum => [
    ("solution", .ofList .ofNumeral optimum.solution),
    ("objective_value", .ofNumeral optimum.objectiveValue),
    ("trace", optimum.trace.toJson)]
  | unbounded trace => trace.jsonFields
  | nonConvergent trace => trace.jsonFields

/-- Writes an outcome. -/
def toJson (outcome : Outcome F) : Json :=
  .record (("status", .ofString outcome.status) :: outcome.jsonFields)

end Outcome

end PrimalSimplex
