import PrimalSimplex.Json.Decode
import PrimalSimplex.Settings

/-!
# Settings in JSON

Every field of the settings has a default, so any of them may be left out; a field that is no
setting is refused, since it is most likely misspelt.
-/

namespace PrimalSimplex

open Json

namespace Settings

/-- Writes settings. -/
def toJson (settings : Settings) : Json :=
  .record [
    ("max_iterations", .ofNat settings.maxIterations),
    ("epsilon", .ofNumeral settings.epsilon),
    ("pivot_rule", .ofString settings.pivotRule.name)]

/-- Reads settings. -/
def ofJson? (json : Json) : Option Settings := do
  match ← json.fields? .closed ["max_iterations", "epsilon", "pivot_rule"] with
  | [maxIterations, epsilon, pivotRule] =>
    return ⟨← defaulted? standard.maxIterations nat? maxIterations,
      ← defaulted? standard.epsilon numeral? epsilon,
      ← defaulted? standard.pivotRule (fun json => do PivotRule.ofName? (← choice? json)) pivotRule⟩
  | _ => none

/-- Reads the text of settings. -/
def ofJsonText? (text : String) : Option Settings := do ofJson? (← Json.read? text)

end Settings

end PrimalSimplex
