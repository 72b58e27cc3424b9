import PrimalSimplex.Numeral
import PrimalSimplex.Text.Column

/-!
# Solutions with names

The optimal objective value and the values of the decision variables under their names, as they are
shown to a user.
-/

namespace PrimalSimplex

/-- An objective value and named values of variables. -/
structure Solution (F : Type) where
  /-- the objective value -/
  objectiveValue : F
  /-- the variables with their values, in order -/
  values : List (String × F)
  deriving DecidableEq

namespace Solution

variable {F : Type}

/-- The value of the first variable with the given name. -/
def get? (solution : Solution F) (name : String) : Option F :=
  (solution.values.find? fun (key, _) => key == name).map Prod.snd

/-- Writes one value per line, the names aligned to the right, the objective value first. -/
def render [Numeral F] (solution : Solution F) : String :=
  let width := Text.widest ("Z" :: solution.values.map Prod.fst)
  let line := fun (name : String) (value : F) =>
    Text.alignRight width name ++ " = " ++ Numeral.text value ++ "\n"
  line "Z" solution.objectiveValue ++
    String.join (solution.values.map fun (name, value) => line name value)

end Solution

end PrimalSimplex
