import PrimalSimplex.Tableau.RatioTest
import PrimalSimplex.Text.Blank
import PrimalSimplex.Text.LowerCase

/-!
# Pivot rules

A variable may enter the basis when it is not basic and its relative cost is negative beyond the
tolerance. A pivot rule chooses one of these variables and says how the ratio test breaks ties:

* Dantzig's rule takes the most negative relative cost, the first of equal ones, and the first of
  tied rows. It usually needs few pivots, but it may cycle.
* Bland's rule takes the first variable, and among tied rows the one whose basic variable comes
  first. It never cycles.
-/

namespace PrimalSimplex

/-- A rule for choosing pivots. -/
inductive PivotRule where
  /-- the most negative relative cost -/
  | dantzig
  /-- the lowest index -/
  | bland
  deriving DecidableEq

/-- A variable that may enter the basis. -/
structure Entering (F : Type) where
  /-- its column -/
  column : Nat
  /-- its relative cost -/
  cost : F
  deriving DecidableEq

/-- The variables that may enter the basis, in the order of their columns. -/
def Tableau.profitable {F : Type} [Neg F] [LT F] [DecidableLT F] (t : Tableau F) :
    List (Entering F) :=
  t.relativeCosts.zipIdx.filterMap fun (cost, column) =>
    if !t.isBasic column && decide (cost < -t.eps) then some ⟨column, cost⟩ else none

/-- The cheaper of two variables, the first one if the costs are equal. -/
def Entering.cheaper {F : Type} [LT F] [DecidableLT F] (best next : Entering F) : Entering F :=
  if next.cost < best.cost then next else best

namespace PivotRule

/-- The name of a rule. -/
def name : PivotRule → String
  | dantzig => "dantzig"
  | bland => "bland"

/-- How a rule breaks ties in the ratio test. -/
def tieBreak : PivotRule → TieBreak
  | dantzig => .firstRow
  | bland => .lowestLeaving

/-- The variable that a rule lets enter the basis. There is none when the tableau is optimal. -/
def entering? {F : Type} [Neg F] [LT F] [DecidableLT F] (rule : PivotRule) (t : Tableau F) :
    Option (Entering F) :=
  match rule, t.profitable with
  | _, [] => none
  | bland, first :: _ => some first
  | dantzig, first :: rest => some (rest.foldl Entering.cheaper first)

/-- The row in which a variable enters under a rule. -/
def leavingRow? {F : Type} [Zero F] [Sub F] [Neg F] [Div F] [LT F] [LE F] [DecidableLT F]
    [DecidableLE F] (rule : PivotRule) (t : Tableau F) (column : Nat) : Option Nat :=
  t.leavingRow? rule.tieBreak column

/-! ## Names -/

/-- What is said about a text that names no rule. -/
def unknownMessage (name : String) : String :=
  "unknown pivot rule \"" ++ name ++ "\", expected \"dantzig\" or \"bland\""

/-- The rule with exactly the given name. -/
def ofName? (name : String) : Option PivotRule :=
  if name = "dantzig" then some dantzig
  else if name = "bland" then some bland
  else none

/-- A rule is found by its name. -/
theorem ofName?_name (rule : PivotRule) : ofName? rule.name = some rule := by
  cases rule <;> rfl

/-- Reads the name of a rule, in any letter case and with blanks around it. The failure is the text
that was looked up. -/
def read (text : String) : Except String PivotRule :=
  let name := String.ofList (Text.lower (Text.trim text.toList))
  match ofName? name with
  | some rule => .ok rule
  | none => .error name

end PivotRule

end PrimalSimplex
