import PrimalSimplex.Constraint
import PrimalSimplex.Declaration
import PrimalSimplex.Event
import PrimalSimplex.Objective
import PrimalSimplex.StandardForm

/-!
# Reading problems

A problem is read from an objective line and constraint lines. Not every line becomes a row of the
tableau: declarations of nonnegativity are implied by the standard form, and a constraint that the
origin violates would need another starting point. Such lines are skipped, and the problem remembers
which and why.

Reading goes in two steps, because the number of variables is known only at the end:

* `readLines` reads the lines one by one and stops at the first faulty one. Each line that is not
  blank becomes an `Entry`.
* `Problem.ofEntries` widens all constraints to the largest subscript of the whole problem, the
  dropped ones included, and sorts the rows from the skipped lines.

What happened on the way is told by `Problem.readEvents`, which looks at the same two steps.
-/

namespace PrimalSimplex

/-- Why a line is not a row of the tableau. -/
inductive SkipReason where
  /-- the line only declares variables to be nonnegative -/
  | nonnegativity
  /-- the origin violates the constraint -/
  | infeasibleAtOrigin
  deriving DecidableEq

/-- The wording of a reason. -/
def SkipReason.message : SkipReason → String
  | nonnegativity => "non-negativity is implicit"
  | infeasibleAtOrigin => "not satisfied at the origin, needs a phase one"

/-- A constraint line that was read but is no row. -/
structure Skipped where
  /-- the index of the line among the constraint lines -/
  index : Nat
  /-- the line, trimmed -/
  line : String
  /-- why it was skipped -/
  reason : SkipReason
  deriving DecidableEq

/-- A problem and the lines that are not part of it. -/
structure Problem (F : Type) where
  /-- the problem to be solved -/
  standardForm : StandardForm F
  /-- the skipped lines, in order -/
  skipped : List Skipped
  deriving DecidableEq

/-- A constraint line that is not blank, as it was understood. -/
inductive Entry (F : Type) where
  /-- a declaration of nonnegativity -/
  | declaration (index : Nat) (line : String)
  /-- a constraint -/
  | constraint (index : Nat) (line : String) (constraint : Constraint F)

variable {F : Type}

/-! ## The lines one by one -/

section Lines

variable [Zero F] [One F] [Add F] [Sub F] [Neg F] [Finiteness F] [Numeral F]

/-- Reads a trimmed line that is not blank. Whether it is a declaration is decided with 64 bit
numbers whatever the number type of the problem. -/
def Entry.read (index : Nat) (line : String) : Except ProblemError (Entry F) :=
  if declaresNonnegativity Float line then .ok (.declaration index line)
  else match Constraint.read line with
    | .error e => .error (.parse line e)
    | .ok c =>
      if c.allFinite then .ok (.constraint index line c)
      else .error (.formulation (.tooLarge line))

/-- The lines of a problem up to the first faulty one, and what is wrong with that. -/
structure Reading (F : Type) where
  /-- the entries that could be read, in order -/
  entries : List (Entry F)
  /-- the fault of the line after them, if there is one -/
  failure : Option ProblemError

/-- Reads constraint lines, of which the first has the given index. Blank lines are ignored. -/
def readLines (index : Nat) : List String → Reading F
  | [] => ⟨[], none⟩
  | raw :: rest =>
    let line := Text.trim raw.toList
    if line.isEmpty then readLines (index + 1) rest
    else match Entry.read index (String.ofList line) with
      | .error e => ⟨[], some e⟩
      | .ok entry =>
        let reading := readLines (index + 1) rest
        ⟨entry :: reading.entries, reading.failure⟩

end Lines

namespace Entry

/-- The number of variables that an entry asks for. A declaration asks for none. -/
def variableCount : Entry F → Nat
  | declaration _ _ => 0
  | constraint _ _ c => c.variableCount

/-- What is told about an entry when its line is read. -/
def readEvents : Entry F → List Event
  | declaration _ line => [.declarationSkipped line]
  | constraint _ line c => if c.relation = .equal then [.equalityRelaxed line] else []

section Rows

variable [Zero F] [Neg F] [LT F] [LE F] [DecidableLT F] [DecidableLE F]

/-- The row of an entry over `n` variables, if it becomes one. -/
def row? (n : Nat) (eps : F) : Entry F → Option (Row F)
  | declaration _ _ => none
  | constraint _ _ c =>
    let row := c.toRow n eps
    if row.FeasibleAtOrigin then some row else none

/-- The skipped line of an entry, if it does not become a row. -/
def skipped? (n : Nat) (eps : F) : Entry F → Option Skipped
  | declaration index line => some ⟨index, line, .nonnegativity⟩
  | constraint index line c =>
    if (c.toRow n eps).FeasibleAtOrigin then none else some ⟨index, line, .infeasibleAtOrigin⟩

/-- What is told about an entry when rows are made. -/
def rowEvents [Numeral F] (n : Nat) (eps : F) : Entry F → List Event
  | declaration _ _ => []
  | constraint _ line c =>
    let row := c.toRow n eps
    if row.FeasibleAtOrigin then [] else [.constraintDropped line (Numeral.text row.rhs)]

end Rows

end Entry

/-! ## The whole problem -/

namespace Problem

/-- The number of variables of a problem: the largest subscript used anywhere. -/
def variableCount (objective : LinearExpression F) (entries : List (Entry F)) : Nat :=
  (entries.map Entry.variableCount).foldl max objective.variableCount

section

variable [Zero F] [One F] [Add F] [Sub F] [Neg F] [LT F] [LE F] [DecidableLT F] [DecidableLE F]
  [BEq F] [Finiteness F] [Numeral F]

/-- The problem with an objective function and entries. Variables that the objective function does
not mention have coefficient zero in it. -/
def ofEntries (objective : LinearExpression F) (entries : List (Entry F)) (eps : F) :
    Except ProblemError (Problem F) :=
  let n := variableCount objective entries
  (StandardForm.ofRows (padTo n objective.coefficients) (entries.filterMap (Entry.row? n eps))).map
    fun standardForm => ⟨standardForm, entries.filterMap (Entry.skipped? n eps)⟩

/-- Reads a problem from its objective line and its constraint lines. -/
def read (objective : String) (lines : List String) (eps : F) :
    Except ProblemError (Problem F) := do
  let objective ← LinearExpression.readObjective objective
  let reading := readLines 0 lines
  match reading.failure with
  | some e => .error e
  | none => ofEntries objective reading.entries eps

/-- What is told while a problem is read, also when it turns out to be faulty. -/
def readEvents (objective : String) (lines : List String) (eps : F) : List Event :=
  match LinearExpression.readObjective (F := F) objective with
  | .error _ => []
  | .ok objective =>
    let reading := readLines (F := F) 0 lines
    let told := reading.entries.flatMap Entry.readEvents
    match reading.failure with
    | some _ => told
    | none =>
      let n := variableCount objective reading.entries
      told ++ reading.entries.flatMap (Entry.rowEvents n eps) ++
        match ofEntries objective reading.entries eps with
        | .error _ => []
        | .ok problem =>
          [.problemRead problem.standardForm.variableCount problem.standardForm.constraintCount]

end

end Problem

end PrimalSimplex
