import PrimalSimplex.Tableau

/-!
# The ratio test

When a variable enters the basis, the basic variables change in proportion to its column, and the
first one to reach zero has to leave. The rows that limit the entering variable are those with an
entry above the tolerance; each is a `Candidate` with the ratio of its value to that entry, and a
candidate with the smallest ratio wins.

Ratios within the tolerance of each other are a tie. A tie is broken by the order of the rows or by
the lowest leaving variable (`TieBreak`); either way the smaller ratio is what later candidates are
compared with. Candidates are therefore compared one after the other, and `ties` tells which
comparisons ended in a tie.
-/

namespace PrimalSimplex

/-- How a tie in the ratio test is broken. -/
inductive TieBreak where
  /-- the first row wins -/
  | firstRow
  /-- the row whose basic variable has the lowest index wins -/
  | lowestLeaving
  deriving DecidableEq

/-- A row that limits the entering variable. -/
structure Candidate (F : Type) where
  /-- the row -/
  row : Nat
  /-- how far the entering variable can grow before the row's basic variable is zero -/
  ratio : F
  /-- the column of the row's basic variable -/
  leaving : Nat
  deriving DecidableEq

namespace Candidate

variable {F : Type} [Zero F] [Sub F] [Neg F] [LT F] [LE F] [DecidableLT F] [DecidableLE F]

/-- Whether two candidates have the same ratio, up to a tolerance. -/
def isTie (eps : F) (best next : Candidate F) : Bool :=
  decide (Tableau.magnitude (next.ratio - best.ratio) ≤ eps)

/-- The smaller of two ratios. -/
def smaller (first second : F) : F := if second < first then second else first

/-- The better of two candidates, the second being that of a later row. In a tie the winner takes
the smaller ratio along. -/
def better (tieBreak : TieBreak) (eps : F) (best next : Candidate F) : Candidate F :=
  if isTie eps best next then
    let ratio := smaller best.ratio next.ratio
    if tieBreak = .lowestLeaving ∧ next.leaving < best.leaving then
      ⟨next.row, ratio, next.leaving⟩
    else
      ⟨best.row, ratio, best.leaving⟩
  else if next.ratio < best.ratio then next
  else best

/-- The best of some candidates. -/
def best? (tieBreak : TieBreak) (eps : F) : List (Candidate F) → Option (Candidate F)
  | [] => none
  | first :: rest => some (rest.foldl (better tieBreak eps) first)

/-- The pairs of rows that tie while candidates are compared with the best one so far. -/
def tiesWith (tieBreak : TieBreak) (eps : F) (best : Candidate F) :
    List (Candidate F) → List (Nat × Nat)
  | [] => []
  | next :: rest =>
    let later := tiesWith tieBreak eps (better tieBreak eps best next) rest
    if isTie eps best next then (best.row, next.row) :: later else later

/-- The pairs of rows that tie while the best of some candidates is found. -/
def ties (tieBreak : TieBreak) (eps : F) : List (Candidate F) → List (Nat × Nat)
  | [] => []
  | first :: rest => tiesWith tieBreak eps first rest

end Candidate

namespace Tableau

variable {F : Type} [Zero F] [Sub F] [Neg F] [Div F] [LT F] [LE F] [DecidableLT F] [DecidableLE F]

/-- The candidate of a row, if the row limits the variable of a column. -/
def candidate? (t : Tableau F) (column row : Nat) : Option (Candidate F) :=
  if t.eps < t.entry row column then
    some ⟨row, t.constraintValue row / t.entry row column, t.basicColumn row⟩
  else none

/-- The rows that limit the variable of a column. -/
def candidates (t : Tableau F) (column : Nat) : List (Candidate F) :=
  (List.range t.rowCount).filterMap (t.candidate? column)

/-- The row of the leaving variable. There is none when nothing limits the entering variable, and
then the problem is unbounded. -/
def leavingRow? (t : Tableau F) (tieBreak : TieBreak) (column : Nat) : Option Nat :=
  (Candidate.best? tieBreak t.eps (t.candidates column)).map Candidate.row

/-- The pairs of rows that tie in the ratio test. -/
def ratioTies (t : Tableau F) (tieBreak : TieBreak) (column : Nat) : List (Nat × Nat) :=
  Candidate.ties tieBreak t.eps (t.candidates column)

end Tableau

end PrimalSimplex
