import PrimalSimplex.Event
import PrimalSimplex.PivotRule
import PrimalSimplex.Solution
import PrimalSimplex.Trace

/-!
# The primal simplex method

Starting from the slack basis, the method pivots until no variable may enter the basis (the tableau
is optimal), until nothing limits the entering variable (the problem is unbounded), or until a limit
on the number of pivots is reached. The limit is looked at only when a pivot would be due, so a
tableau that becomes optimal with the last pivot allowed is still found to be optimal.

* `Tableau.run` is the loop, by recursion on the limit. It returns the pivots with the tableaus they
  lead to, and how the run ended.
* `solve` turns a run into an `Outcome`: an answer with the trace of all tableaus.
* `solveEvents` tells what happened. All of it can be read off the run, so the loop itself is not
  concerned with it.
-/

namespace PrimalSimplex

/-- How a run ends. -/
inductive Ending where
  /-- no variable may enter the basis -/
  | optimal
  /-- nothing limits the variable of the given column -/
  | unbounded (column : Nat)
  /-- the limit on the number of pivots is reached -/
  | limitReached
  deriving DecidableEq

/-- The pivots of a run with the tableaus that they lead to, and how the run ends. -/
structure Run (F : Type) where
  /-- the pivots and the tableaus after them, in order -/
  steps : List (Pivot F × Tableau F)
  /-- how the run ends -/
  ending : Ending
  deriving DecidableEq

/-- An optimal basic solution. -/
structure Optimum (F : Type) where
  /-- the values of the decision variables -/
  solution : List F
  /-- the largest objective value -/
  objectiveValue : F
  /-- all tableaus, the last one being optimal -/
  trace : Trace F
  deriving DecidableEq

/-- The answer of the method, always with the trace of all tableaus. -/
inductive Outcome (F : Type) where
  /-- the last tableau is optimal -/
  | optimal (optimum : Optimum F)
  /-- the objective value has no bound -/
  | unbounded (trace : Trace F)
  /-- the limit on the number of pivots was reached -/
  | nonConvergent (trace : Trace F)
  deriving DecidableEq

namespace Optimum

/-- The solution under the names of the decision variables. -/
def named {F : Type} (optimum : Optimum F) : Solution F :=
  ⟨optimum.objectiveValue, optimum.trace.names.decisionVariables.zip optimum.solution⟩

end Optimum

namespace Outcome

variable {F : Type}

/-- The trace of an outcome. -/
def trace : Outcome F → Trace F
  | optimal optimum => optimum.trace
  | unbounded trace => trace
  | nonConvergent trace => trace

/-- The optimum, if there is one. -/
def optimum? : Outcome F → Option (Optimum F)
  | optimal optimum => some optimum
  | unbounded _ => none
  | nonConvergent _ => none

end Outcome

/-! ## The loop -/

/-- The run from a tableau with at most `limit` pivots. -/
def Tableau.run {F : Type} [Zero F] [Sub F] [Neg F] [Mul F] [Div F] [LT F] [LE F] [DecidableLT F]
    [DecidableLE F] [BEq F] (rule : PivotRule) (limit : Nat) (t : Tableau F) : Run F :=
  match rule.entering? t with
  | none => ⟨[], .optimal⟩
  | some entering =>
    match limit with
    | 0 => ⟨[], .limitReached⟩
    | limit + 1 =>
      match rule.leavingRow? t entering.column with
      | none => ⟨[], .unbounded entering.column⟩
      | some row =>
        let next := t.pivot row entering.column
        let run := Tableau.run rule limit next
        ⟨(t.pivotAt row entering.column, next) :: run.steps, run.ending⟩

section Steps

variable {F : Type} [Zero F] [Sub F] [Neg F] [Mul F] [Div F] [LT F] [LE F] [DecidableLT F]
  [DecidableLE F] [BEq F] {rule : PivotRule} {t : Tableau F}

/-- A run ends at an optimal tableau, whatever the limit. -/
theorem Tableau.run_optimal (limit : Nat) (h : rule.entering? t = none) :
    t.run rule limit = ⟨[], .optimal⟩ := by
  unfold Tableau.run
  rw [h]

/-- A run ends where a pivot is due and none is allowed. -/
theorem Tableau.run_zero {entering : Entering F} (h : rule.entering? t = some entering) :
    t.run rule 0 = ⟨[], .limitReached⟩ := by
  unfold Tableau.run
  rw [h]

/-- A run ends where nothing limits the entering variable. -/
theorem Tableau.run_unbounded {entering : Entering F} (limit : Nat)
    (h : rule.entering? t = some entering) (hrow : rule.leavingRow? t entering.column = none) :
    t.run rule (limit + 1) = ⟨[], .unbounded entering.column⟩ := by
  rw [Tableau.run, h]
  simp only [hrow]

/-- Otherwise a run pivots and goes on from there. -/
theorem Tableau.run_pivot {entering : Entering F} {row : Nat} (limit : Nat)
    (h : rule.entering? t = some entering) (hrow : rule.leavingRow? t entering.column = some row) :
    t.run rule (limit + 1) =
      ⟨(t.pivotAt row entering.column, t.pivot row entering.column) ::
          ((t.pivot row entering.column).run rule limit).steps,
        ((t.pivot row entering.column).run rule limit).ending⟩ := by
  rw [Tableau.run, h]
  simp only [hrow]

end Steps

namespace Run

variable {F : Type}

/-- The last tableau of a run that starts at the given one. -/
def final (start : Tableau F) (run : Run F) : Tableau F :=
  (run.steps.map Prod.snd).getLastD start

/-- The trace of a run that starts at the given tableau. -/
def trace [Neg F] [LE F] [DecidableLE F] (start : Tableau F) (run : Run F) : Trace F where
  names := Names.standard start.decisionCount start.rowCount
  records :=
    Record.of 0 start none ::
      run.steps.mapIdx fun k (pivot, t) => Record.of (k + 1) t (some pivot)

/-- The answer of a run that starts at the given tableau. -/
def outcome [Zero F] [Neg F] [LE F] [DecidableLE F] (start : Tableau F) (run : Run F) : Outcome F :=
  let trace := run.trace start
  match run.ending with
  | .optimal =>
    .optimal ⟨(run.final start).basicSolution, (run.final start).objectiveValue, trace⟩
  | .unbounded _ => .unbounded trace
  | .limitReached => .nonConvergent trace

/-! ## What happened -/

section Events

variable [Zero F] [Sub F] [Neg F] [Div F] [LT F] [LE F] [DecidableLT F] [DecidableLE F] [Numeral F]

/-- What is told about the pivots after a tableau, of which the first has the given number: the ties
of its ratio test and the pivot itself. -/
def stepEvents (rule : PivotRule) (names : Names) (iteration : Nat) (t : Tableau F) :
    List (Pivot F × Tableau F) → List Event
  | [] => []
  | (pivot, next) :: rest =>
    (t.ratioTies rule.tieBreak pivot.column).map (fun (first, second) => .ratioTie first second) ++
      .pivoted iteration (names.column pivot.column) (Numeral.text (t.relativeCost pivot.column))
        (names.column pivot.leaving) (Numeral.text pivot.element)
        (Numeral.text next.objectiveValue) ::
      stepEvents rule names (iteration + 1) next rest

/-- What is told about the end of a run. -/
def endEvent (limit : Nat) (names : Names) (start : Tableau F) (run : Run F) : Event :=
  match run.ending with
  | .optimal => .optimal run.steps.length (Numeral.text (run.final start).objectiveValue)
  | .unbounded column => .unbounded (names.column column)
  | .limitReached => .limitReached limit

/-- What is told about a run that starts at the given tableau. -/
def events (rule : PivotRule) (limit : Nat) (start : Tableau F) (run : Run F) : List Event :=
  let names := Names.standard start.decisionCount start.rowCount
  stepEvents rule names 1 start run.steps ++ [endEvent limit names start run]

end Events

end Run

/-! ## Solving -/

section

variable {F : Type} [Zero F] [One F] [Sub F] [Neg F] [Mul F] [Div F] [LT F] [LE F] [DecidableLT F]
  [DecidableLE F] [BEq F]

/-- Solves a problem with at most `limit` pivots. -/
def solve (rule : PivotRule) (limit : Nat) (eps : F) (problem : StandardForm F) : Outcome F :=
  let start := Tableau.initial problem eps
  (start.run rule limit).outcome start

/-- What is told while a problem is solved. -/
def solveEvents [Numeral F] (rule : PivotRule) (limit : Nat) (eps : F) (problem : StandardForm F) :
    List Event :=
  let start := Tableau.initial problem eps
  (start.run rule limit).events rule limit start

end

end PrimalSimplex
