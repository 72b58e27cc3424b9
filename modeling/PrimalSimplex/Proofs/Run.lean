import Mathlib.Logic.Function.Iterate
import PrimalSimplex.Solve

/-!
# Runs as sequences of tableaus

`Tableau.run` recurses on its limit and conses pivots on the way back, which is the right shape for
running it and the wrong one for talking about it: most facts about a run are facts about *the
tableau after `k` pivots*, whatever the limit is. A rule is deterministic, so that tableau exists
before any run does:

* `Tableau.step?` is the pivot that a rule makes in a tableau, if it makes one;
* `Tableau.after` is the tableau after `k` pivots. It stays where it is once there is no pivot.

A run with a limit is then a *prefix* of that sequence (`Tableau.getElem?_steps`), its trace records
the prefix (`Tableau.getElem?_records`), and how it ends depends on the tableau where it stops
(`Tableau.endsAt_run`). What one pivot preserves holds all along the sequence
(`Tableau.after_induction`).

Nothing is assumed about the arithmetic.
-/

namespace PrimalSimplex

variable {F : Type} [Zero F] [Sub F] [Neg F] [Mul F] [Div F] [LT F] [LE F] [DecidableLT F]
  [DecidableLE F] [BEq F] {rule : PivotRule}

namespace Tableau

/-! ## One pivot -/

/-- The pivot that a rule makes, with the tableau that it leads to. There is none when no variable
may enter the basis, and none when nothing limits the one that does. -/
def step? (rule : PivotRule) (t : Tableau F) : Option (Pivot F × Tableau F) :=
  match rule.entering? t with
  | none => none
  | some entering =>
    match rule.leavingRow? t entering.column with
    | none => none
    | some row => some (t.pivotAt row entering.column, t.pivot row entering.column)

/-- The tableau after one pivot, or the same one if there is no pivot. -/
def next (rule : PivotRule) (t : Tableau F) : Tableau F :=
  ((t.step? rule).map Prod.snd).getD t

/-- The tableau after `k` pivots. -/
def after (rule : PivotRule) (k : Nat) (t : Tableau F) : Tableau F :=
  (next rule)^[k] t

/-- A pivot is one that the rule's two choices give. -/
theorem step?_eq_some_iff {t : Tableau F} {step : Pivot F × Tableau F} :
    t.step? rule = some step ↔
      ∃ entering row, rule.entering? t = some entering ∧
        rule.leavingRow? t entering.column = some row ∧
        step = (t.pivotAt row entering.column, t.pivot row entering.column) := by
  constructor
  · intro h
    unfold step? at h
    rcases hentering : rule.entering? t with - | entering
    · rw [hentering] at h
      cases h
    · rw [hentering] at h
      rcases hrow : rule.leavingRow? t entering.column with - | row
      · simp [hrow] at h
      · simp only [hrow, Option.some.injEq] at h
        exact ⟨entering, row, rfl, hrow, h.symm⟩
  · rintro ⟨entering, row, hentering, hrow, rfl⟩
    simp [step?, hentering, hrow]

/-- The tableau after a pivot is the next one. -/
theorem next_of_step? {t : Tableau F} {step : Pivot F × Tableau F} (h : t.step? rule = some step) :
    t.next rule = step.2 := by
  rw [next, h]
  rfl

/-! ## The sequence of tableaus -/

@[simp] theorem after_zero (t : Tableau F) : t.after rule 0 = t := rfl

theorem after_succ (k : Nat) (t : Tableau F) :
    t.after rule (k + 1) = (t.after rule k).next rule :=
  Function.iterate_succ_apply' _ _ _

/-- The sequence from the second tableau on. -/
theorem after_succ_of_step? {t : Tableau F} {step : Pivot F × Tableau F}
    (h : t.step? rule = some step) (k : Nat) : t.after rule (k + 1) = step.2.after rule k := by
  rw [after, Function.iterate_succ_apply, next_of_step? h]
  rfl

/-- **What one pivot preserves holds all along the sequence.** -/
theorem after_induction (rule : PivotRule) {P : Tableau F → Prop} {t : Tableau F} (hstart : P t)
    (hstep : ∀ t step, P t → t.step? rule = some step → P step.2) (k : Nat) :
    P (t.after rule k) := by
  induction k with
  | zero => exact hstart
  | succ k ih =>
    rw [after_succ]
    rcases hnext : (t.after rule k).step? rule with - | step
    · rw [next, hnext]
      exact ih
    · rw [next_of_step? hnext]
      exact hstep _ _ ih hnext

/-! ## Runs -/

/-- A run makes the first pivot of the sequence if its limit allows one. -/
theorem run_of_step? {t : Tableau F} {step : Pivot F × Tableau F} (limit : Nat)
    (h : t.step? rule = some step) :
    t.run rule (limit + 1) =
      ⟨step :: (step.2.run rule limit).steps, (step.2.run rule limit).ending⟩ := by
  obtain ⟨entering, row, hentering, hrow, rfl⟩ := step?_eq_some_iff.mp h
  exact run_pivot limit hentering hrow

/-- What the end of a run says about the tableau where it stops, and about the number of pivots
made until then. -/
def EndsAt (rule : PivotRule) (limit pivots : Nat) (t : Tableau F) : Ending → Prop
  | .optimal => rule.entering? t = none
  | .unbounded column => ∃ entering, rule.entering? t = some entering ∧
      entering.column = column ∧ rule.leavingRow? t column = none
  | .limitReached => pivots = limit ∧ ∃ entering, rule.entering? t = some entering

/-- A run either makes the first pivot of the sequence or stops at once. -/
theorem run_cases (rule : PivotRule) (limit : Nat) (t : Tableau F) :
    ((t.run rule limit).steps = [] ∧ EndsAt rule limit 0 t (t.run rule limit).ending) ∨
      ∃ limit' step, limit = limit' + 1 ∧ t.step? rule = some step ∧
        t.run rule limit =
          ⟨step :: (step.2.run rule limit').steps, (step.2.run rule limit').ending⟩ := by
  rcases hentering : rule.entering? t with - | entering
  · left
    rw [run_optimal limit hentering]
    exact ⟨rfl, hentering⟩
  cases limit with
  | zero =>
    left
    rw [run_zero hentering]
    exact ⟨rfl, rfl, entering, hentering⟩
  | succ limit =>
    rcases hrow : rule.leavingRow? t entering.column with - | row
    · left
      rw [run_unbounded limit hentering hrow]
      exact ⟨rfl, entering, hentering, rfl, hrow⟩
    · right
      have hstep : t.step? rule =
          some (t.pivotAt row entering.column, t.pivot row entering.column) :=
        step?_eq_some_iff.mpr ⟨entering, row, hentering, hrow, rfl⟩
      exact ⟨limit, _, rfl, hstep, run_of_step? limit hstep⟩

/-- A run makes no more pivots than its limit. -/
theorem length_steps_le (rule : PivotRule) (limit : Nat) (t : Tableau F) :
    (t.run rule limit).steps.length ≤ limit := by
  induction limit generalizing t with
  | zero =>
    obtain ⟨hnil, -⟩ | ⟨limit', step, hlimit, -, -⟩ := run_cases rule 0 t
    · rw [hnil]
      exact Nat.le_refl 0
    · cases hlimit
  | succ limit ih =>
    obtain ⟨hnil, -⟩ | ⟨limit', step, hlimit, -, hrun⟩ := run_cases rule (limit + 1) t
    · rw [hnil]
      exact Nat.zero_le _
    · obtain rfl := Nat.succ.inj hlimit
      rw [hrun]
      exact Nat.succ_le_succ (ih step.2)

/-- **A run is a prefix of the sequence**: its pivots are those of the sequence, in order. -/
theorem getElem?_steps (rule : PivotRule) (limit k : Nat) (t : Tableau F)
    (hk : k < (t.run rule limit).steps.length) :
    (t.run rule limit).steps[k]? = (t.after rule k).step? rule := by
  -- the induction is on the limit, which bounds the number of pivots, and takes one off the front
  induction limit generalizing t k with
  | zero =>
    have := length_steps_le rule 0 t
    omega
  | succ limit ih =>
    obtain ⟨hnil, -⟩ | ⟨limit', step, hlimit, hstep, hrun⟩ := run_cases rule (limit + 1) t
    · rw [hnil] at hk
      cases hk
    · obtain rfl := Nat.succ.inj hlimit
      rw [hrun] at hk ⊢
      cases k with
      | zero => exact hstep.symm
      | succ k =>
        rw [after_succ_of_step? hstep]
        exact ih k step.2 (Nat.lt_of_succ_lt_succ hk)

/-- Every tableau of a run but the last one is followed by a pivot. -/
theorem exists_step? {limit k : Nat} {t : Tableau F} (hk : k < (t.run rule limit).steps.length) :
    ∃ step, (t.after rule k).step? rule = some step ∧ t.after rule (k + 1) = step.2 := by
  have hsteps := getElem?_steps rule limit k t hk
  rw [List.getElem?_eq_getElem hk] at hsteps
  refine ⟨_, hsteps.symm, ?_⟩
  rw [after_succ, next_of_step? hsteps.symm]

/-- The tableaus that a run leads to are those of the sequence. -/
theorem exists_eq_after_of_mem_steps {limit : Nat} {t : Tableau F} {step : Pivot F × Tableau F}
    (h : step ∈ (t.run rule limit).steps) :
    ∃ k ≤ (t.run rule limit).steps.length, step.2 = t.after rule k := by
  obtain ⟨k, hk, rfl⟩ := List.getElem_of_mem h
  obtain ⟨step, hstep, hafter⟩ := exists_step? hk
  have hsteps := getElem?_steps rule limit k t hk
  rw [List.getElem?_eq_getElem hk, hstep] at hsteps
  refine ⟨k + 1, hk, ?_⟩
  rw [Option.some.inj hsteps, hafter]

/-- **How a run ends** is decided by the tableau where it stops. -/
theorem endsAt_run (rule : PivotRule) (limit : Nat) (t : Tableau F) :
    EndsAt rule limit (t.run rule limit).steps.length
      (t.after rule (t.run rule limit).steps.length) (t.run rule limit).ending := by
  induction limit generalizing t with
  | zero =>
    obtain ⟨hnil, hends⟩ | ⟨limit', step, hlimit, -, -⟩ := run_cases rule 0 t
    · rw [hnil]
      exact hends
    · cases hlimit
  | succ limit ih =>
    obtain ⟨hnil, hends⟩ | ⟨limit', step, hlimit, hstep, hrun⟩ := run_cases rule (limit + 1) t
    · rw [hnil]
      exact hends
    · obtain rfl := Nat.succ.inj hlimit
      rw [hrun, List.length_cons, after_succ_of_step? hstep]
      have hends := ih step.2
      -- only the count in the case of the limit depends on the pivot made here
      rcases hending : (step.2.run rule limit).ending with - | column | -
      · rw [hending] at hends
        exact hends
      · rw [hending] at hends
        exact hends
      · rw [hending] at hends
        exact ⟨congrArg Nat.succ hends.1, hends.2⟩

/-- The last tableau of a run. -/
theorem final_run (rule : PivotRule) (limit : Nat) (t : Tableau F) :
    (t.run rule limit).final t = t.after rule (t.run rule limit).steps.length := by
  rcases hlength : (t.run rule limit).steps.length with - | k
  · rw [Run.final, List.eq_nil_of_length_eq_zero hlength]
    rfl
  · have hk : k < (t.run rule limit).steps.length := by omega
    obtain ⟨step, hstep, hafter⟩ := exists_step? hk
    rw [hafter, Run.final, List.getLastD_eq_getLast?, List.getLast?_map, List.getLast?_eq_getElem?,
      hlength, Nat.add_sub_cancel, getElem?_steps rule limit k t hk, hstep]
    rfl

/-! ## Traces -/

/-- The pivot that leads to the tableau after `k` pivots; none leads to the first one. -/
def pivotBefore (rule : PivotRule) (t : Tableau F) : Nat → Option (Pivot F)
  | 0 => none
  | k + 1 => ((t.after rule k).step? rule).map Prod.fst

/-- There is one record for the first tableau and one for each pivot. -/
theorem length_records (rule : PivotRule) (limit : Nat) (t : Tableau F) :
    ((t.run rule limit).trace t).records.length = (t.run rule limit).steps.length + 1 := by
  simp [Run.trace]

/-- **The trace records the sequence**: record `k` shows the tableau after `k` pivots. -/
theorem getElem?_records (rule : PivotRule) (limit k : Nat) (t : Tableau F)
    (hk : k ≤ (t.run rule limit).steps.length) :
    ((t.run rule limit).trace t).records[k]? =
      some (Record.of k (t.after rule k) (t.pivotBefore rule k)) := by
  cases k with
  | zero => rfl
  | succ k =>
    obtain ⟨step, hstep, hafter⟩ := exists_step? hk
    have hsteps := getElem?_steps rule limit k t hk
    rw [Run.trace, List.getElem?_cons_succ, List.getElem?_mapIdx, hsteps, hstep, hafter,
      pivotBefore, hstep]
    rfl

end Tableau

/-- The tableau that a record shows, for a run with `n` decision variables and the tolerance
`eps`. -/
def Record.tableau (n : Nat) (eps : F) (record : Record F) : Tableau F :=
  ⟨record.rows, record.basis, n, eps⟩

omit [Zero F] [Sub F] [Mul F] [Div F] [LT F] [DecidableLT F] [BEq F] in
/-- The record of a tableau shows that tableau. -/
theorem Record.tableau_of {t : Tableau F} {n k : Nat} {eps : F} {pivot : Option (Pivot F)}
    (hcount : t.decisionCount = n) (heps : t.eps = eps) :
    (Record.of k t pivot).tableau n eps = t := by
  subst hcount heps
  rfl

/-! ## Solving

The lemmas below speak of the tableau where the run stops as the one after as many pivots as the
trace counts. -/

namespace Run

omit [Sub F] [Mul F] [Div F] [LT F] [DecidableLT F] [BEq F]

/-- The trace of an answer is that of the run, however the run ends. -/
theorem trace_outcome (start : Tableau F) (run : Run F) :
    (run.outcome start).trace = run.trace start := by
  obtain ⟨steps, ending⟩ := run
  cases ending <;> rfl

variable {start : Tableau F} {run : Run F}

/-- An optimum is the answer of a run that ends as optimal. -/
theorem outcome_eq_optimal_iff {optimum : Optimum F} :
    run.outcome start = .optimal optimum ↔ run.ending = .optimal ∧
      optimum = ⟨(run.final start).basicSolution, (run.final start).objectiveValue,
        run.trace start⟩ := by
  obtain ⟨steps, ending⟩ := run
  cases ending <;> simp [outcome, eq_comm]

/-- A problem is answered to be unbounded when the run ends so. -/
theorem outcome_eq_unbounded_iff {trace : Trace F} :
    run.outcome start = .unbounded trace ↔
      (∃ column, run.ending = .unbounded column) ∧ trace = run.trace start := by
  obtain ⟨steps, ending⟩ := run
  cases ending <;> simp [outcome, eq_comm]

/-- The answer is open when the run ends at its limit. -/
theorem outcome_eq_nonConvergent_iff {trace : Trace F} :
    run.outcome start = .nonConvergent trace ↔
      run.ending = .limitReached ∧ trace = run.trace start := by
  obtain ⟨steps, ending⟩ := run
  cases ending <;> simp [outcome, eq_comm]

end Run

section Solve

variable [One F] {limit : Nat} {eps : F} {problem : StandardForm F}

theorem trace_solve (rule : PivotRule) (limit : Nat) (eps : F) (problem : StandardForm F) :
    (solve rule limit eps problem).trace =
      ((Tableau.initial problem eps).run rule limit).trace (Tableau.initial problem eps) :=
  Run.trace_outcome _ _

/-- The number of pivots of an answer is that of the run. -/
theorem pivotCount_solve (rule : PivotRule) (limit : Nat) (eps : F) (problem : StandardForm F) :
    (solve rule limit eps problem).trace.pivotCount =
      ((Tableau.initial problem eps).run rule limit).steps.length := by
  rw [trace_solve, Trace.pivotCount, Trace.length, Tableau.length_records, Nat.add_sub_cancel]

/-- An answer has one record more than it has pivots. -/
theorem length_records_solve (rule : PivotRule) (limit : Nat) (eps : F)
    (problem : StandardForm F) :
    (solve rule limit eps problem).trace.records.length =
      (solve rule limit eps problem).trace.pivotCount + 1 := by
  rw [pivotCount_solve, trace_solve, Tableau.length_records]

/-- Record `k` of an answer shows the tableau after `k` pivots. -/
theorem getElem_records_solve {k : Nat}
    (hk : k < (solve rule limit eps problem).trace.records.length) :
    (solve rule limit eps problem).trace.records[k] =
      Record.of k ((Tableau.initial problem eps).after rule k)
        ((Tableau.initial problem eps).pivotBefore rule k) := by
  have hle : k ≤ ((Tableau.initial problem eps).run rule limit).steps.length := by
    rw [length_records_solve, pivotCount_solve] at hk
    exact Nat.le_of_lt_succ hk
  have hrecord := Tableau.getElem?_records rule limit k _ hle
  rw [← trace_solve, List.getElem?_eq_getElem hk] at hrecord
  exact Option.some.inj hrecord

/-- Every record of an answer shows a tableau of the sequence. -/
theorem exists_eq_of_mem_records {record : Record F}
    (h : record ∈ (solve rule limit eps problem).trace.records) :
    ∃ k pivot, record = Record.of k ((Tableau.initial problem eps).after rule k) pivot := by
  obtain ⟨k, hk, rfl⟩ := List.getElem_of_mem h
  exact ⟨k, _, getElem_records_solve hk⟩

/-- The last record of an answer shows the tableau where the run stops. -/
theorem getLast?_records_solve (rule : PivotRule) (limit : Nat) (eps : F)
    (problem : StandardForm F) :
    ∃ pivot, (solve rule limit eps problem).trace.records.getLast? =
      some (Record.of (solve rule limit eps problem).trace.pivotCount
        ((Tableau.initial problem eps).after rule
          (solve rule limit eps problem).trace.pivotCount) pivot) := by
  have hlt : (solve rule limit eps problem).trace.pivotCount <
      (solve rule limit eps problem).trace.records.length := by
    rw [length_records_solve]
    exact Nat.lt_succ_self _
  rw [List.getLast?_eq_getElem?, length_records_solve, Nat.add_sub_cancel,
    List.getElem?_eq_getElem hlt, getElem_records_solve hlt]
  exact ⟨_, rfl⟩

/-- A pivot follows every record but the last one. -/
theorem exists_step?_solve {k : Nat} (hk : k < (solve rule limit eps problem).trace.pivotCount) :
    ∃ step, ((Tableau.initial problem eps).after rule k).step? rule = some step ∧
      (Tableau.initial problem eps).after rule (k + 1) = step.2 := by
  rw [pivotCount_solve] at hk
  exact Tableau.exists_step? hk

/-- The end of the run decides the answer. -/
theorem endsAt_solve (rule : PivotRule) (limit : Nat) (eps : F) (problem : StandardForm F) :
    Tableau.EndsAt rule limit (solve rule limit eps problem).trace.pivotCount
      ((Tableau.initial problem eps).after rule (solve rule limit eps problem).trace.pivotCount)
      ((Tableau.initial problem eps).run rule limit).ending := by
  rw [pivotCount_solve]
  exact Tableau.endsAt_run rule limit _

/-- **The last record of an optimum** shows the tableau where no variable may enter the basis, and
the optimum is read off that tableau. -/
theorem exists_last_of_optimal {optimum : Optimum F}
    (h : solve rule limit eps problem = .optimal optimum) :
    ∃ t pivot, t = (Tableau.initial problem eps).after rule optimum.trace.pivotCount ∧
      optimum.trace.records.getLast? = some (Record.of optimum.trace.pivotCount t pivot) ∧
      rule.entering? t = none ∧ optimum.solution = t.basicSolution ∧
      optimum.objectiveValue = t.objectiveValue := by
  obtain ⟨pivot, hlast⟩ := getLast?_records_solve rule limit eps problem
  have hends := endsAt_solve rule limit eps problem
  have hfinal := Tableau.final_run rule limit (Tableau.initial problem eps)
  rw [← pivotCount_solve, h] at hfinal
  rw [h] at hlast hends
  simp only [Outcome.trace] at hends hfinal
  obtain ⟨hending, rfl⟩ := Run.outcome_eq_optimal_iff.mp h
  rw [hending] at hends
  refine ⟨_, pivot, rfl, hlast, hends, ?_⟩
  rw [← hfinal]
  exact ⟨rfl, rfl⟩

/-- A problem is found to have an optimum exactly when no variable may enter the basis where the run
stops. -/
theorem exists_optimal_iff :
    (∃ optimum, solve rule limit eps problem = .optimal optimum) ↔
      rule.entering? ((Tableau.initial problem eps).after rule
        (solve rule limit eps problem).trace.pivotCount) = none := by
  refine ⟨fun ⟨optimum, hsolve⟩ => ?_, fun hnone => ?_⟩
  · obtain ⟨t, pivot, rfl, -, hnone, -⟩ := exists_last_of_optimal hsolve
    rw [hsolve]
    exact hnone
  · have hends := endsAt_solve rule limit eps problem
    rcases hending : ((Tableau.initial problem eps).run rule limit).ending with - | column | -
    · exact ⟨_, Run.outcome_eq_optimal_iff.mpr ⟨hending, rfl⟩⟩
    · rw [hending] at hends
      obtain ⟨entering, hentering, -⟩ := hends
      exact absurd (hentering.symm.trans hnone) (Option.some_ne_none _)
    · rw [hending] at hends
      obtain ⟨-, entering, hentering⟩ := hends
      exact absurd (hentering.symm.trans hnone) (Option.some_ne_none _)

/-- An optimum is read off a tableau of the sequence in which no variable may enter the basis. -/
theorem optimal_of_solve {optimum : Optimum F}
    (h : solve rule limit eps problem = .optimal optimum) :
    ∃ k, rule.entering? ((Tableau.initial problem eps).after rule k) = none ∧
      optimum.solution = ((Tableau.initial problem eps).after rule k).basicSolution ∧
      optimum.objectiveValue = ((Tableau.initial problem eps).after rule k).objectiveValue := by
  obtain ⟨t, pivot, rfl, -, hnone, hsolution, hvalue⟩ := exists_last_of_optimal h
  exact ⟨_, hnone, hsolution, hvalue⟩

/-- A problem is found to be unbounded where nothing limits the entering variable of the last
tableau. -/
theorem unlimited_of_solve {trace : Trace F}
    (h : solve rule limit eps problem = .unbounded trace) :
    ∃ entering,
      rule.entering? ((Tableau.initial problem eps).after rule trace.pivotCount) =
          some entering ∧
        rule.leavingRow? ((Tableau.initial problem eps).after rule trace.pivotCount)
          entering.column = none := by
  have hends := endsAt_solve rule limit eps problem
  rw [h] at hends
  obtain ⟨⟨column, hending⟩, -⟩ := Run.outcome_eq_unbounded_iff.mp h
  rw [hending] at hends
  obtain ⟨entering, hentering, rfl, hrow⟩ := hends
  exact ⟨entering, hentering, hrow⟩

/-- When the limit is reached, that many pivots have been made. -/
theorem pivotCount_of_nonConvergent {trace : Trace F}
    (h : solve rule limit eps problem = .nonConvergent trace) :
    (solve rule limit eps problem).trace.pivotCount = limit := by
  have hends := endsAt_solve rule limit eps problem
  obtain ⟨hending, -⟩ := Run.outcome_eq_nonConvergent_iff.mp h
  rw [hending] at hends
  exact hends.1

end Solve

end PrimalSimplex
