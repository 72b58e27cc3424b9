import PrimalSimplex.Proofs.BasicSolution

/-!
# What the answers mean

An answer is read off the last tableau of a run, and the last tableau is equivalent to the problem.
So an answer can be justified without looking at the run again:

* **optimal** — no relative cost is negative, and the objective function is the objective value less
  the relative costs times the variables, so no feasible point is better. With a tolerance, relative
  costs may be negative up to the tolerance, and the bound is loosened by as much for each unit of a
  variable or a slack (`Tableau.Represents.objectiveAt_le`).
* **unbounded** — the entering variable has a negative relative cost and no row limits it, so its
  ray stays feasible and the objective value grows along it without end
  (`Tableau.Represents.isFeasible_along`, `Tableau.Represents.objectiveAt_direction`).
-/

namespace PrimalSimplex

namespace Tableau

variable {F : Type} [Field F] [LinearOrder F] [IsStrictOrderedRing F] {problem : StandardForm F}
  {t : Tableau F} {rule : PivotRule} {n m column : Nat}

/-! ## Optimal tableaus -/

/-- No relative cost is negative beyond the tolerance when no variable may enter the basis: those of
the basic variables are zero. -/
theorem Represents.neg_eps_le_relativeCost (h : t.Represents problem)
    (heps : 0 ≤ t.eps) (hnone : rule.entering? t = none) {j : Nat}
    (hj : j < problem.variableCount + problem.constraintCount) : -t.eps ≤ t.relativeCost j := by
  by_cases hbasic : j ∈ t.basis
  · rw [h.relativeCost_of_mem hbasic]
    exact neg_nonpos.mpr heps
  · exact not_lt.mp (h.hasShape.entering?_eq_none_iff.mp hnone j hj hbasic)

/-- The same for the entries of the objective row. -/
theorem Represents.neg_eps_le_entry (h : t.Represents problem) {eps : F} (heps : 0 ≤ eps)
    (hteps : t.eps = eps) (hnone : rule.entering? t = none) {j : Nat}
    (hj : j < problem.variableCount + problem.constraintCount) :
    -eps ≤ t.entry problem.constraintCount j := by
  subst hteps
  have hcost := h.neg_eps_le_relativeCost heps hnone hj
  rwa [relativeCost, h.hasShape.rowCount_eq] at hcost

/-- **No feasible point is better than an optimal tableau**, up to the tolerance. -/
theorem Represents.objectiveAt_le (h : t.Represents problem) {eps : F}
    (hcost : ∀ j < problem.variableCount + problem.constraintCount, -eps ≤ t.relativeCost j)
    {y : Nat → F} (hy : problem.IsFeasible y) :
    problem.objectiveAt y ≤ t.objectiveValue +
      eps * (∑ j ∈ Finset.range problem.variableCount, y j +
        ∑ i ∈ Finset.range problem.constraintCount, problem.slackAt i y) := by
  have hobjective : problem.objectiveAt y = problem.objectiveAt (problem.withSlacks y) :=
    StandardForm.objectiveAt_congr fun j hj => (StandardForm.withSlacks_decision hj).symm
  have hsum : 0 ≤ ∑ j ∈ Finset.range (problem.variableCount + problem.constraintCount),
      (t.relativeCost j + eps) * problem.withSlacks y j := by
    refine Finset.sum_nonneg fun j hj => ?_
    have hj := Finset.mem_range.mp hj
    exact mul_nonneg (neg_le_iff_add_nonneg.mp (hcost j hj)) (hy.withSlacks_nonneg hj)
  simp only [add_mul, Finset.sum_add_distrib, ← Finset.mul_sum] at hsum
  rw [hobjective, h.objectiveAt_eq_sub (StandardForm.isSolvedBy_withSlacks y),
    ← StandardForm.sum_withSlacks]
  linarith

/-! ## Unlimited columns -/

/-- What both rules promise of a variable that nothing limits when there is no tolerance. -/
structure IsUnlimited (n m : Nat) (t : Tableau F) (column : Nat) : Prop where
  /-- the column is that of a variable -/
  column_lt : column < n + m
  /-- the variable is not basic -/
  not_mem : column ∉ t.basis
  /-- its relative cost is negative -/
  cost_neg : t.relativeCost column < 0
  /-- no row limits it -/
  entry_nonpos : ∀ i < m, t.entry i column ≤ 0

omit [IsStrictOrderedRing F] in
/-- The entering variable is unlimited when no row is chosen for it. -/
theorem HasShape.isUnlimited (h : t.HasShape n m) (heps : t.eps = 0) {entering : Entering F}
    (hentering : rule.entering? t = some entering)
    (hrow : rule.leavingRow? t entering.column = none) : t.IsUnlimited n m entering.column := by
  obtain ⟨hcolumn, hnot, -, hcost⟩ := h.mem_profitable.mp (mem_profitable_of_entering? hentering)
  have hentries := h.leavingRow?_eq_none_iff.mp hrow
  rw [heps] at hcost hentries
  rw [neg_zero] at hcost
  exact ⟨hcolumn, hnot, hcost, fun i hi => not_lt.mp (hentries i hi)⟩

/-- No variable becomes smaller along the ray of an unlimited variable. -/
theorem IsUnlimited.direction_nonneg (hcolumn : t.IsUnlimited n m column) (h : t.HasShape n m)
    (j : Nat) : 0 ≤ t.direction column j := by
  by_cases hbasic : j ∈ t.basis
  · obtain ⟨i, hi, rfl⟩ := h.exists_basicColumn hbasic
    rw [h.direction_basicColumn hcolumn.not_mem hi]
    exact neg_nonneg.mpr (hcolumn.entry_nonpos i hi)
  · by_cases hj : j = column
    · rw [hj, direction_self hcolumn.not_mem]
      exact zero_le_one
    · rw [direction_of_not_mem hj hbasic]

/-- **The ray of an unlimited variable stays feasible.** -/
theorem Represents.isFeasible_along (h : t.Represents problem) (hfeasible : t.IsFeasible)
    (hcolumn : t.IsUnlimited problem.variableCount problem.constraintCount column) {step : F}
    (hstep : 0 ≤ step) : problem.IsFeasible (t.along column step) := by
  refine StandardForm.isFeasible_of_isSolvedBy
    ((h.isSolvedBy_iff _).mp (h.isSolvedBy_along hcolumn.column_lt step)) fun j _ => ?_
  have hdirection := hcolumn.direction_nonneg h.hasShape j
  exact add_nonneg (h.hasShape.basicValue_nonneg hfeasible j) (mul_nonneg hstep hdirection)

end Tableau

/-! ## Answers -/

section Answers

variable {F : Type} [Field F] [LinearOrder F] [IsStrictOrderedRing F] {problem : StandardForm F}
  {rule : PivotRule} {limit : Nat} {eps : F}

/-- **Optimal answers are optimal.** The reported objective value is that of the reported solution,
and no feasible point exceeds it by more than the tolerance for each unit of its variables and
slacks. Without a tolerance, the solution is feasible and no feasible point is better. -/
theorem optimal_answer_is_optimal [Finiteness F] [Numeral F] {objective : List F}
    {rows : List (Row F)} {optimum : Optimum F}
    (hproblem : StandardForm.ofRows objective rows = .ok problem) (heps : 0 ≤ eps)
    (h : solve rule limit eps problem = .optimal optimum) :
    optimum.solution.length = problem.variableCount ∧
      problem.objectiveAt (StandardForm.point optimum.solution) = optimum.objectiveValue ∧
      (∀ y : Nat → F, problem.IsFeasible y →
        problem.objectiveAt y ≤ optimum.objectiveValue +
          eps * (∑ j ∈ Finset.range problem.variableCount, y j +
            ∑ i ∈ Finset.range problem.constraintCount, problem.slackAt i y)) ∧
      (eps = 0 → problem.IsFeasible (StandardForm.point optimum.solution) ∧
        ∀ y : Nat → F, problem.IsFeasible y →
          problem.objectiveAt y ≤ optimum.objectiveValue) := by
  have hwellFormed := StandardForm.isWellFormed_of_ofRows hproblem
  obtain ⟨k, hnone, hsolution, hvalue⟩ := optimal_of_solve h
  have ht := Tableau.represents_after hwellFormed heps rule k
  have hteps := Tableau.eps_after rule k (Tableau.initial problem eps)
  have hpoint : ∀ j < problem.variableCount,
      ((Tableau.initial problem eps).after rule k).basicValue j =
        StandardForm.point optimum.solution j := by
    intro j hj
    rw [StandardForm.point, hsolution, ht.hasShape.getD_basicSolution hj]
  have hbound : ∀ y : Nat → F, problem.IsFeasible y →
      problem.objectiveAt y ≤ optimum.objectiveValue +
        eps * (∑ j ∈ Finset.range problem.variableCount, y j +
          ∑ i ∈ Finset.range problem.constraintCount, problem.slackAt i y) := by
    intro y hy
    rw [hvalue]
    refine ht.objectiveAt_le (fun j hj => ?_) hy
    have hcost := ht.neg_eps_le_relativeCost (by rw [hteps]; exact heps) hnone hj
    rwa [hteps] at hcost
  refine ⟨?_, ?_, hbound, ?_⟩
  · rw [hsolution, Tableau.basicSolution, List.length_map, List.length_range]
    exact ht.hasShape.decisionCount_eq
  · rw [← StandardForm.objectiveAt_congr hpoint, ht.objectiveAt_basicValue, hvalue]
  · rintro rfl
    have hfeasible := Tableau.isFeasible_after hwellFormed rule k
    refine ⟨(ht.isFeasible_basicValue hfeasible).congr hpoint, fun y hy => ?_⟩
    have hle := hbound y hy
    rwa [zero_mul, add_zero] at hle

/-- The degenerate problem has the optimal value `1`, which Bland's rule finds. -/
theorem optimal_answer_is_optimal_degenerate :
    ∃ optimum, solve .bland 100 0 StandardForm.degenerate = .optimal optimum ∧
      optimum.solution = [1, 0, 1, 0] ∧ optimum.objectiveValue = 1 ∧
      StandardForm.degenerate.IsFeasible (StandardForm.point optimum.solution) ∧
      ∀ y : Nat → ℚ, StandardForm.degenerate.IsFeasible y →
        StandardForm.degenerate.objectiveAt y ≤ optimum.objectiveValue := by
  have hproblem : StandardForm.ofRows StandardForm.degenerate.objective
      StandardForm.degenerate.constraints = .ok StandardForm.degenerate := by
    decide +kernel
  have hanswer : (solve .bland 100 0 StandardForm.degenerate).optimum?.map
      (fun optimum => (optimum.solution, optimum.objectiveValue)) = some ([1, 0, 1, 0], 1) := by
    decide +kernel
  rcases hsolve : solve .bland 100 0 StandardForm.degenerate with optimum | trace | trace
  · rw [hsolve] at hanswer
    obtain ⟨hsolution, hvalue⟩ := Prod.mk.inj (Option.some.inj hanswer)
    obtain ⟨hfeasible, hbest⟩ :=
      (optimal_answer_is_optimal hproblem (le_refl 0) hsolve).2.2.2 rfl
    exact ⟨optimum, rfl, hsolution, hvalue, hfeasible, hbest⟩
  · rw [hsolve] at hanswer
    cases hanswer
  · rw [hsolve] at hanswer
    cases hanswer

/-- **Unbounded answers are unbounded.** From the basic solution that the last record shows there is
a direction in which all points are feasible and the objective value exceeds every bound. -/
theorem unbounded_answer_has_ray {trace : Trace F} (hwellFormed : problem.IsWellFormed)
    (h : solve rule limit 0 problem = .unbounded trace) :
    ∃ record values x d, trace.records.getLast? = some record ∧
      record.IsBasicSolution problem.variableCount problem.constraintCount values ∧
      x = StandardForm.point values ∧
      (∀ j < problem.variableCount, 0 ≤ d j) ∧
      (∀ i < problem.constraintCount, problem.rowAt i d ≤ 0) ∧
      0 < problem.objectiveAt d ∧
      (∀ step, 0 ≤ step → problem.IsFeasible fun j => x j + step * d j) ∧
      ∀ bound, ∃ step, 0 ≤ step ∧ bound < problem.objectiveAt fun j => x j + step * d j := by
  obtain ⟨pivot, hlast⟩ := getLast?_records_solve rule limit 0 problem
  obtain ⟨entering, hentering, hunlimited⟩ := unlimited_of_solve h
  have ht := Tableau.represents_after hwellFormed (le_refl (0 : F)) rule trace.pivotCount
  have hfeasible := Tableau.isFeasible_after hwellFormed rule trace.pivotCount
  have heps : ((Tableau.initial problem (0 : F)).after rule trace.pivotCount).eps = 0 :=
    Tableau.eps_after rule trace.pivotCount _
  rw [h] at hlast
  simp only [Outcome.trace] at hlast
  -- from here on only the last tableau matters
  generalize (Tableau.initial problem (0 : F)).after rule trace.pivotCount = t at *
  have hcolumn := ht.hasShape.isUnlimited heps hentering hunlimited
  have hdirection := hcolumn.direction_nonneg ht.hasShape
  have hgain : 0 < problem.objectiveAt (t.direction entering.column) := by
    rw [ht.objectiveAt_direction hcolumn.column_lt]
    exact neg_pos.mpr hcolumn.cost_neg
  refine ⟨_, t.basicSolution, _, t.direction entering.column, hlast,
    ht.hasShape.isBasicSolution_of _ pivot, rfl, fun j _ => hdirection j, ?_, hgain, ?_,
    StandardForm.exists_lt_objectiveAt hgain _⟩
  · intro i hi
    have hrow := ht.rowAt_direction hcolumn.column_lt hi
    have hslack := hdirection (problem.variableCount + i)
    linarith
  · intro step hstep
    refine (ht.isFeasible_along hfeasible hcolumn hstep).congr fun j hj => ?_
    rw [Tableau.along, StandardForm.point, ht.hasShape.getD_basicSolution hj]

/-- The ray of an unbounded problem, found after one pivot. It starts at the point `(1, 0)`. -/
theorem unbounded_answer_has_ray_diagonal :
    ∃ trace, solve .bland 100 0 StandardForm.diagonal = .unbounded trace ∧
      ∃ record x d, trace.records.getLast? = some record ∧
        record.IsBasicSolution 2 1 [1, 0] ∧ x = StandardForm.point [1, 0] ∧
        (∀ j < 2, 0 ≤ d j) ∧ 0 < StandardForm.diagonal.objectiveAt d ∧
        ∀ step, 0 ≤ step → StandardForm.diagonal.IsFeasible fun j => x j + step * d j := by
  have hwellFormed : StandardForm.diagonal.IsWellFormed := by decide +kernel
  have hsolve : solve .bland 100 0 StandardForm.diagonal =
      .unbounded (solve .bland 100 0 StandardForm.diagonal).trace := by
    decide +kernel
  have hshown : (solve .bland 100 0 StandardForm.diagonal).trace.records.getLast?.map
      (fun record => (record.basis, record.entry 0 3)) = some ([0], 1) := by
    decide +kernel
  obtain ⟨record, values, x, d, hlast, hvalues, hx, hd, -, hgain, hfeasible, -⟩ :=
    unbounded_answer_has_ray hwellFormed hsolve
  rw [hlast] at hshown
  obtain ⟨hbasis, hright⟩ := Prod.mk.inj (Option.some.inj hshown)
  have hstart : values = [1, 0] := by
    obtain ⟨a, b, rfl⟩ := List.length_eq_two.mp hvalues.length_eq
    have hfirst := hvalues.basic 0 0 (by rw [hbasis]; rfl) (by decide)
    have hsecond := hvalues.nonbasic 1 (by decide) (by rw [hbasis]; decide)
    rw [Option.some.inj hfirst, Option.some.inj hsecond]
    exact congrArg (fun value => [value, 0]) hright
  subst hstart
  exact ⟨_, hsolve, record, x, d, hlast, hvalues, hx, hd, hgain, hfeasible⟩

end Answers

end PrimalSimplex
