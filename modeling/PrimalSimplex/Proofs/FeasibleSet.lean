import Mathlib.Order.Bounds.Basic
import PrimalSimplex.Proofs.Answer

/-!
# The feasible set

A run looks at the rows of a problem, and an answer is read off the tableau where the run stops. But
what an answer says can be said without rows and tableaus. The objective function takes a set of
values on the feasible points (`StandardForm.feasibleValues`): an optimum is the greatest of them
(`isGreatest_of_optimal`), and an unbounded problem is one where they have no upper bound
(`not_bddAbove_of_unbounded`). A set has at most one greatest element, and none if it has no bound.

So the answer is a matter of the feasible set and of the objective function alone. Rows may be
permuted, repeated or scaled (`StandardForm.IsFeasible.of_scaledRows`), which changes the size of
the tableaus and the pivots made in them. It may even decide whether Dantzig's rule cycles; but
where there are answers, they agree.
-/

namespace PrimalSimplex

namespace StandardForm

variable {F : Type} [Field F] [LinearOrder F] {p q : StandardForm F} {x : Nat → F}

/-- The values of the objective function on the feasible points. -/
def feasibleValues (problem : StandardForm F) : Set F :=
  {value | ∃ x, problem.IsFeasible x ∧ problem.objectiveAt x = value}

/-- Problems with one objective function and one feasible set have the same values. -/
theorem feasibleValues_congr (hobjective : p.objective = q.objective)
    (hfeasible : ∀ x, p.IsFeasible x ↔ q.IsFeasible x) : p.feasibleValues = q.feasibleValues := by
  simp only [feasibleValues, hfeasible, objectiveAt, variableCount, cost, hobjective]

/-! ## Rows that are permuted, repeated or scaled -/

/-- Every row of the second problem is a row of the first one, scaled by a positive factor. -/
def HasScaledRows (p q : StandardForm F) : Prop :=
  ∀ row' ∈ q.constraints, ∃ row ∈ p.constraints, ∃ factor, 0 < factor ∧
    row' = ⟨row.coefficients.map (factor * ·), factor * row.rhs⟩

/-- **A feasible point satisfies scaled rows.** They may come in any order and any number. -/
theorem IsFeasible.of_scaledRows [IsStrictOrderedRing F] (hx : p.IsFeasible x)
    (hobjective : p.objective = q.objective) (hrows : p.HasScaledRows q) : q.IsFeasible x := by
  have hcount : q.variableCount = p.variableCount := by
    rw [variableCount, variableCount, hobjective]
  refine ⟨fun j hj => hx.nonneg j (hcount ▸ hj), fun i hi => ?_⟩
  obtain ⟨row, hrow, factor, hpos, heq⟩ := hrows _ (List.getElem_mem hi)
  obtain ⟨k, hk, rfl⟩ := List.getElem_of_mem hrow
  have hcoefficient : ∀ j, q.coefficient i j = factor * p.coefficient k j := by
    intro j
    have hmap := List.getD_map p.constraints[k].coefficients 0 (n := j) (factor * ·)
    rw [mul_zero] at hmap
    rw [coefficient_of_lt q hi, coefficient_of_lt p hk, heq, hmap]
  have hbound : q.bound i = factor * p.bound k := by
    rw [bound_of_lt q hi, bound_of_lt p hk, heq]
  have hrowAt : q.rowAt i x = factor * p.rowAt k x := by
    simp only [rowAt, hcount, hcoefficient, Finset.mul_sum, mul_assoc]
  rw [hbound, hrowAt]
  exact mul_le_mul_of_nonneg_left (hx.rowAt_le k hk) hpos.le

/-- The degenerate problem with its rows rearranged: the last one comes first and once more at the
end, and the first one is doubled. -/
def rearranged : StandardForm ℚ where
  objective := [10, -57, -9, -24]
  constraints := [⟨[1, 0, 0, 0], 1⟩, ⟨[1 / 2, -3 / 2, -1 / 2, 1], 0⟩, ⟨[1, -11, -5, 18], 0⟩,
    ⟨[1, 0, 0, 0], 1⟩]

/-- Rearranging the rows of the degenerate problem does not change its feasible set. -/
theorem isFeasible_rearranged_iff (x : Nat → ℚ) :
    degenerate.IsFeasible x ↔ rearranged.IsFeasible x := by
  have hrows : degenerate.HasScaledRows rearranged := by
    simp only [HasScaledRows, rearranged, List.forall_mem_cons]
    refine ⟨⟨⟨[1, 0, 0, 0], 1⟩, ?_, 1, ?_⟩, ⟨⟨[1 / 2, -3 / 2, -1 / 2, 1], 0⟩, ?_, 1, ?_⟩,
      ⟨⟨[1 / 2, -11 / 2, -5 / 2, 9], 0⟩, ?_, 2, ?_⟩, ⟨⟨[1, 0, 0, 0], 1⟩, ?_, 1, ?_⟩, by simp⟩
    all_goals decide +kernel
  have hrows' : rearranged.HasScaledRows degenerate := by
    simp only [HasScaledRows, degenerate, List.forall_mem_cons]
    refine ⟨⟨⟨[1, -11, -5, 18], 0⟩, ?_, 1 / 2, ?_⟩, ⟨⟨[1 / 2, -3 / 2, -1 / 2, 1], 0⟩, ?_, 1, ?_⟩,
      ⟨⟨[1, 0, 0, 0], 1⟩, ?_, 1, ?_⟩, by simp⟩
    all_goals decide +kernel
  exact ⟨fun hx => hx.of_scaledRows rfl hrows, fun hx => hx.of_scaledRows rfl hrows'⟩

end StandardForm

section Answers

variable {F : Type} [Field F] [LinearOrder F] [IsStrictOrderedRing F]
  {problem problem' : StandardForm F} {rule rule' : PivotRule} {limit limit' : Nat}

/-- **An optimum is the greatest value on the feasible points.** -/
theorem isGreatest_of_optimal (h : problem.IsWellFormed) {optimum : Optimum F}
    (hsolve : solve rule limit 0 problem = .optimal optimum) :
    IsGreatest problem.feasibleValues optimum.objectiveValue := by
  obtain ⟨k, hnone, -, hvalue⟩ := optimal_of_solve hsolve
  have ht := Tableau.represents_after h (le_refl (0 : F)) rule k
  have heps : ((Tableau.initial problem (0 : F)).after rule k).eps = 0 := Tableau.eps_after rule k _
  have hfeasible := Tableau.isFeasible_after h rule k
  rw [hvalue]
  refine ⟨⟨_, ht.isFeasible_basicValue hfeasible, ht.objectiveAt_basicValue⟩, ?_⟩
  rintro value ⟨y, hy, rfl⟩
  have hle := ht.objectiveAt_le (fun j hj => ht.neg_eps_le_relativeCost heps.ge hnone hj) hy
  rwa [heps, zero_mul, add_zero] at hle

/-- **The values of an unbounded problem have no upper bound.** -/
theorem not_bddAbove_of_unbounded (h : problem.IsWellFormed) {trace : Trace F}
    (hsolve : solve rule limit 0 problem = .unbounded trace) :
    ¬ BddAbove problem.feasibleValues := by
  obtain ⟨entering, hentering, hunlimited⟩ := unlimited_of_solve hsolve
  have ht := Tableau.represents_after h (le_refl (0 : F)) rule trace.pivotCount
  have hfeasible := Tableau.isFeasible_after h rule trace.pivotCount
  have hcolumn := ht.hasShape.isUnlimited (Tableau.eps_after rule trace.pivotCount _) hentering
    hunlimited
  have hgain := neg_pos.mpr hcolumn.cost_neg
  rw [← ht.objectiveAt_direction hcolumn.column_lt] at hgain
  rintro ⟨bound, hbound⟩
  -- far enough along the ray of the entering variable every bound is exceeded
  obtain ⟨step, hstep, hlt⟩ := StandardForm.exists_lt_objectiveAt hgain
    ((Tableau.initial problem (0 : F)).after rule trace.pivotCount).basicValue bound
  exact hlt.not_ge (hbound ⟨_, ht.isFeasible_along hfeasible hcolumn hstep, rfl⟩)

/-- **The answer depends on the feasible set and the objective function alone.** Two problems that
agree in these have the same answer, whatever rows they are given by, with whatever rules and limits
they are solved: both have an optimum, with the same objective value, or both are unbounded, unless
one of the runs reaches its limit. -/
theorem outcome_determined_by_feasible_set (h : problem.IsWellFormed) (h' : problem'.IsWellFormed)
    (hobjective : problem.objective = problem'.objective)
    (hfeasible : ∀ x, problem.IsFeasible x ↔ problem'.IsFeasible x)
    (hconverges : ∀ trace, solve rule limit 0 problem ≠ .nonConvergent trace)
    (hconverges' : ∀ trace, solve rule' limit' 0 problem' ≠ .nonConvergent trace) :
    (∃ optimum optimum', solve rule limit 0 problem = .optimal optimum ∧
      solve rule' limit' 0 problem' = .optimal optimum' ∧
      optimum.objectiveValue = optimum'.objectiveValue) ∨
      ∃ trace trace', solve rule limit 0 problem = .unbounded trace ∧
        solve rule' limit' 0 problem' = .unbounded trace' := by
  have hvalues := StandardForm.feasibleValues_congr hobjective hfeasible
  rcases hsolve : solve rule limit 0 problem with optimum | trace | trace
  · have hgreatest := isGreatest_of_optimal h hsolve
    rw [hvalues] at hgreatest
    rcases hsolve' : solve rule' limit' 0 problem' with optimum' | trace' | trace'
    · exact Or.inl ⟨optimum, optimum', rfl, rfl,
        hgreatest.unique (isGreatest_of_optimal h' hsolve')⟩
    · exact absurd hgreatest.bddAbove (not_bddAbove_of_unbounded h' hsolve')
    · exact absurd hsolve' (hconverges' trace')
  · have hunbounded := not_bddAbove_of_unbounded h hsolve
    rw [hvalues] at hunbounded
    rcases hsolve' : solve rule' limit' 0 problem' with optimum' | trace' | trace'
    · exact absurd (isGreatest_of_optimal h' hsolve').bddAbove hunbounded
    · exact Or.inr ⟨trace, trace', rfl, rfl⟩
    · exact absurd hsolve' (hconverges' trace')
  · exact absurd hsolve (hconverges trace)

/-- Dantzig's rule cycles on the degenerate problem, but not when its rows are rearranged. What it
finds then is what Bland's rule finds in the first place. -/
theorem outcome_determined_by_feasible_set_rearranged :
    ∃ optimum optimum', solve .bland 100 0 StandardForm.degenerate = .optimal optimum ∧
      solve .dantzig 100 0 StandardForm.rearranged = .optimal optimum' ∧
      optimum.objectiveValue = optimum'.objectiveValue := by
  have hanswer : (solve .bland 100 0 StandardForm.degenerate).optimum?.isSome = true := by
    decide +kernel
  have hanswer' : (solve .dantzig 100 0 StandardForm.rearranged).optimum?.isSome = true := by
    decide +kernel
  have hwellFormed : StandardForm.degenerate.IsWellFormed := by decide +kernel
  have hwellFormed' : StandardForm.rearranged.IsWellFormed := by decide +kernel
  have hconverges : ∀ trace, solve .bland 100 0 StandardForm.degenerate ≠ .nonConvergent trace := by
    intro trace hsolve
    rw [hsolve] at hanswer
    cases hanswer
  have hconverges' : ∀ trace,
      solve .dantzig 100 0 StandardForm.rearranged ≠ .nonConvergent trace := by
    intro trace hsolve
    rw [hsolve] at hanswer'
    cases hanswer'
  rcases outcome_determined_by_feasible_set hwellFormed hwellFormed' rfl
    StandardForm.isFeasible_rearranged_iff hconverges hconverges' with
    hoptimal | ⟨trace, -, hsolve, -⟩
  · exact hoptimal
  · rw [hsolve] at hanswer
    cases hanswer

end Answers

end PrimalSimplex
