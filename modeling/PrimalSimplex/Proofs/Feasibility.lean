import PrimalSimplex.Proofs.Answer
import PrimalSimplex.Proofs.History

/-!
# Feasible records

A basic solution is feasible when no basic variable is negative, and the values of the basic
variables are the right hand sides of the constraint rows. Without a tolerance the ratio test passes
no row, so every record shows a feasible basic solution. A pivot changes the objective value by its
ratio times the relative cost of its column, so the objective value never falls, and it grows unless
the pivot is degenerate.

With a tolerance the ratio test may pass a row, in two ways. A row whose entry is positive but not
above the tolerance is no candidate. And candidates tie when their ratios are within the tolerance
of each other, so the winner need not be the one with the smaller ratio. The basic variable of a row
that is passed becomes negative by the difference of the ratios *times the entry of the row*, and
entries have no bound. So the tolerance bounds the relative costs of an optimal tableau, but not its
right hand sides. What is true of these is that

* they are within the tolerance exactly when the reported solution satisfies the constraints within
  the tolerance (`Tableau.Represents.neg_eps_le_constraintValue_iff`);
* none is negative as long as no pivot has passed a row (`Tableau.isFeasible_after_of_ratio_le`).
-/

namespace PrimalSimplex

namespace Tableau

variable {F : Type} [Field F] [LinearOrder F] [IsStrictOrderedRing F] {problem : StandardForm F}
  {t : Tableau F} {eps : F} {n m : Nat}

/-! ## Right hand sides and variables -/

omit [IsStrictOrderedRing F] in
/-- The right hand sides are bounded from below like all variables, if the bound is not positive. -/
theorem HasShape.le_constraintValue_iff (h : t.HasShape n m) {bound : F} (hbound : bound ≤ 0) :
    (∀ i < m, bound ≤ t.constraintValue i) ↔ ∀ j < n + m, bound ≤ t.basicValue j := by
  constructor
  · exact fun hvalues j _ => h.le_basicValue hbound hvalues j
  · intro hvalues i hi
    rw [← h.basicValue_basicColumn hi]
    exact hvalues _ (h.basicColumn_lt hi)

/-- **The right hand sides are within the tolerance exactly when the basic solution satisfies the
constraints within the tolerance.** -/
theorem Represents.neg_eps_le_constraintValue_iff (h : t.Represents problem) (heps : 0 ≤ eps)
    {x : Nat → F} (hx : ∀ j < problem.variableCount, t.basicValue j = x j) :
    (∀ i < problem.constraintCount, -eps ≤ t.constraintValue i) ↔
      (∀ j < problem.variableCount, -eps ≤ x j) ∧
        ∀ i < problem.constraintCount, problem.rowAt i x ≤ problem.bound i + eps := by
  -- the value of a slack variable is what the row leaves
  have hslack : ∀ i < problem.constraintCount,
      (-eps ≤ t.basicValue (problem.variableCount + i) ↔
        problem.rowAt i x ≤ problem.bound i + eps) := by
    intro i hi
    have hrow := (h.isSolvedBy_iff _).mp h.isSolvedBy_basicValue i hi
    rw [StandardForm.rowAt_congr i hx] at hrow
    rw [← hrow, add_assoc, le_add_iff_nonneg_right, neg_le_iff_add_nonneg]
  rw [h.hasShape.le_constraintValue_iff (neg_nonpos.mpr heps)]
  constructor
  · intro hvalues
    refine ⟨fun j hj => ?_, fun i hi => ?_⟩
    · rw [← hx j hj]
      exact hvalues j (by omega)
    · exact (hslack i hi).mp (hvalues _ (by omega))
  · rintro ⟨hdecision, hrows⟩ j hj
    by_cases hjn : j < problem.variableCount
    · rw [hx j hjn]
      exact hdecision j hjn
    · obtain ⟨i, rfl⟩ := Nat.exists_eq_add_of_le (not_lt.mp hjn)
      exact (hslack i (by omega)).mpr (hrows i (by omega))

end Tableau

/-! ## Traces -/

section Traces

variable {F : Type} [Field F] [LinearOrder F] [IsStrictOrderedRing F] {problem : StandardForm F}
  {rule : PivotRule} {limit : Nat} {eps : F}

/-- **Every record shows a feasible basic solution, and the objective value never falls.** Without a
tolerance no right hand side is negative; the point that has the right hand sides at the basic
decision variables and zero at the others is feasible, and its objective value is that of the
record. From one record to the next the objective value grows exactly when the right hand side of
the pivot's row was positive, and otherwise it stays. -/
theorem records_feasible_and_improving (h : problem.IsWellFormed) :
    (∀ record ∈ (solve rule limit 0 problem).trace.records,
      (∀ i < problem.constraintCount,
        0 ≤ record.entry i (problem.variableCount + problem.constraintCount)) ∧
        ∃ x : Nat → F,
          (∀ i column, record.basis[i]? = some column → column < problem.variableCount →
            x column = record.entry i (problem.variableCount + problem.constraintCount)) ∧
          (∀ j < problem.variableCount, j ∉ record.basis → x j = 0) ∧
          problem.IsFeasible x ∧ record.objectiveValue = problem.objectiveAt x) ∧
      ∀ (k : Nat) (before after : Record F),
        (solve rule limit 0 problem).trace.records[k]? = some before →
        (solve rule limit 0 problem).trace.records[k + 1]? = some after →
        ∃ pivot, after.pivot = some pivot ∧ before.objectiveValue ≤ after.objectiveValue ∧
          (before.objectiveValue < after.objectiveValue ↔
            0 < before.entry pivot.row (problem.variableCount + problem.constraintCount)) := by
  have hrepresents := Tableau.represents_after h (le_refl (0 : F)) rule
  have hfeasible := Tableau.isFeasible_after h rule
  constructor
  · intro record hrecord
    obtain ⟨k, pivot, rfl⟩ := exists_eq_of_mem_records hrecord
    have ht := hrepresents k
    have hvalue := ht.hasShape.constraintValue_eq
    refine ⟨fun i hi => ?_, ((Tableau.initial problem 0).after rule k).basicValue, ?_, ?_,
      ht.isFeasible_basicValue (hfeasible k), ?_⟩
    · exact (hfeasible k i (ht.hasShape.rowCount_eq.symm ▸ hi)).trans_eq (hvalue i)
    · exact fun i column hcolumn _ => ht.hasShape.basicValue_of_getElem? hcolumn
    · exact fun j _ hj => Tableau.basicValue_of_not_mem hj
    · rw [ht.hasShape.objectiveValue_of, ht.objectiveAt_basicValue]
  · intro k before after hbefore hafter
    obtain ⟨t, entering, row, pivot, ht, hentering, hrow, rfl, rfl⟩ :=
      exists_choice_of_records hbefore hafter
    have htrepresents : t.Represents problem := ht ▸ hrepresents k
    have hteps : t.eps = 0 := ht ▸ Tableau.eps_after rule k _
    have hpivot := htrepresents.hasShape.isExact hteps hentering hrow
    refine ⟨_, rfl, ?_⟩
    rw [htrepresents.hasShape.objectiveValue_of,
      (hpivot.hasShape_pivot htrepresents.hasShape).objectiveValue_of]
    refine ⟨htrepresents.objectiveValue_le_pivot (ht ▸ hfeasible k) hpivot, ?_⟩
    rw [htrepresents.objectiveValue_lt_pivot_iff hpivot,
      htrepresents.hasShape.constraintValue_eq]
    rfl

/-- The records of the degenerate run under Bland's rule: the objective value stays zero while the
pivots stay at the origin, and the last pivot gains. -/
theorem records_feasible_and_improving_degenerate :
    StandardForm.degenerate.IsWellFormed ∧
      (solve .bland 100 0 StandardForm.degenerate).trace.records.map Record.objectiveValue =
        [0, 0, 0, 0, 0, 0, 0, 1] ∧
      ∀ record ∈ (solve .bland 100 0 StandardForm.degenerate).trace.records,
        ∃ x : Nat → ℚ, StandardForm.degenerate.IsFeasible x ∧
          record.objectiveValue = StandardForm.degenerate.objectiveAt x := by
  have hwellFormed : StandardForm.degenerate.IsWellFormed := by decide +kernel
  refine ⟨hwellFormed, by decide +kernel, fun record hrecord => ?_⟩
  obtain ⟨-, x, -, -, hx, hvalue⟩ := (records_feasible_and_improving hwellFormed).1 record hrecord
  exact ⟨x, hx, hvalue⟩

/-- **The last record of an optimum, with a tolerance.** No relative cost is negative beyond the
tolerance. The right hand sides are within the tolerance exactly when the reported solution
satisfies the constraints within it. None is negative if no pivot has passed a row, that is, if each
was made in a row of least ratio; without a tolerance that is always so. -/
theorem optimal_record_within_tolerance (h : problem.IsWellFormed) (heps : 0 ≤ eps)
    {optimum : Optimum F} (hsolve : solve rule limit eps problem = .optimal optimum) :
    ∃ last, optimum.trace.records.getLast? = some last ∧
      (∀ j < problem.variableCount + problem.constraintCount,
        -eps ≤ last.entry problem.constraintCount j) ∧
      ((∀ i < problem.constraintCount,
          -eps ≤ last.entry i (problem.variableCount + problem.constraintCount)) ↔
        (∀ j < problem.variableCount, -eps ≤ StandardForm.point optimum.solution j) ∧
          ∀ i < problem.constraintCount,
            problem.rowAt i (StandardForm.point optimum.solution) ≤ problem.bound i + eps) ∧
      ((∀ (k : Nat) (before after : Record F) (pivot : Pivot F),
          optimum.trace.records[k]? = some before → optimum.trace.records[k + 1]? = some after →
          after.pivot = some pivot →
          ∀ i < problem.constraintCount, 0 < before.entry i pivot.column →
            before.entry pivot.row (problem.variableCount + problem.constraintCount) /
                before.entry pivot.row pivot.column ≤
              before.entry i (problem.variableCount + problem.constraintCount) /
                before.entry i pivot.column) →
        ∀ i < problem.constraintCount,
          0 ≤ last.entry i (problem.variableCount + problem.constraintCount)) ∧
      (eps = 0 → ∀ i < problem.constraintCount,
        0 ≤ last.entry i (problem.variableCount + problem.constraintCount)) := by
  obtain ⟨t, pivot, ht, hlast, hnone, hsolution, -⟩ := exists_last_of_optimal hsolve
  have hrepresents : t.Represents problem := ht ▸ Tableau.represents_after h heps rule _
  have hteps : t.eps = eps := ht ▸ Tableau.eps_after rule _ _
  have hvalue := hrepresents.hasShape.constraintValue_eq
  have hpoint : ∀ j < problem.variableCount,
      t.basicValue j = StandardForm.point optimum.solution j := by
    intro j hj
    rw [StandardForm.point, hsolution, hrepresents.hasShape.getD_basicSolution hj]
  have hnonneg : t.IsFeasible → ∀ i < problem.constraintCount,
      0 ≤ t.entry i (problem.variableCount + problem.constraintCount) := by
    intro hfeasible i hi
    exact (hfeasible i (hrepresents.hasShape.rowCount_eq.symm ▸ hi)).trans_eq (hvalue i)
  refine ⟨_, hlast, ?_, ?_, ?_, ?_⟩
  · exact fun j hj => hrepresents.neg_eps_le_entry heps hteps hnone hj
  · have hiff := hrepresents.neg_eps_le_constraintValue_iff heps hpoint
    simp only [hvalue] at hiff
    exact hiff
  · intro hleast
    refine hnonneg (ht ▸ Tableau.isFeasible_after_of_ratio_le h heps ?_)
    intro k hk step hstep i hi hpos
    have hshape := (Tableau.represents_after h heps rule k).hasShape
    obtain ⟨hbefore, hafter⟩ := getElem?_records_of_step? hsolve hk hstep
    rw [Tableau.ratio, Tableau.ratio, hshape.constraintValue_eq, hshape.constraintValue_eq]
    exact hleast k _ _ step.1 hbefore hafter rfl i hi hpos
  · rintro rfl
    exact hnonneg (ht ▸ Tableau.isFeasible_after h rule _)

/-- With a tolerance, Bland's rule finds the solution `(1, 0, 1, 0)` of the degenerate problem. It
satisfies the constraints, so the right hand sides of the last record are within the tolerance. -/
theorem optimal_record_within_tolerance_degenerate :
    ∃ optimum last, solve .bland 100 (1 / 10) StandardForm.degenerate = .optimal optimum ∧
      optimum.trace.records.getLast? = some last ∧
      (∀ j < 7, -(1 / 10) ≤ last.entry 3 j) ∧ ∀ i < 3, -(1 / 10) ≤ last.entry i 7 := by
  have hwellFormed : StandardForm.degenerate.IsWellFormed := by decide +kernel
  have hanswer : (solve .bland 100 (1 / 10) StandardForm.degenerate).optimum?.map
      Optimum.solution = some [1, 0, 1, 0] := by
    decide +kernel
  rcases hsolve : solve .bland 100 (1 / 10) StandardForm.degenerate with optimum | trace | trace
  · rw [hsolve] at hanswer
    obtain ⟨last, hlast, hcosts, hvalues, -, -⟩ :=
      optimal_record_within_tolerance hwellFormed (by decide +kernel) hsolve
    refine ⟨optimum, last, rfl, hlast, hcosts, hvalues.mpr ?_⟩
    rw [Option.some.inj hanswer]
    decide +kernel
  · rw [hsolve] at hanswer
    cases hanswer
  · rw [hsolve] at hanswer
    cases hanswer

/-- A problem with a near tie: the variable is limited by `1` and by `1 - 10⁻¹²`. -/
def StandardForm.nearTie : StandardForm ℚ where
  objective := [1]
  constraints := [⟨[1], 1⟩, ⟨[1000000000000], 999999999999⟩]

/-- **The tolerance does not bound the right hand sides of an optimal tableau.** In the problem with
a near tie the two ratios differ by less than the tolerance, so the first row wins. The second one
is passed, and its right hand side becomes `-1`, which is `10¹⁰` times the tolerance below zero. -/
theorem not_forall_optimal_record_within_tolerance :
    ¬ ∀ (problem : StandardForm ℚ) (rule : PivotRule) (limit : Nat) (eps : ℚ)
        (optimum : Optimum ℚ) (last : Record ℚ), problem.IsWellFormed → 0 ≤ eps →
        solve rule limit eps problem = .optimal optimum →
        optimum.trace.records.getLast? = some last →
        (∀ j < problem.variableCount + problem.constraintCount,
          -eps ≤ last.entry problem.constraintCount j) ∧
          ∀ i < problem.constraintCount,
            -eps ≤ last.entry i (problem.variableCount + problem.constraintCount) := by
  intro hall
  have hwellFormed : StandardForm.nearTie.IsWellFormed := by decide +kernel
  have hanswer : (solve .dantzig 100 (1 / 10000000000) StandardForm.nearTie).optimum?.map
      (fun optimum => optimum.trace.records.getLast?.map fun last => last.entry 1 3) =
        some (some (-1)) := by
    decide +kernel
  rcases hsolve : solve .dantzig 100 (1 / 10000000000) StandardForm.nearTie with
    optimum | trace | trace
  · rw [hsolve] at hanswer
    obtain ⟨last, hlast, hentry⟩ := Option.map_eq_some_iff.mp (Option.some.inj hanswer)
    have hle := (hall _ _ _ _ _ last hwellFormed (by decide +kernel) hsolve hlast).2 1 (by decide)
    have hbound : -(1 / 10000000000) ≤ last.entry 1 3 := hle
    rw [hentry] at hbound
    exact absurd hbound (by decide +kernel)
  · rw [hsolve] at hanswer
    cases hanswer
  · rw [hsolve] at hanswer
    cases hanswer

end Traces

end PrimalSimplex
