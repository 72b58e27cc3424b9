import PrimalSimplex.Proofs.Answer
import PrimalSimplex.Proofs.History

/-!
# The slack columns are a certificate

In the first tableau the slack columns are unit vectors, and a pivot treats them like any other
column. So they keep account of all row operations since the start: every row is the combination of
the first constraint rows in which each counts as often as its slack column says
(`Tableau.combination`), and the objective row is such a combination added to the first objective
row (`Tableau.IsCombinationOf`). A pivot does to these combinations what it does to the rows, since
they are linear in the row that is combined (`Tableau.HasShape.combination_pivot_self`,
`Tableau.HasShape.combination_pivot_of_ne`).

The entries of the objective row in the slack columns are the dual variables `y`. Its other entries
are then `Aᵀ y - c`, and the objective value is `b y`. In an optimal tableau none of these entries
is negative, up to the tolerance: `y` is a feasible point of the dual problem, and it has the
objective value of the reported solution.
-/

namespace PrimalSimplex

namespace Tableau

variable {F : Type} [Field F] {problem : StandardForm F} {start t : Tableau F} {eps : F}
  {n m row column : Nat}

/-! ## Combinations of the first rows -/

/-- The value in a column of the combination of first constraint rows that the slack columns of a
row tell. -/
def combination (t start : Tableau F) (i j : Nat) : F :=
  ∑ k ∈ Finset.range t.rowCount, t.entry i (t.decisionCount + k) * start.entry k j

/-- The constraint rows are the combinations that their slack columns tell, and the objective row is
such a combination added to the first objective row. -/
structure IsCombinationOf (t start : Tableau F) : Prop where
  /-- a constraint row is its combination -/
  constraint : ∀ i < t.rowCount, ∀ j ≤ t.columnCount, t.entry i j = t.combination start i j
  /-- the objective row is its combination and the first objective row -/
  objective : ∀ j ≤ t.columnCount,
    t.entry t.rowCount j = t.combination start t.rowCount j + start.entry t.rowCount j

/-- The combination by the shape of the tableau. -/
theorem HasShape.combination_eq (h : t.HasShape n m) (i j : Nat) :
    t.combination start i j = ∑ k ∈ Finset.range m, t.entry i (n + k) * start.entry k j := by
  rw [combination, h.rowCount_eq, h.decisionCount_eq]

/-- The first tableau is a combination of itself. -/
theorem isCombinationOf_initial [LE F] (h : problem.IsWellFormed) :
    (initial problem eps).IsCombinationOf (initial problem eps) := by
  have hshape : (initial problem eps).HasShape _ _ := hasShape_initial h
  constructor
  · intro i hi j _
    rw [hshape.rowCount_eq] at hi
    rw [hshape.combination_eq, Finset.sum_eq_single_of_mem i (Finset.mem_range.mpr hi)]
    · rw [entry_initial_slack h hi hi, if_pos rfl, one_mul]
    · intro k hk hne
      rw [entry_initial_slack h hi (Finset.mem_range.mp hk), if_neg hne, zero_mul]
  · intro j _
    rw [hshape.combination_eq, hshape.rowCount_eq, Finset.sum_eq_zero, zero_add]
    intro k _
    rw [entry_initial_objective (Nat.le_add_right _ _), zero_mul]

/-! ## One pivot -/

section Pivoting

variable [DecidableEq F]

/-- A pivot divides the combination of its row by the pivot element. -/
theorem HasShape.combination_pivot_self (h : t.HasShape n m)
    (hpivot : (t.pivot row column).HasShape n m) (hrow : row < m) (j : Nat) :
    (t.pivot row column).combination start row j =
      t.combination start row j / t.entry row column := by
  rw [hpivot.combination_eq, h.combination_eq, Finset.sum_div]
  refine Finset.sum_congr rfl fun k hk => ?_
  have hk := Finset.mem_range.mp hk
  rw [h.entry_pivot_self hrow (by omega), div_mul_eq_mul_div]

/-- A pivot subtracts a multiple of that combination from the others. -/
theorem HasShape.combination_pivot_of_ne (h : t.HasShape n m)
    (hpivot : (t.pivot row column).HasShape n m) (hrow : row < m) {i : Nat} (hi : i ≤ m)
    (hne : i ≠ row) (j : Nat) :
    (t.pivot row column).combination start i j =
      t.combination start i j -
        t.entry i column * (t.combination start row j / t.entry row column) := by
  rw [hpivot.combination_eq, h.combination_eq, h.combination_eq, Finset.sum_div, Finset.mul_sum,
    ← Finset.sum_sub_distrib]
  refine Finset.sum_congr rfl fun k hk => ?_
  have hk := Finset.mem_range.mp hk
  rw [h.entry_pivot hrow hi (by omega) hne]
  ring

/-- **A pivot keeps the rows combinations of the first rows.** -/
theorem IsCombinationOf.pivot (hcombination : t.IsCombinationOf start) (h : t.HasShape n m)
    (hpivot : (t.pivot row column).HasShape n m) (hrow : row < m) :
    (t.pivot row column).IsCombinationOf start := by
  have hconstraint : ∀ i < m, ∀ j ≤ n + m, t.entry i j = t.combination start i j := by
    intro i hi j hj
    exact hcombination.constraint i (h.rowCount_eq.symm ▸ hi) j (h.columnCount_eq.symm ▸ hj)
  constructor
  · intro i hi j hj
    rw [hpivot.rowCount_eq] at hi
    rw [hpivot.columnCount_eq] at hj
    by_cases hir : i = row
    · subst hir
      rw [h.entry_pivot_self hrow hj, h.combination_pivot_self hpivot hrow, hconstraint i hi j hj]
    · rw [h.entry_pivot hrow hi.le hj hir, h.combination_pivot_of_ne hpivot hrow hi.le hir,
        hconstraint i hi j hj, hconstraint row hrow j hj]
  · intro j hj
    rw [hpivot.columnCount_eq] at hj
    have hobjective := hcombination.objective j (h.columnCount_eq.symm ▸ hj)
    rw [h.rowCount_eq] at hobjective
    rw [hpivot.rowCount_eq, h.entry_pivot hrow (Nat.le_refl m) hj hrow.ne',
      h.combination_pivot_of_ne hpivot hrow (Nat.le_refl m) hrow.ne', hobjective,
      hconstraint row hrow j hj]
    ring

end Pivoting

/-! ## In terms of the problem -/

/-- The slack columns certify the rest of a tableau: its rows are the rows of the problem, combined
as they say. -/
structure IsCertified (problem : StandardForm F) (t : Tableau F) : Prop where
  /-- the decision columns of the constraint rows -/
  entry_eq : ∀ i < problem.constraintCount, ∀ j < problem.variableCount, t.entry i j =
    ∑ k ∈ Finset.range problem.constraintCount,
      t.entry i (problem.variableCount + k) * problem.coefficient k j
  /-- the right hand sides -/
  rhs_eq : ∀ i < problem.constraintCount,
    t.entry i (problem.variableCount + problem.constraintCount) =
      ∑ k ∈ Finset.range problem.constraintCount,
        t.entry i (problem.variableCount + k) * problem.bound k
  /-- the relative costs of the decision variables -/
  cost_eq : ∀ j < problem.variableCount, t.entry problem.constraintCount j =
    ∑ k ∈ Finset.range problem.constraintCount,
      t.entry problem.constraintCount (problem.variableCount + k) * problem.coefficient k j -
        problem.cost j
  /-- the objective value -/
  value_eq : t.entry problem.constraintCount (problem.variableCount + problem.constraintCount) =
    ∑ k ∈ Finset.range problem.constraintCount,
      t.entry problem.constraintCount (problem.variableCount + k) * problem.bound k

/-- Combinations of the rows of the first tableau are combinations of the rows of the problem. -/
theorem IsCombinationOf.isCertified [LE F] (hcombination : t.IsCombinationOf (initial problem eps))
    (h : problem.IsWellFormed)
    (ht : t.HasShape problem.variableCount problem.constraintCount) : t.IsCertified problem := by
  have hdecision : ∀ i, ∀ j < problem.variableCount, t.combination (initial problem eps) i j =
      ∑ k ∈ Finset.range problem.constraintCount,
        t.entry i (problem.variableCount + k) * problem.coefficient k j := by
    intro i j hj
    rw [ht.combination_eq]
    refine Finset.sum_congr rfl fun k hk => ?_
    rw [entry_initial_decision h (Finset.mem_range.mp hk) hj]
  have hrhs : ∀ i, t.combination (initial problem eps) i
      (problem.variableCount + problem.constraintCount) =
      ∑ k ∈ Finset.range problem.constraintCount,
        t.entry i (problem.variableCount + k) * problem.bound k := by
    intro i
    rw [ht.combination_eq]
    refine Finset.sum_congr rfl fun k hk => ?_
    rw [entry_initial_rhs h (Finset.mem_range.mp hk)]
  obtain ⟨hconstraint, hobjective⟩ := hcombination
  rw [ht.rowCount_eq, ht.columnCount_eq] at hconstraint hobjective
  constructor
  · intro i hi j hj
    rw [hconstraint i hi j (by omega), hdecision i j hj]
  · intro i hi
    rw [hconstraint i hi _ (Nat.le_refl _), hrhs i]
  · intro j hj
    rw [hobjective j (by omega), hdecision _ j hj, entry_initial_cost hj, ← sub_eq_add_neg]
  · rw [hobjective _ (Nat.le_refl _), hrhs, entry_initial_objective (Nat.le_add_right _ _),
      add_zero]

/-! ## Runs -/

section Runs

variable [LinearOrder F]

/-- **The rows of every tableau of a run are combinations of the first rows.** -/
theorem isCombinationOf_after (h : problem.IsWellFormed) (rule : PivotRule) (k : Nat) :
    ((initial problem eps).after rule k).IsCombinationOf (initial problem eps) := by
  suffices hinvariant : ((initial problem eps).after rule k).HasShape problem.variableCount
        problem.constraintCount ∧
      ((initial problem eps).after rule k).IsCombinationOf (initial problem eps) from hinvariant.2
  refine after_induction rule (P := fun t => t.HasShape problem.variableCount
    problem.constraintCount ∧ t.IsCombinationOf (initial problem eps))
    ⟨hasShape_initial h, isCombinationOf_initial h⟩ ?_ k
  rintro t step ⟨ht, hcombination⟩ hstep
  obtain ⟨row, column, hpivot, rfl⟩ := ht.of_step? hstep
  have hshape := hpivot.hasShape_pivot ht
  exact ⟨hshape, hcombination.pivot ht hshape hpivot.row_lt⟩

end Runs

end Tableau

/-! ## Traces -/

section Traces

variable {F : Type} [Field F] [LinearOrder F] [IsStrictOrderedRing F] {problem : StandardForm F}
  {rule : PivotRule} {limit : Nat} {eps : F}

/-- **The slack columns of a record certify it, and those of the last one certify an optimum.** With
`y` for the entries of the objective row in the slack columns, the relative costs are `Aᵀ y - c` and
the objective value is `b y`; the constraint rows are combined from `A` and `b` in the same way. So
when the answer is optimal, `y ≥ 0` and `Aᵀ y ≥ c` up to the tolerance, and `b y` is the reported
objective value. -/
theorem slack_columns_certify_records (h : problem.IsWellFormed) (heps : 0 ≤ eps) :
    (∀ record ∈ (solve rule limit eps problem).trace.records,
      (∀ i < problem.constraintCount,
        (∀ j < problem.variableCount, record.entry i j =
          ∑ k ∈ Finset.range problem.constraintCount,
            record.entry i (problem.variableCount + k) * problem.coefficient k j) ∧
        record.entry i (problem.variableCount + problem.constraintCount) =
          ∑ k ∈ Finset.range problem.constraintCount,
            record.entry i (problem.variableCount + k) * problem.bound k) ∧
      (∀ j < problem.variableCount, record.entry problem.constraintCount j =
        ∑ k ∈ Finset.range problem.constraintCount,
          record.entry problem.constraintCount (problem.variableCount + k) *
            problem.coefficient k j - problem.cost j) ∧
      record.entry problem.constraintCount (problem.variableCount + problem.constraintCount) =
        ∑ k ∈ Finset.range problem.constraintCount,
          record.entry problem.constraintCount (problem.variableCount + k) * problem.bound k) ∧
      ∀ optimum, solve rule limit eps problem = .optimal optimum →
        ∃ last, optimum.trace.records.getLast? = some last ∧
          (∀ k < problem.constraintCount,
            -eps ≤ last.entry problem.constraintCount (problem.variableCount + k)) ∧
          (∀ j < problem.variableCount, problem.cost j - eps ≤
            ∑ k ∈ Finset.range problem.constraintCount,
              last.entry problem.constraintCount (problem.variableCount + k) *
                problem.coefficient k j) ∧
          ∑ k ∈ Finset.range problem.constraintCount,
              last.entry problem.constraintCount (problem.variableCount + k) * problem.bound k =
            optimum.objectiveValue := by
  have hcertified : ∀ k, ((Tableau.initial problem eps).after rule k).IsCertified problem :=
    fun k => (Tableau.isCombinationOf_after h rule k).isCertified h
      (Tableau.hasShape_after h rule k)
  constructor
  · intro record hrecord
    obtain ⟨k, pivot, rfl⟩ := exists_eq_of_mem_records hrecord
    obtain ⟨hentry, hrhs, hcost, hvalue⟩ := hcertified k
    exact ⟨fun i hi => ⟨hentry i hi, hrhs i hi⟩, hcost, hvalue⟩
  · intro optimum hsolve
    obtain ⟨t, pivot, ht, hlast, hnone, -, hvalue⟩ := exists_last_of_optimal hsolve
    have hrepresents : t.Represents problem := ht ▸ Tableau.represents_after h heps rule _
    have hteps : t.eps = eps := ht ▸ Tableau.eps_after rule _ _
    have htcertified : t.IsCertified problem := ht ▸ hcertified _
    -- every entry of the objective row is a relative cost, those in the slack columns too
    have hcost : ∀ j < problem.variableCount + problem.constraintCount,
        -eps ≤ t.entry problem.constraintCount j :=
      fun j hj => hrepresents.neg_eps_le_entry heps hteps hnone hj
    refine ⟨_, hlast, fun k hk => hcost _ (by omega), fun j hj => ?_, ?_⟩
    · have hle := hcost j (by omega)
      rw [htcertified.cost_eq j hj, neg_le_iff_add_nonneg, sub_add, sub_nonneg] at hle
      exact hle
    · rw [hvalue, Tableau.objectiveValue, hrepresents.hasShape.rowCount_eq,
        hrepresents.hasShape.columnCount_eq, htcertified.value_eq]
      rfl

/-- The last record of the degenerate run certifies its optimum by `y = (0, 18, 1)`. -/
theorem slack_columns_certify_records_degenerate :
    ∃ optimum last, solve .bland 100 0 StandardForm.degenerate = .optimal optimum ∧
      optimum.trace.records.getLast? = some last ∧
      (List.range 3).map (fun k => last.entry 3 (4 + k)) = [0, 18, 1] ∧
      (∀ j < 4, StandardForm.degenerate.cost j ≤ ∑ k ∈ Finset.range 3,
        last.entry 3 (4 + k) * StandardForm.degenerate.coefficient k j) ∧
      ∑ k ∈ Finset.range 3, last.entry 3 (4 + k) * StandardForm.degenerate.bound k =
        optimum.objectiveValue := by
  have hwellFormed : StandardForm.degenerate.IsWellFormed := by decide +kernel
  have hanswer : (solve .bland 100 0 StandardForm.degenerate).optimum?.map
      (fun optimum => optimum.trace.records.getLast?.map fun last =>
        (List.range 3).map fun k => last.entry 3 (4 + k)) = some (some [0, 18, 1]) := by
    decide +kernel
  rcases hsolve : solve .bland 100 0 StandardForm.degenerate with optimum | trace | trace
  · rw [hsolve] at hanswer
    obtain ⟨last, hlast, -, hdual, hvalue⟩ :=
      (slack_columns_certify_records hwellFormed (le_refl 0)).2 optimum hsolve
    obtain ⟨last', hlast', hentries⟩ := Option.map_eq_some_iff.mp (Option.some.inj hanswer)
    obtain rfl := Option.some.inj (hlast.symm.trans hlast')
    exact ⟨optimum, last, rfl, hlast, hentries,
      fun j hj => (sub_zero _).symm.trans_le (hdual j hj), hvalue⟩
  · rw [hsolve] at hanswer
    cases hanswer
  · rw [hsolve] at hanswer
    cases hanswer

end Traces

end PrimalSimplex
