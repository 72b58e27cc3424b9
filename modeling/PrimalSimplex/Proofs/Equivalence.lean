import Mathlib.Algebra.BigOperators.Field
import PrimalSimplex.Proofs.PivotRule

/-!
# Tableaus are equivalent to their problem

A tableau is another way to write the problem that it came from: its constraint rows are equations
with the same solutions, and its objective row is the objective function, up to multiples of these
equations. `Tableau.Represents` says so, together with what makes a basis a basis: the basic columns
are unit vectors, in the objective row too.

A row is an affine function of the point, its *residual* (`Tableau.residual`), and the objective row
is no different from the others. A pivot scales one residual and subtracts multiples of it from the
others (`Tableau.HasShape.residual_pivot_self`, `Tableau.HasShape.residual_pivot_of_ne`), which can
be undone. That is the whole argument for `Tableau.Represents.pivot`, and by induction every tableau
of a run represents the problem (`Tableau.represents_after`).

Only exactness matters here, not the size of the tolerance: an admissible pivot has a nonzero
element as soon as the tolerance is not negative.
-/

namespace PrimalSimplex

/-- The value at a row and a column of a recorded tableau. -/
def Record.entry {F : Type} [Zero F] (record : Record F) (row column : Nat) : F :=
  (record.rows.getD row []).getD column 0

namespace Tableau

variable {F : Type} [Field F] {problem : StandardForm F} {t : Tableau F} {n m row column : Nat}

/-- What the left hand side of a row exceeds its right hand side by at a point. -/
def residual (t : Tableau F) (i : Nat) (v : Nat → F) : F :=
  ∑ j ∈ Finset.range t.columnCount, t.entry i j * v j - t.entry i t.columnCount

/-- The point satisfies the constraint rows as equations. -/
def IsSolvedBy (t : Tableau F) (v : Nat → F) : Prop := ∀ i < t.rowCount, t.residual i v = 0

/-- The tableau is equivalent to the problem, and solved for its basic variables. -/
structure Represents (problem : StandardForm F) (t : Tableau F) : Prop where
  /-- the tableau has the shape that goes with the problem -/
  hasShape : t.HasShape problem.variableCount problem.constraintCount
  /-- the basic columns are unit vectors -/
  unit : ∀ i < problem.constraintCount, ∀ k ≤ problem.constraintCount,
    t.entry k (t.basicColumn i) = if k = i then 1 else 0
  /-- the constraint rows have the solutions of the problem -/
  isSolvedBy_iff : ∀ v, t.IsSolvedBy v ↔ problem.IsSolvedBy v
  /-- on these, the objective row is the objective function -/
  objectiveAt_eq : ∀ v, t.IsSolvedBy v → problem.objectiveAt v = -t.residual t.rowCount v

/-- The objective function in terms of the relative costs. -/
theorem Represents.objectiveAt_eq_sub (h : t.Represents problem) {v : Nat → F}
    (hv : problem.IsSolvedBy v) :
    problem.objectiveAt v = t.objectiveValue -
      ∑ j ∈ Finset.range (problem.variableCount + problem.constraintCount),
        t.relativeCost j * v j := by
  rw [h.objectiveAt_eq v ((h.isSolvedBy_iff v).mpr hv), residual, neg_sub,
    h.hasShape.columnCount_eq, objectiveValue, h.hasShape.columnCount_eq]
  rfl

/-! ## The first tableau -/

section Initial

variable [LE F] {eps : F}

/-- A constraint row of the first tableau is a row of the problem with its slack. -/
theorem residual_initial (h : problem.IsWellFormed) {i : Nat} (hi : i < problem.constraintCount)
    (v : Nat → F) :
    (initial problem eps).residual i v =
      problem.rowAt i v + v (problem.variableCount + i) - problem.bound i := by
  have hslacks : ∑ k ∈ Finset.range problem.constraintCount,
      (initial problem eps).entry i (problem.variableCount + k) * v (problem.variableCount + k) =
      v (problem.variableCount + i) := by
    rw [Finset.sum_eq_single_of_mem i (Finset.mem_range.mpr hi)]
    · rw [entry_initial_slack h hi hi, if_pos rfl, one_mul]
    · intro k hk hne
      rw [entry_initial_slack h hi (Finset.mem_range.mp hk), if_neg hne, zero_mul]
  rw [residual, (hasShape_initial h).columnCount_eq, Finset.sum_range_add, hslacks,
    entry_initial_rhs h hi]
  congr 2
  refine Finset.sum_congr rfl fun j hj => ?_
  rw [entry_initial_decision h hi (Finset.mem_range.mp hj)]

/-- The objective row of the first tableau is the objective function. -/
theorem residual_initial_objective (h : problem.IsWellFormed) (v : Nat → F) :
    (initial problem eps).residual problem.constraintCount v = -problem.objectiveAt v := by
  have hslacks : ∑ k ∈ Finset.range problem.constraintCount,
      (initial problem eps).entry problem.constraintCount (problem.variableCount + k) *
        v (problem.variableCount + k) = 0 := by
    refine Finset.sum_eq_zero fun k _ => ?_
    rw [entry_initial_objective (Nat.le_add_right _ _), zero_mul]
  rw [residual, (hasShape_initial h).columnCount_eq, Finset.sum_range_add, hslacks, add_zero,
    entry_initial_objective (Nat.le_add_right _ _), sub_zero, StandardForm.objectiveAt,
    ← Finset.sum_neg_distrib]
  refine Finset.sum_congr rfl fun j hj => ?_
  rw [entry_initial_cost (Finset.mem_range.mp hj), neg_mul]

/-- The first tableau represents its problem. -/
theorem represents_initial (h : problem.IsWellFormed) :
    (initial problem eps).Represents problem where
  hasShape := hasShape_initial h
  unit := by
    intro i hi k hk
    rw [basicColumn_initial hi]
    rcases Nat.lt_or_eq_of_le hk with hk | rfl
    · rw [entry_initial_slack h hk hi]
      exact if_congr eq_comm rfl rfl
    · rw [entry_initial_objective (Nat.le_add_right _ _), if_neg hi.ne']
  isSolvedBy_iff := by
    intro v
    unfold IsSolvedBy StandardForm.IsSolvedBy
    rw [(hasShape_initial h).rowCount_eq]
    refine forall₂_congr fun i hi => ?_
    rw [residual_initial h hi, sub_eq_zero]
  objectiveAt_eq := by
    intro v _
    rw [(hasShape_initial h).rowCount_eq, residual_initial_objective h, neg_neg]

end Initial

/-! ## One pivot -/

section Pivoting

variable [DecidableEq F]

/-- In a field it makes no difference that rows with a zero in the column are left alone. -/
theorem HasShape.entry_pivot (h : t.HasShape n m) (hrow : row < m) {i j : Nat} (hi : i ≤ m)
    (hj : j ≤ n + m) (hne : i ≠ row) :
    (t.pivot row column).entry i j =
      t.entry i j - t.entry i column * (t.entry row j / t.entry row column) := by
  rw [h.entry_pivot_of_ne hrow hi hj hne]
  split
  · rename_i hzero
    rw [beq_iff_eq.mp hzero, zero_mul, sub_zero]
  · rfl

/-- A pivot divides the residual of its row by the pivot element. -/
theorem HasShape.residual_pivot_self (h : t.HasShape n m) (hrow : row < m) (v : Nat → F) :
    (t.pivot row column).residual row v = t.residual row v / t.entry row column := by
  rw [residual, residual, columnCount_pivot, h.columnCount_eq,
    h.entry_pivot_self hrow (Nat.le_refl _), sub_div, Finset.sum_div]
  congr 1
  refine Finset.sum_congr rfl fun j hj => ?_
  rw [h.entry_pivot_self hrow (Finset.mem_range.mp hj).le]
  ring

/-- A pivot subtracts a multiple of that residual from the others. -/
theorem HasShape.residual_pivot_of_ne (h : t.HasShape n m) (hrow : row < m) {i : Nat} (hi : i ≤ m)
    (hne : i ≠ row) (v : Nat → F) :
    (t.pivot row column).residual i v =
      t.residual i v - t.entry i column * (t.residual row v / t.entry row column) := by
  have hsum : ∑ j ∈ Finset.range (n + m), (t.pivot row column).entry i j * v j =
      ∑ j ∈ Finset.range (n + m), t.entry i j * v j -
        t.entry i column *
          ((∑ j ∈ Finset.range (n + m), t.entry row j * v j) / t.entry row column) := by
    rw [Finset.sum_div, Finset.mul_sum, ← Finset.sum_sub_distrib]
    refine Finset.sum_congr rfl fun j hj => ?_
    rw [h.entry_pivot hrow hi (Finset.mem_range.mp hj).le hne]
    ring
  rw [residual, residual, residual, columnCount_pivot, h.columnCount_eq, hsum,
    h.entry_pivot hrow hi (Nat.le_refl _) hne]
  ring

/-- **A pivot keeps the solutions of the constraint rows.** -/
theorem HasShape.isSolvedBy_pivot_iff (h : t.HasShape n m) (hrow : row < m)
    (hne : t.entry row column ≠ 0) (v : Nat → F) :
    (t.pivot row column).IsSolvedBy v ↔ t.IsSolvedBy v := by
  unfold IsSolvedBy
  rw [rowCount_pivot, h.rowCount_eq]
  constructor
  · -- the division is undone first, the subtractions after it
    intro hsolved i hi
    have hself : t.residual row v = 0 := by
      have := hsolved row hrow
      rw [h.residual_pivot_self hrow] at this
      exact (div_eq_zero_iff.mp this).resolve_right hne
    by_cases hir : i = row
    · rw [hir]
      exact hself
    · have := hsolved i hi
      rwa [h.residual_pivot_of_ne hrow hi.le hir, hself, zero_div, mul_zero, sub_zero] at this
  · intro hsolved i hi
    by_cases hir : i = row
    · rw [hir, h.residual_pivot_self hrow, hsolved row hrow, zero_div]
    · rw [h.residual_pivot_of_ne hrow hi.le hir, hsolved i hi, hsolved row hrow, zero_div,
        mul_zero, sub_zero]

/-- The basic columns are unit vectors after a pivot if they were before it. -/
theorem HasShape.unit_pivot (h : t.HasShape n m) (hrow : row < m) (hcolumn : column < n + m)
    (hne : t.entry row column ≠ 0)
    (hunit : ∀ i < m, ∀ k ≤ m, t.entry k (t.basicColumn i) = if k = i then 1 else 0) :
    ∀ i < m, ∀ k ≤ m, (t.pivot row column).entry k ((t.pivot row column).basicColumn i) =
      if k = i then 1 else 0 := by
  intro i hi k hk
  rw [h.basicColumn_pivot hrow]
  by_cases hir : i = row
  · -- the column that has just been eliminated
    subst hir
    rw [if_pos rfl]
    by_cases hki : k = i
    · subst hki
      rw [h.entry_pivot_self hrow hcolumn.le, if_pos rfl, div_self hne]
    · rw [h.entry_pivot hrow hk hcolumn.le hki, if_neg hki, div_self hne, mul_one, sub_self]
  · -- a column that was a unit vector before: it has a zero in the row of the pivot
    have hlt := h.basicColumn_lt hi
    have hzero : t.entry row (t.basicColumn i) = 0 := by
      rw [hunit i hi row hrow.le, if_neg (Ne.symm hir)]
    rw [if_neg hir]
    by_cases hkr : k = row
    · subst hkr
      rw [h.entry_pivot_self hrow hlt.le, hzero, zero_div, if_neg (Ne.symm hir)]
    · rw [h.entry_pivot hrow hk hlt.le hkr, hzero, zero_div, mul_zero, sub_zero, hunit i hi k hk]

/-- **A pivot on a nonzero element keeps the tableau equivalent to the problem.** -/
theorem Represents.pivot (h : t.Represents problem) (hrow : row < problem.constraintCount)
    (hcolumn : column < problem.variableCount + problem.constraintCount)
    (hnot : column ∉ t.basis) (hne : t.entry row column ≠ 0) :
    (t.pivot row column).Represents problem where
  hasShape := h.hasShape.pivot hrow hcolumn hnot
  unit := h.hasShape.unit_pivot hrow hcolumn hne h.unit
  isSolvedBy_iff := by
    intro v
    rw [h.hasShape.isSolvedBy_pivot_iff hrow hne]
    exact h.isSolvedBy_iff v
  objectiveAt_eq := by
    intro v hsolved
    rw [h.hasShape.isSolvedBy_pivot_iff hrow hne] at hsolved
    have hresidual : t.residual row v = 0 := hsolved row (h.hasShape.rowCount_eq.symm ▸ hrow)
    rw [h.objectiveAt_eq v hsolved, rowCount_pivot, h.hasShape.rowCount_eq,
      h.hasShape.residual_pivot_of_ne hrow (Nat.le_refl _) hrow.ne', hresidual, zero_div,
      mul_zero, sub_zero]

end Pivoting

/-! ## Runs -/

section Runs

variable [LinearOrder F] {rule : PivotRule} {eps : F}

/-- The element of an admissible pivot is positive when the tolerance is not negative. -/
theorem IsAdmissible.entry_pos (h : t.IsAdmissible n m row column) (heps : 0 ≤ t.eps) :
    0 < t.entry row column :=
  lt_of_le_of_lt heps h.eps_lt

theorem Represents.of_step? (h : t.Represents problem) (heps : 0 ≤ t.eps)
    {step : Pivot F × Tableau F} (hstep : t.step? rule = some step) :
    step.2.Represents problem := by
  obtain ⟨row, column, hpivot, rfl⟩ := h.hasShape.of_step? hstep
  exact h.pivot hpivot.row_lt hpivot.column_lt hpivot.not_mem (hpivot.entry_pos heps).ne'

/-- **Every tableau of a run represents the problem.** -/
theorem represents_after (h : problem.IsWellFormed) (heps : 0 ≤ eps) (rule : PivotRule) (k : Nat) :
    ((initial problem eps).after rule k).Represents problem := by
  -- the tolerance goes into the invariant, since a step alone does not say that it is not negative
  suffices hinvariant : ((initial problem eps).after rule k).Represents problem ∧
      0 ≤ ((initial problem eps).after rule k).eps from hinvariant.1
  refine after_induction rule (P := fun t => t.Represents problem ∧ 0 ≤ t.eps)
    ⟨represents_initial h, heps⟩ ?_ k
  rintro t step ⟨ht, hpos⟩ hstep
  refine ⟨ht.of_step? hpos hstep, ?_⟩
  obtain ⟨row, column, -, rfl⟩ := ht.hasShape.of_step? hstep
  exact hpos

end Runs

end Tableau

/-! ## Traces -/

section Traces

variable {F : Type} [Field F] [LinearOrder F] {problem : StandardForm F} {rule : PivotRule}
  {limit : Nat} {eps : F}

/-- **Every recorded tableau is equivalent to the problem.** Its basic columns are unit vectors, its
constraint rows have the same solutions as `A x + s = b`, and on these its objective row gives the
objective function. Its rows and its basis are as long as these readings need. -/
theorem recorded_tableau_equivalent (h : problem.IsWellFormed) (heps : 0 ≤ eps)
    {record : Record F} (hrecord : record ∈ (solve rule limit eps problem).trace.records) :
    (record.rows.length = problem.constraintCount + 1 ∧
        (∀ row ∈ record.rows,
          row.length = problem.variableCount + problem.constraintCount + 1) ∧
        record.basis.length = problem.constraintCount ∧
        ∀ column ∈ record.basis, column < problem.variableCount + problem.constraintCount) ∧
      (∀ i < problem.constraintCount, ∀ k ≤ problem.constraintCount,
        record.entry k (record.basis.getD i 0) = if k = i then 1 else 0) ∧
      (∀ v : Nat → F,
        (∀ i < problem.constraintCount,
          ∑ j ∈ Finset.range (problem.variableCount + problem.constraintCount),
              record.entry i j * v j =
            record.entry i (problem.variableCount + problem.constraintCount)) ↔
        problem.IsSolvedBy v) ∧
      ∀ v : Nat → F, problem.IsSolvedBy v →
        problem.objectiveAt v =
          record.entry problem.constraintCount (problem.variableCount + problem.constraintCount) -
            ∑ j ∈ Finset.range (problem.variableCount + problem.constraintCount),
              record.entry problem.constraintCount j * v j := by
  obtain ⟨k, pivot, rfl⟩ := exists_eq_of_mem_records hrecord
  have hrepresents := Tableau.represents_after h heps rule k
  have hshape := hrepresents.hasShape
  refine ⟨⟨hshape.length_rows, hshape.length_row, hshape.length_basis, hshape.basis_lt⟩,
    hrepresents.unit, ?_, ?_⟩
  · intro v
    rw [← hrepresents.isSolvedBy_iff, Tableau.IsSolvedBy, hshape.rowCount_eq]
    refine forall₂_congr fun i _ => ?_
    rw [Tableau.residual, hshape.columnCount_eq, sub_eq_zero]
    rfl
  · intro v hsolved
    rw [hrepresents.objectiveAt_eq_sub hsolved, Tableau.objectiveValue, hshape.columnCount_eq,
      hshape.rowCount_eq]
    simp only [Tableau.relativeCost, hshape.rowCount_eq]
    rfl

/-- The recorded tableau after seven pivots of a degenerate run. -/
theorem recorded_tableau_equivalent_degenerate :
    ∃ record ∈ (solve .bland 100 0 StandardForm.degenerate).trace.records,
      record.basis = [4, 0, 2] ∧
        ∀ v : Nat → ℚ, StandardForm.degenerate.IsSolvedBy v →
          StandardForm.degenerate.objectiveAt v =
            record.entry 3 7 - ∑ j ∈ Finset.range 7, record.entry 3 j * v j := by
  have hlength : (solve .bland 100 0 StandardForm.degenerate).trace.records.length = 8 := by
    decide +kernel
  have hlt : 7 < (solve .bland 100 0 StandardForm.degenerate).trace.records.length := by
    rw [hlength]
    decide
  have hwellFormed : StandardForm.degenerate.IsWellFormed := by decide +kernel
  have hbasis : ((solve .bland 100 0 StandardForm.degenerate).trace.records.map Record.basis)[7]? =
      some [4, 0, 2] := by
    decide +kernel
  rw [List.getElem?_map, List.getElem?_eq_getElem hlt] at hbasis
  exact ⟨_, List.getElem_mem hlt, Option.some.inj hbasis,
    (recorded_tableau_equivalent hwellFormed (le_refl 0) (List.getElem_mem hlt)).2.2.2⟩

end Traces

end PrimalSimplex
