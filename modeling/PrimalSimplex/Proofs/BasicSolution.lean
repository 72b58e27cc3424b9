import Mathlib.Algebra.Order.BigOperators.Group.Finset
import Mathlib.Tactic.LinearCombination
import PrimalSimplex.Proofs.Equivalence

/-!
# Basic solutions

A tableau that is solved for its basic variables has one solution in which the others are zero, its
*basic solution* (`Tableau.Represents.eq_basicValue`). From there the solutions reach out in rays:
when the variable of one column grows, the basic variables change in proportion to the entries of
that column, and nothing else moves (`Tableau.along`). Both follow from one sum, over the entries of
a row times values that live on the basis (`Tableau.Represents.sum_entry_mul_onBasis`).

A pivot moves the basic solution along such a ray, up to the ratio of the leaving row
(`Tableau.Represents.basicValue_pivot`). This is proved by uniqueness and not from the entries of
the new tableau: the point at the end of the ray solves the equations and vanishes where the new
basis wants it to.

As long as that ratio is the smallest one, no basic variable becomes negative on the way and the
basic solution stays feasible (`Tableau.isFeasible_after_of_ratio_le`). Without a tolerance it
always is (`Tableau.isFeasible_after`).

The basic solution can also be read off a record, whose right hand sides are the values of the basic
variables (`Record.IsBasicSolution`). That needs no arithmetic, only the shape of the tableau.
-/

namespace PrimalSimplex

/-- The values are the basic solution that a record shows. All of it is read off the record. -/
structure Record.IsBasicSolution {F : Type} [Zero F] (n m : Nat) (record : Record F)
    (values : List F) : Prop where
  /-- there is a value for each decision variable -/
  length_eq : values.length = n
  /-- a basic variable has the right hand side of its row -/
  basic : ∀ i column, record.basis[i]? = some column → column < n →
    values[column]? = some (record.entry i (n + m))
  /-- the other variables are zero -/
  nonbasic : ∀ j < n, j ∉ record.basis → values[j]? = some 0

namespace Tableau

variable {F : Type} {t : Tableau F} {n m row column : Nat}

/-! ## Values on the basis -/

section OnBasis

variable [Zero F]

/-- The point that has the value of a row at the row's basic variable and is zero elsewhere. -/
def onBasis (t : Tableau F) (f : Nat → F) (j : Nat) : F :=
  match t.basis.idxOf? j with
  | some row => f row
  | none => 0

theorem onBasis_of_not_mem {f : Nat → F} {j : Nat} (h : j ∉ t.basis) : t.onBasis f j = 0 := by
  rw [onBasis, List.idxOf?_eq_none_iff.mpr h]

theorem HasShape.onBasis_basicColumn (h : t.HasShape n m) {f : Nat → F} {i : Nat} (hi : i < m) :
    t.onBasis f (t.basicColumn i) = f i := by
  have hlt : i < t.basis.length := h.length_basis.symm ▸ hi
  have hindex : t.basis.idxOf? (t.basicColumn i) = some i := by
    rw [List.idxOf?_eq_some_iff]
    refine ⟨hlt, ?_, ?_⟩
    · rw [basicColumn, List.getD_eq_getElem _ _ hlt]
    · intro k hk heq
      have hkm : k < m := Nat.lt_trans hk hi
      have hcolumn : t.basicColumn k = t.basicColumn i := by
        rw [basicColumn, List.getD_eq_getElem _ _ (Nat.lt_trans hk hlt)]
        exact heq
      exact absurd (h.basicColumn_inj hkm hi hcolumn) hk.ne
  rw [onBasis, hindex]

/-- The basic solution has the right hand sides on the basis. -/
theorem basicValue_eq_onBasis (t : Tableau F) : t.basicValue = t.onBasis t.constraintValue := rfl

theorem basicValue_of_not_mem {j : Nat} (h : j ∉ t.basis) : t.basicValue j = 0 :=
  onBasis_of_not_mem h

theorem HasShape.basicValue_basicColumn (h : t.HasShape n m) {i : Nat} (hi : i < m) :
    t.basicValue (t.basicColumn i) = t.constraintValue i :=
  h.onBasis_basicColumn hi

/-- The value of a basic variable is the right hand side of its row. -/
theorem HasShape.basicValue_of_getElem? (h : t.HasShape n m) {i : Nat}
    (hcolumn : t.basis[i]? = some column) : t.basicValue column = t.entry i (n + m) := by
  have hi : i < m := by
    rw [← h.length_basis]
    exact (List.getElem?_eq_some_iff.mp hcolumn).1
  obtain rfl := Option.some.inj ((h.basicColumn_eq hi).symm.trans hcolumn)
  rw [h.basicValue_basicColumn hi, h.constraintValue_eq]

/-- The reported solution lists the values of the decision variables. -/
theorem HasShape.getElem?_basicSolution (h : t.HasShape n m) {j : Nat} (hj : j < n) :
    t.basicSolution[j]? = some (t.basicValue j) := by
  rw [← h.decisionCount_eq] at hj
  rw [basicSolution, List.getElem?_map, List.getElem?_range hj, Option.map_some]

theorem HasShape.getD_basicSolution (h : t.HasShape n m) {j : Nat} (hj : j < n) :
    t.basicSolution.getD j 0 = t.basicValue j := by
  rw [List.getD_eq_getElem?_getD, h.getElem?_basicSolution hj, Option.getD_some]

/-- **The reported solution is the basic solution that the record of the tableau shows.** -/
theorem HasShape.isBasicSolution_of [Neg F] [LE F] [DecidableLE F] (h : t.HasShape n m) (k : Nat)
    (pivot : Option (Pivot F)) :
    (Record.of k t pivot).IsBasicSolution n m t.basicSolution where
  length_eq := by rw [basicSolution, List.length_map, List.length_range, h.decisionCount_eq]
  basic := by
    intro i column hcolumn hlt
    rw [h.getElem?_basicSolution hlt, h.basicValue_of_getElem? hcolumn]
    rfl
  nonbasic := by
    intro j hj hnot
    rw [h.getElem?_basicSolution hj, basicValue_of_not_mem hnot]

end OnBasis

/-! ## Rays -/

section Rays

variable [Field F] {problem : StandardForm F}

/-- How the variables change when the variable of a column grows by one and the other variables
outside the basis stay as they are. -/
def direction (t : Tableau F) (column j : Nat) : F :=
  (if j = column then 1 else 0) - t.onBasis (fun i => t.entry i column) j

/-- The point that is reached from the basic solution when the variable of a column has grown. -/
def along (t : Tableau F) (column : Nat) (step : F) (j : Nat) : F :=
  t.basicValue j + step * t.direction column j

theorem along_zero (t : Tableau F) (column : Nat) : t.along column 0 = t.basicValue := by
  funext j
  rw [along, zero_mul, add_zero]

theorem direction_self (h : column ∉ t.basis) : t.direction column column = 1 := by
  rw [direction, if_pos rfl, onBasis_of_not_mem h, sub_zero]

theorem HasShape.direction_basicColumn (h : t.HasShape n m) (hnot : column ∉ t.basis) {i : Nat}
    (hi : i < m) : t.direction column (t.basicColumn i) = -t.entry i column := by
  have hne : t.basicColumn i ≠ column := fun heq => hnot (heq ▸ h.basicColumn_mem hi)
  rw [direction, if_neg hne, h.onBasis_basicColumn hi, zero_sub]

theorem direction_of_not_mem {j : Nat} (hne : j ≠ column) (hnot : j ∉ t.basis) :
    t.direction column j = 0 := by
  rw [direction, if_neg hne, onBasis_of_not_mem hnot, sub_zero]

/-- **A row meets values on the basis in one place**: that of its own basic variable. The objective
row does not meet them at all. -/
theorem Represents.sum_entry_mul_onBasis (h : t.Represents problem) (f : Nat → F) {k : Nat}
    (hk : k ≤ problem.constraintCount) :
    ∑ j ∈ Finset.range (problem.variableCount + problem.constraintCount),
      t.entry k j * t.onBasis f j = if k < problem.constraintCount then f k else 0 := by
  have hzero : ∀ j, (∀ i < problem.constraintCount, t.basicColumn i = j → i ≠ k) →
      t.entry k j * t.onBasis f j = 0 := by
    intro j hj
    by_cases hbasic : j ∈ t.basis
    · obtain ⟨i, hi, rfl⟩ := h.hasShape.exists_basicColumn hbasic
      rw [h.unit i hi k hk, if_neg (hj i hi rfl).symm, zero_mul]
    · rw [onBasis_of_not_mem hbasic, mul_zero]
  split
  · rename_i hlt
    rw [Finset.sum_eq_single_of_mem (t.basicColumn k)
      (Finset.mem_range.mpr (h.hasShape.basicColumn_lt hlt))]
    · rw [h.unit k hlt k hk, if_pos rfl, one_mul, h.hasShape.onBasis_basicColumn hlt]
    · intro j _ hne
      refine hzero j fun i _ heq hik => hne ?_
      rw [← heq, hik]
  · rename_i hlt
    refine Finset.sum_eq_zero fun j _ => hzero j fun i hi _ hik => hlt ?_
    rw [← hik]
    exact hi

/-- A row at a point of a ray. -/
theorem Represents.residual_along (h : t.Represents problem)
    (hcolumn : column < problem.variableCount + problem.constraintCount) (step : F) {k : Nat}
    (hk : k ≤ problem.constraintCount) :
    t.residual k (t.along column step) =
      if k < problem.constraintCount then 0
      else step * t.entry k column -
        t.entry k (problem.variableCount + problem.constraintCount) := by
  have hcolumns : ∑ j ∈ Finset.range (problem.variableCount + problem.constraintCount),
      t.entry k j * (if j = column then 1 else 0) = t.entry k column := by
    simp [hcolumn]
  have hsplit : ∀ j, t.entry k j * t.along column step j =
      t.entry k j * t.onBasis t.constraintValue j +
        step * (t.entry k j * (if j = column then 1 else 0)) -
        step * (t.entry k j * t.onBasis (fun i => t.entry i column) j) := by
    intro j
    rw [along, direction, basicValue_eq_onBasis]
    ring
  rw [residual, h.hasShape.columnCount_eq, Finset.sum_congr rfl fun j _ => hsplit j,
    Finset.sum_sub_distrib, Finset.sum_add_distrib, ← Finset.mul_sum, ← Finset.mul_sum, hcolumns,
    h.sum_entry_mul_onBasis _ hk, h.sum_entry_mul_onBasis _ hk]
  split
  · rw [constraintValue, h.hasShape.columnCount_eq]
    ring
  · ring

/-- The points of a ray solve the equations. -/
theorem Represents.isSolvedBy_along (h : t.Represents problem)
    (hcolumn : column < problem.variableCount + problem.constraintCount) (step : F) :
    t.IsSolvedBy (t.along column step) := by
  intro i hi
  rw [h.hasShape.rowCount_eq] at hi
  rw [h.residual_along hcolumn step hi.le, if_pos hi]

/-- The objective value changes along a ray by the relative cost of its column. -/
theorem Represents.objectiveAt_along (h : t.Represents problem)
    (hcolumn : column < problem.variableCount + problem.constraintCount) (step : F) :
    problem.objectiveAt (t.along column step) =
      t.objectiveValue - step * t.relativeCost column := by
  rw [h.objectiveAt_eq _ (h.isSolvedBy_along hcolumn step), h.hasShape.rowCount_eq,
    h.residual_along hcolumn step (Nat.le_refl _), if_neg (Nat.lt_irrefl _), neg_sub,
    objectiveValue, relativeCost, h.hasShape.rowCount_eq, h.hasShape.columnCount_eq]

/-- The objective row vanishes on the basis. -/
theorem Represents.relativeCost_of_mem (h : t.Represents problem) {j : Nat} (hj : j ∈ t.basis) :
    t.relativeCost j = 0 := by
  obtain ⟨i, hi, rfl⟩ := h.hasShape.exists_basicColumn hj
  rw [relativeCost, h.hasShape.rowCount_eq, h.unit i hi _ (Nat.le_refl _), if_neg hi.ne']

/-! ## The basic solution -/

/-- The basic solution solves the equations. -/
theorem Represents.isSolvedBy_basicValue (h : t.Represents problem) :
    t.IsSolvedBy t.basicValue := by
  intro i hi
  have hi' := h.hasShape.rowCount_eq ▸ hi
  rw [residual, h.hasShape.columnCount_eq, basicValue_eq_onBasis,
    h.sum_entry_mul_onBasis _ hi'.le, if_pos hi', constraintValue, h.hasShape.columnCount_eq,
    sub_self]

/-- The objective value of a tableau is that of its basic solution. -/
theorem Represents.objectiveAt_basicValue (h : t.Represents problem) :
    problem.objectiveAt t.basicValue = t.objectiveValue := by
  rw [h.objectiveAt_eq _ h.isSolvedBy_basicValue, residual, h.hasShape.rowCount_eq,
    h.hasShape.columnCount_eq, basicValue_eq_onBasis, h.sum_entry_mul_onBasis _ (Nat.le_refl _),
    if_neg (Nat.lt_irrefl _), zero_sub, neg_neg, objectiveValue, h.hasShape.rowCount_eq,
    h.hasShape.columnCount_eq]

/-- The rows of the problem do not change along a ray, their slacks included. -/
theorem Represents.rowAt_direction (h : t.Represents problem)
    (hcolumn : column < problem.variableCount + problem.constraintCount) {i : Nat}
    (hi : i < problem.constraintCount) :
    problem.rowAt i (t.direction column) + t.direction column (problem.variableCount + i) = 0 := by
  have hstart := (h.isSolvedBy_iff _).mp h.isSolvedBy_basicValue i hi
  have hend := (h.isSolvedBy_iff _).mp (h.isSolvedBy_along hcolumn 1) i hi
  unfold along at hend
  rw [StandardForm.rowAt_add_mul, ← hstart] at hend
  linear_combination hend

/-- The objective function changes along a ray by the relative cost of its column. -/
theorem Represents.objectiveAt_direction (h : t.Represents problem)
    (hcolumn : column < problem.variableCount + problem.constraintCount) :
    problem.objectiveAt (t.direction column) = -t.relativeCost column := by
  have hend := h.objectiveAt_along hcolumn 1
  unfold along at hend
  rw [StandardForm.objectiveAt_add_mul, h.objectiveAt_basicValue] at hend
  linear_combination hend

/-- **The basic solution is the only one that is zero outside the basis.** -/
theorem Represents.eq_basicValue (h : t.Represents problem) {v : Nat → F} (hv : t.IsSolvedBy v)
    (hzero : ∀ j < problem.variableCount + problem.constraintCount, j ∉ t.basis → v j = 0) :
    ∀ j < problem.variableCount + problem.constraintCount, v j = t.basicValue j := by
  -- such a point lives on the basis, and each row then reads off one of its values
  have honBasis : ∀ j < problem.variableCount + problem.constraintCount,
      v j = t.onBasis (fun i => v (t.basicColumn i)) j := by
    intro j hj
    by_cases hbasic : j ∈ t.basis
    · obtain ⟨i, hi, rfl⟩ := h.hasShape.exists_basicColumn hbasic
      rw [h.hasShape.onBasis_basicColumn hi]
    · rw [hzero j hj hbasic, onBasis_of_not_mem hbasic]
  intro j hj
  by_cases hbasic : j ∈ t.basis
  · obtain ⟨i, hi, rfl⟩ := h.hasShape.exists_basicColumn hbasic
    have hresidual := hv i (h.hasShape.rowCount_eq.symm ▸ hi)
    rw [residual, h.hasShape.columnCount_eq,
      Finset.sum_congr rfl fun j hj => by rw [honBasis j (Finset.mem_range.mp hj)],
      h.sum_entry_mul_onBasis _ hi.le, if_pos hi, sub_eq_zero] at hresidual
    rw [hresidual, h.hasShape.basicValue_basicColumn hi, constraintValue,
      h.hasShape.columnCount_eq]
  · rw [hzero j hj hbasic, basicValue_of_not_mem hbasic]

/-- **A basis has one basic solution.** -/
theorem Represents.basicValue_eq_of_basis {p q : Tableau F} (hp : p.Represents problem)
    (hq : q.Represents problem) (hbasis : p.basis.toFinset = q.basis.toFinset) :
    ∀ j < problem.variableCount + problem.constraintCount, p.basicValue j = q.basicValue j := by
  have hsolved : q.IsSolvedBy p.basicValue :=
    (hq.isSolvedBy_iff _).mpr ((hp.isSolvedBy_iff _).mp hp.isSolvedBy_basicValue)
  refine hq.eq_basicValue hsolved fun j _ hj => basicValue_of_not_mem ?_
  rwa [← List.mem_toFinset, hbasis, List.mem_toFinset]

/-- Tableaus with one basic solution have one objective value. -/
theorem Represents.objectiveValue_congr {p q : Tableau F} (hp : p.Represents problem)
    (hq : q.Represents problem)
    (hvalue : ∀ j < problem.variableCount + problem.constraintCount,
      p.basicValue j = q.basicValue j) : p.objectiveValue = q.objectiveValue := by
  rw [← hp.objectiveAt_basicValue, ← hq.objectiveAt_basicValue]
  exact StandardForm.objectiveAt_congr fun j hj => hvalue j (by omega)

/-! ## Pivots move the basic solution -/

section Pivoting

variable [DecidableEq F]

/-- **A pivot moves the basic solution along the ray of its column**, up to the ratio of its row. -/
theorem Represents.basicValue_pivot (h : t.Represents problem)
    (hrow : row < problem.constraintCount)
    (hcolumn : column < problem.variableCount + problem.constraintCount)
    (hnot : column ∉ t.basis) (hne : t.entry row column ≠ 0) :
    ∀ j < problem.variableCount + problem.constraintCount,
      (t.pivot row column).basicValue j = t.along column (t.ratio row column) j := by
  have hpivot := h.pivot hrow hcolumn hnot hne
  have hsolved : (t.pivot row column).IsSolvedBy (t.along column (t.ratio row column)) :=
    (h.hasShape.isSolvedBy_pivot_iff hrow hne _).mpr (h.isSolvedBy_along hcolumn _)
  intro j hj
  refine (hpivot.eq_basicValue hsolved ?_ j hj).symm
  -- a variable outside the new basis was outside the old one, or it has just left
  intro k _ hk
  rw [h.hasShape.mem_basis_pivot hrow hcolumn hnot, not_or] at hk
  obtain ⟨hkcolumn, hk⟩ := hk
  by_cases hbasic : k ∈ t.basis
  · obtain rfl : k = t.basicColumn row := by
      by_contra hleaving
      exact hk ⟨hbasic, hleaving⟩
    rw [along, h.hasShape.basicValue_basicColumn hrow, h.hasShape.direction_basicColumn hnot hrow,
      ratio, mul_neg, div_mul_cancel₀ _ hne, add_neg_cancel]
  · rw [along, basicValue_of_not_mem hbasic, direction_of_not_mem hkcolumn hbasic, mul_zero,
      add_zero]

/-- The objective value after a pivot. -/
theorem Represents.objectiveValue_pivot (h : t.Represents problem)
    (hrow : row < problem.constraintCount)
    (hcolumn : column < problem.variableCount + problem.constraintCount)
    (hnot : column ∉ t.basis) (hne : t.entry row column ≠ 0) :
    (t.pivot row column).objectiveValue =
      t.objectiveValue - t.ratio row column * t.relativeCost column := by
  rw [← (h.pivot hrow hcolumn hnot hne).objectiveAt_basicValue, ← h.objectiveAt_along hcolumn]
  refine StandardForm.objectiveAt_congr fun j hj => ?_
  exact h.basicValue_pivot hrow hcolumn hnot hne j (by omega)

end Pivoting

end Rays

/-! ## Feasibility

A tableau is feasible when no basic variable is negative. A pivot keeps it so when its row has the
least ratio of all rows with a positive entry: it *passes no row*. Without a tolerance that is what
the ratio test looks for. With one it may pass a row, since a row whose entry is positive but too
small is not a candidate, and ratios that are close to each other count as equal. -/

section Feasibility

variable [Field F] [LinearOrder F] [IsStrictOrderedRing F] {problem : StandardForm F}
  {rule : PivotRule}

/-- No basic variable is negative. -/
def IsFeasible (t : Tableau F) : Prop := ∀ i < t.rowCount, 0 ≤ t.constraintValue i

omit [IsStrictOrderedRing F] in
/-- A bound for the right hand sides is a bound for all variables if it is not positive: those
outside the basis are zero. -/
theorem HasShape.le_basicValue (h : t.HasShape n m) {bound : F} (hbound : bound ≤ 0)
    (hvalues : ∀ i < m, bound ≤ t.constraintValue i) (j : Nat) : bound ≤ t.basicValue j := by
  by_cases hbasic : j ∈ t.basis
  · obtain ⟨i, hi, rfl⟩ := h.exists_basicColumn hbasic
    rw [h.basicValue_basicColumn hi]
    exact hvalues i hi
  · rw [basicValue_of_not_mem hbasic]
    exact hbound

omit [IsStrictOrderedRing F] in
theorem HasShape.basicValue_nonneg (h : t.HasShape n m) (hfeasible : t.IsFeasible) (j : Nat) :
    0 ≤ t.basicValue j :=
  h.le_basicValue (le_refl 0) (fun i hi => hfeasible i (h.rowCount_eq.symm ▸ hi)) j

/-- The basic solution of a feasible tableau is a feasible point. -/
theorem Represents.isFeasible_basicValue (h : t.Represents problem) (hfeasible : t.IsFeasible) :
    problem.IsFeasible t.basicValue :=
  StandardForm.isFeasible_of_isSolvedBy ((h.isSolvedBy_iff _).mp h.isSolvedBy_basicValue)
    fun j _ => h.hasShape.basicValue_nonneg hfeasible j

/-- What both rules promise of a pivot when there is no tolerance: it is admissible, and it passes
no row. -/
structure IsExact (n m : Nat) (t : Tableau F) (row column : Nat) : Prop
    extends t.IsAdmissible n m row column where
  /-- the relative cost of the entering variable is negative -/
  cost_neg : t.relativeCost column < 0
  /-- the pivot element is positive -/
  entry_pos : 0 < t.entry row column
  /-- the row has the least ratio of those with a positive entry -/
  ratio_le : ∀ i < m, 0 < t.entry i column → t.ratio row column ≤ t.ratio i column

/-- An admissible pivot is exact when it passes no row. -/
theorem IsAdmissible.isExact (hpivot : t.IsAdmissible n m row column) (heps : 0 ≤ t.eps)
    (hleast : ∀ i < m, 0 < t.entry i column → t.ratio row column ≤ t.ratio i column) :
    t.IsExact n m row column where
  toIsAdmissible := hpivot
  cost_neg := hpivot.cost_lt.trans_le (neg_nonpos.mpr heps)
  entry_pos := hpivot.entry_pos heps
  ratio_le := hleast

/-- The two choices of a rule make an exact pivot when there is no tolerance. -/
theorem HasShape.isExact (h : t.HasShape n m) (heps : t.eps = 0)
    {entering : Entering F} (hentering : rule.entering? t = some entering)
    (hrow : rule.leavingRow? t entering.column = some row) :
    t.IsExact n m row entering.column :=
  (h.isAdmissible hentering hrow).isExact heps.symm.le fun _ hi hpos =>
    (h.ratio_le_of_leavingRow? heps hrow hi hpos).1

/-- The ratio of a feasible tableau is not negative. -/
theorem IsExact.ratio_nonneg (hpivot : t.IsExact n m row column) (h : t.HasShape n m)
    (hfeasible : t.IsFeasible) : 0 ≤ t.ratio row column :=
  div_nonneg (hfeasible row (h.rowCount_eq.symm ▸ hpivot.row_lt)) hpivot.entry_pos.le

/-- No variable becomes negative on the way to the least ratio. -/
theorem IsExact.along_nonneg (hpivot : t.IsExact n m row column) (h : t.HasShape n m)
    (hfeasible : t.IsFeasible) (j : Nat) : 0 ≤ t.along column (t.ratio row column) j := by
  have hratio := hpivot.ratio_nonneg h hfeasible
  by_cases hbasic : j ∈ t.basis
  · obtain ⟨i, hi, rfl⟩ := h.exists_basicColumn hbasic
    have hvalue := hfeasible i (h.rowCount_eq.symm ▸ hi)
    rw [along, h.basicValue_basicColumn hi, h.direction_basicColumn hpivot.not_mem hi, mul_neg,
      ← sub_eq_add_neg, sub_nonneg]
    rcases lt_or_ge 0 (t.entry i column) with hpos | hneg
    · -- a row that limits the variable is not passed
      have hle := hpivot.ratio_le i hi hpos
      rwa [ratio.eq_1 t i, le_div_iff₀ hpos] at hle
    · -- a row that does not limit it moves away from zero
      exact (mul_nonpos_of_nonneg_of_nonpos hratio hneg).trans hvalue
  · rw [along, basicValue_of_not_mem hbasic, zero_add]
    by_cases hj : j = column
    · rw [hj, direction_self hpivot.not_mem, mul_one]
      exact hratio
    · rw [direction_of_not_mem hj hbasic, mul_zero]

/-- **A pivot keeps the tableau feasible.** -/
theorem Represents.isFeasible_pivot (h : t.Represents problem) (hfeasible : t.IsFeasible)
    (hpivot : t.IsExact problem.variableCount problem.constraintCount row column) :
    (t.pivot row column).IsFeasible := by
  have hshape := hpivot.hasShape_pivot h.hasShape
  intro i hi
  rw [hshape.rowCount_eq] at hi
  rw [← hshape.basicValue_basicColumn hi, h.basicValue_pivot hpivot.row_lt hpivot.column_lt
    hpivot.not_mem hpivot.entry_pos.ne' _ (hshape.basicColumn_lt hi)]
  exact hpivot.along_nonneg h.hasShape hfeasible _

/-- A pivot does not make the objective value fall. -/
theorem Represents.objectiveValue_le_pivot (h : t.Represents problem) (hfeasible : t.IsFeasible)
    (hpivot : t.IsExact problem.variableCount problem.constraintCount row column) :
    t.objectiveValue ≤ (t.pivot row column).objectiveValue := by
  rw [h.objectiveValue_pivot hpivot.row_lt hpivot.column_lt hpivot.not_mem hpivot.entry_pos.ne']
  have hgain : t.ratio row column * t.relativeCost column ≤ 0 :=
    mul_nonpos_of_nonneg_of_nonpos (hpivot.ratio_nonneg h.hasShape hfeasible) hpivot.cost_neg.le
  linarith

/-- **The objective value grows exactly when the leaving variable was positive.** -/
theorem Represents.objectiveValue_lt_pivot_iff (h : t.Represents problem)
    (hpivot : t.IsExact problem.variableCount problem.constraintCount row column) :
    t.objectiveValue < (t.pivot row column).objectiveValue ↔ 0 < t.constraintValue row := by
  rw [h.objectiveValue_pivot hpivot.row_lt hpivot.column_lt hpivot.not_mem hpivot.entry_pos.ne',
    lt_sub_iff_add_lt, add_lt_iff_neg_left, ← div_pos_iff_of_pos_right hpivot.entry_pos]
  constructor
  · exact fun hgain => pos_of_mul_neg_left hgain hpivot.cost_neg.le
  · exact fun hratio => mul_neg_of_pos_of_neg hratio hpivot.cost_neg

omit [IsStrictOrderedRing F] in
/-- The first tableau of a well-formed problem is feasible. -/
theorem isFeasible_initial (h : problem.IsWellFormed) {eps : F} :
    (initial problem eps).IsFeasible := by
  intro i hi
  rw [(hasShape_initial h).rowCount_eq] at hi
  rw [constraintValue, (hasShape_initial h).columnCount_eq, entry_initial_rhs h hi]
  exact h.bound_nonneg hi

/-- **A tableau is feasible as long as no pivot before it has passed a row.** -/
theorem isFeasible_after_of_ratio_le (h : problem.IsWellFormed) {eps : F} (heps : 0 ≤ eps)
    {k : Nat}
    (hleast : ∀ j < k, ∀ step, ((initial problem eps).after rule j).step? rule = some step →
      ∀ i < problem.constraintCount,
        0 < ((initial problem eps).after rule j).entry i step.1.column →
        ((initial problem eps).after rule j).ratio step.1.row step.1.column ≤
          ((initial problem eps).after rule j).ratio i step.1.column) :
    ((initial problem eps).after rule k).IsFeasible := by
  -- not by `after_induction`: that a pivot passes no row is assumed for the pivots of this run only
  induction k with
  | zero => exact isFeasible_initial h
  | succ k ih =>
    have hfeasible := ih fun j hj => hleast j (Nat.lt_succ_of_lt hj)
    have ht := represents_after h heps rule k
    have hteps : 0 ≤ ((initial problem eps).after rule k).eps := by
      rw [eps_after]
      exact heps
    rw [after_succ]
    rcases hstep : ((initial problem eps).after rule k).step? rule with - | step
    · rw [next, hstep]
      exact hfeasible
    · have hratio := hleast k (Nat.lt_succ_self k) step hstep
      rw [next_of_step? hstep]
      obtain ⟨row, column, hpivot, rfl⟩ := ht.hasShape.of_step? hstep
      exact ht.isFeasible_pivot hfeasible (hpivot.isExact hteps hratio)

/-- **Without a tolerance every tableau of a run is feasible.** -/
theorem isFeasible_after (h : problem.IsWellFormed) (rule : PivotRule) (k : Nat) :
    ((initial problem (0 : F)).after rule k).IsFeasible := by
  refine isFeasible_after_of_ratio_le h (le_refl 0) fun j _ step hstep i hi hpos => ?_
  have ht := represents_after h (le_refl (0 : F)) rule j
  obtain ⟨entering, row, -, hrow, rfl⟩ := step?_eq_some_iff.mp hstep
  exact (ht.hasShape.ratio_le_of_leavingRow? (eps_after rule j _) hrow hi hpos).1

end Feasibility

end Tableau

end PrimalSimplex
