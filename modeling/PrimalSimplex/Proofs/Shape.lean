import Mathlib.Data.List.GetD
import Mathlib.Data.List.Nodup
import PrimalSimplex.Proofs.StandardForm
import PrimalSimplex.Tableau

/-!
# The shape of a tableau

Rows are plain lists and a basis is a list of numbers, so nothing in the type of a tableau says that
an entry exists. `Tableau.HasShape` does: `m + 1` rows of `n + m + 1` values, and a basis of `m`
different columns. The tableau of a problem has a shape (`Tableau.hasShape_initial`), and a pivot
keeps it when the entering column is not basic (`Tableau.HasShape.pivot`).

On a tableau with a shape, `entry` reads what is there, never its default. This module says what
it reads in the first tableau and after a pivot; later modules see rows through `entry` alone.

Nothing is assumed about the arithmetic. In particular a pivot leaves a row alone when its entry in
the column *tests* equal to zero, which is all that can be said here.
-/

namespace PrimalSimplex

namespace Tableau

variable {F : Type} {t : Tableau F} {n m : Nat}

/-- The tableau has the shape of one for `n` decision variables and `m` constraints. -/
structure HasShape (n m : Nat) (t : Tableau F) : Prop where
  /-- the number of decision variables -/
  decisionCount_eq : t.decisionCount = n
  /-- every constraint row has a basic variable -/
  length_basis : t.basis.length = m
  /-- the constraint rows and the objective row -/
  length_rows : t.rows.length = m + 1
  /-- a value for each variable, and the right hand side -/
  length_row : ∀ row ∈ t.rows, row.length = n + m + 1
  /-- the basic variables are variables -/
  basis_lt : ∀ column ∈ t.basis, column < n + m
  /-- no variable is basic in two rows -/
  basis_nodup : t.basis.Nodup

namespace HasShape

theorem rowCount_eq (h : t.HasShape n m) : t.rowCount = m := h.length_basis

theorem columnCount_eq (h : t.HasShape n m) : t.columnCount = n + m := by
  rw [columnCount, h.decisionCount_eq, h.rowCount_eq]

/-- The right hand sides are in the last column. -/
theorem constraintValue_eq [Zero F] (h : t.HasShape n m) (i : Nat) :
    t.constraintValue i = t.entry i (n + m) := by
  rw [constraintValue, h.columnCount_eq]

theorem length_getD (h : t.HasShape n m) {i : Nat} (hi : i ≤ m) :
    (t.rows.getD i []).length = n + m + 1 := by
  have hlt : i < t.rows.length := by
    rw [h.length_rows]
    omega
  rw [List.getD_eq_getElem _ _ hlt]
  exact h.length_row _ (List.getElem_mem hlt)

end HasShape

/-! ## The basis -/

section Basis

theorem HasShape.basicColumn_eq (h : t.HasShape n m) {i : Nat} (hi : i < m) :
    t.basis[i]? = some (t.basicColumn i) := by
  have hlt : i < t.basis.length := h.length_basis.symm ▸ hi
  rw [basicColumn, List.getD_eq_getElem _ _ hlt, List.getElem?_eq_getElem hlt]

/-- The basic variable of a row is basic. -/
theorem HasShape.basicColumn_mem (h : t.HasShape n m) {i : Nat} (hi : i < m) :
    t.basicColumn i ∈ t.basis :=
  List.mem_of_getElem? (h.basicColumn_eq hi)

theorem HasShape.basicColumn_lt (h : t.HasShape n m) {i : Nat} (hi : i < m) :
    t.basicColumn i < n + m :=
  h.basis_lt _ (h.basicColumn_mem hi)

/-- A basic variable is that of some row. -/
theorem HasShape.exists_basicColumn (h : t.HasShape n m) {column : Nat}
    (hmem : column ∈ t.basis) : ∃ i < m, t.basicColumn i = column := by
  obtain ⟨i, hi, rfl⟩ := List.getElem_of_mem hmem
  refine ⟨i, h.length_basis ▸ hi, ?_⟩
  rw [basicColumn, List.getD_eq_getElem _ _ hi]

/-- Different rows have different basic variables. -/
theorem HasShape.basicColumn_inj (h : t.HasShape n m) {i k : Nat} (hi : i < m) (hk : k < m)
    (heq : t.basicColumn i = t.basicColumn k) : i = k := by
  have hlt : i < t.basis.length := h.length_basis.symm ▸ hi
  refine (List.getElem?_inj hlt h.basis_nodup).mp ?_
  rw [h.basicColumn_eq hi, h.basicColumn_eq hk, heq]

theorem isBasic_iff {column : Nat} : t.isBasic column = true ↔ column ∈ t.basis := by
  simp [isBasic]

end Basis

/-! ## The first tableau -/

section Initial

variable [Zero F] [One F] [Neg F] {problem : StandardForm F} {eps : F}

/-- The row of a constraint in the first tableau. -/
theorem rows_initial {i : Nat} (hi : i < problem.constraints.length) :
    (initial problem eps).rows.getD i [] =
      problem.constraints[i].coefficients ++ slackCoefficients problem.constraintCount i ++
        [problem.constraints[i].rhs] := by
  rw [initial, List.getD_append _ _ _ _ (by simpa using hi),
    List.getD_eq_getElem _ _ (by simpa using hi), List.getElem_mapIdx]

/-- The objective row of the first tableau. -/
theorem objectiveRow_initial :
    (initial problem eps).rows.getD problem.constraintCount [] =
      problem.objective.map (- ·) ++ List.replicate (problem.constraintCount + 1) 0 := by
  simp [initial, StandardForm.constraintCount]

/-- The variable of a slack column is basic in its own row. -/
theorem basicColumn_initial {i : Nat} (hi : i < problem.constraintCount) :
    (initial problem eps).basicColumn i = problem.variableCount + i := by
  simp [basicColumn, initial, hi]

variable [LE F]

/-- **The tableau of a well-formed problem has a shape.** -/
theorem hasShape_initial (h : problem.IsWellFormed) :
    (initial problem eps).HasShape problem.variableCount problem.constraintCount where
  decisionCount_eq := rfl
  length_basis := List.length_range'
  length_rows := by simp [initial, StandardForm.constraintCount]
  length_row := by
    intro row hrow
    rcases List.mem_append.mp hrow with hrow | hrow
    · obtain ⟨i, hi, rfl⟩ := List.mem_mapIdx.mp hrow
      have hwidth := h.width _ (List.getElem_mem hi)
      rw [Row.variableCount] at hwidth
      simp [slackCoefficients, hwidth, Nat.add_assoc]
    · obtain rfl := List.mem_singleton.mp hrow
      simp [StandardForm.variableCount, Nat.add_assoc]
  basis_lt := by
    intro column hcolumn
    exact (List.mem_range'_1.mp hcolumn).2
  basis_nodup := List.nodup_range'

variable (h : problem.IsWellFormed)

include h

theorem entry_initial_decision {i j : Nat} (hi : i < problem.constraintCount)
    (hj : j < problem.variableCount) :
    (initial problem eps).entry i j = problem.coefficient i j := by
  have hwidth : problem.constraints[i].coefficients.length = problem.variableCount :=
    h.width _ (List.getElem_mem hi)
  rw [entry, rows_initial hi, problem.coefficient_of_lt hi, List.append_assoc,
    List.getD_append _ _ _ _ (hwidth.symm ▸ hj)]

theorem entry_initial_slack {i k : Nat} (hi : i < problem.constraintCount)
    (hk : k < problem.constraintCount) :
    (initial problem eps).entry i (problem.variableCount + k) = if k = i then 1 else 0 := by
  have hwidth : problem.constraints[i].coefficients.length = problem.variableCount :=
    h.width _ (List.getElem_mem hi)
  rw [entry, rows_initial hi, List.append_assoc, List.getD_append_right _ _ _ _ (by omega),
    List.getD_append _ _ _ _ (by simp [slackCoefficients]; omega), hwidth,
    Nat.add_sub_cancel_left]
  simp [slackCoefficients, hk]

theorem entry_initial_rhs {i : Nat} (hi : i < problem.constraintCount) :
    (initial problem eps).entry i (problem.variableCount + problem.constraintCount) =
      problem.bound i := by
  have hwidth : problem.constraints[i].coefficients.length = problem.variableCount :=
    h.width _ (List.getElem_mem hi)
  rw [entry, rows_initial hi, problem.bound_of_lt hi,
    List.getD_append_right _ _ _ _ (by simp [slackCoefficients, hwidth])]
  simp [slackCoefficients, hwidth]

omit h [LE F]

theorem entry_initial_cost {j : Nat} (hj : j < problem.variableCount) :
    (initial problem eps).entry problem.constraintCount j = -problem.cost j := by
  rw [StandardForm.variableCount] at hj
  rw [entry, objectiveRow_initial, List.getD_append _ _ _ _ (by simpa using hj),
    StandardForm.cost]
  simp [hj]

/-- The objective row of the first tableau is zero after the decision variables. -/
theorem entry_initial_objective {j : Nat} (hj : problem.variableCount ≤ j) :
    (initial problem eps).entry problem.constraintCount j = 0 := by
  rw [StandardForm.variableCount] at hj
  rw [entry, objectiveRow_initial, List.getD_append_right _ _ _ _ (by simpa using hj)]
  simp [List.getElem?_replicate]
  split <;> rfl

end Initial

/-! ## Pivots -/

section Pivoting

variable [Zero F] [Sub F] [Mul F] [Div F] [BEq F] {row column : Nat}

/-- **A pivot keeps the shape** when the entering variable is not basic. -/
theorem HasShape.pivot (h : t.HasShape n m) (hrow : row < m) (hcolumn : column < n + m)
    (hnot : column ∉ t.basis) : (t.pivot row column).HasShape n m where
  decisionCount_eq := h.decisionCount_eq
  length_basis := by
    rw [Tableau.pivot, List.length_set]
    exact h.length_basis
  length_rows := by
    rw [Tableau.pivot, length_pivotRows]
    exact h.length_rows
  length_row := by
    intro values hvalues
    obtain ⟨i, hi, rfl⟩ := List.mem_mapIdx.mp hvalues
    have hlength := h.length_row _ (List.getElem_mem hi)
    have hpivot := h.length_getD (Nat.le_of_lt hrow)
    split
    · rw [List.length_map]
      exact hpivot
    · rw [length_eliminate]
      · exact hlength
      · rw [List.length_map, hlength, hpivot]
  basis_lt := by
    intro k hk
    rcases List.mem_or_eq_of_mem_set hk with hk | rfl
    · exact h.basis_lt k hk
    · exact hcolumn
  basis_nodup := h.basis_nodup.set hnot

/-- The basic variables after a pivot, row by row. -/
theorem HasShape.basicColumn_pivot (h : t.HasShape n m) (hrow : row < m) (i : Nat) :
    (t.pivot row column).basicColumn i = if i = row then column else t.basicColumn i := by
  have hlt : row < t.basis.length := h.length_basis.symm ▸ hrow
  rw [basicColumn, Tableau.pivot, List.getD_eq_getElem?_getD, List.getElem?_set, basicColumn,
    List.getD_eq_getElem?_getD]
  by_cases hi : row = i
  · rw [if_pos hi, if_pos hlt, if_pos hi.symm]
    rfl
  · rw [if_neg hi, if_neg (Ne.symm hi)]

/-- **The basic variables after a pivot**: one enters, one leaves, the others stay. -/
theorem HasShape.mem_basis_pivot (h : t.HasShape n m) (hrow : row < m) (hcolumn : column < n + m)
    (hnot : column ∉ t.basis) {k : Nat} :
    k ∈ (t.pivot row column).basis ↔ k = column ∨ k ∈ t.basis ∧ k ≠ t.basicColumn row := by
  have hpivot := h.pivot hrow hcolumn hnot
  constructor
  · intro hk
    obtain ⟨i, hi, rfl⟩ := hpivot.exists_basicColumn hk
    rw [h.basicColumn_pivot hrow]
    split
    · left
      rfl
    · rename_i hne
      right
      exact ⟨h.basicColumn_mem hi, fun heq => hne (h.basicColumn_inj hi hrow heq)⟩
  · rintro (rfl | ⟨hk, hne⟩)
    · have hmem := hpivot.basicColumn_mem hrow
      rwa [h.basicColumn_pivot hrow, if_pos rfl] at hmem
    · obtain ⟨i, hi, rfl⟩ := h.exists_basicColumn hk
      have hmem := hpivot.basicColumn_mem hi
      rwa [h.basicColumn_pivot hrow, if_neg fun heq => hne (congrArg t.basicColumn heq)] at hmem

/-- The rows after a pivot. -/
theorem HasShape.getD_rows_pivot (h : t.HasShape n m) {i : Nat} (hi : i ≤ m) :
    (t.pivot row column).rows.getD i [] =
      if i = row then (t.rows.getD row []).map (· / t.entry row column)
      else eliminate ((t.rows.getD row []).map (· / t.entry row column)) column
        (t.rows.getD i []) := by
  have hlt : i < t.rows.length := by
    rw [h.length_rows]
    omega
  rw [Tableau.pivot, pivotRows, List.getD_eq_getElem?_getD, List.getElem?_mapIdx,
    List.getElem?_eq_getElem hlt, List.getD_eq_getElem _ _ hlt]
  rfl

/-- The row of the pivot is divided by the pivot element. -/
theorem HasShape.entry_pivot_self (h : t.HasShape n m) (hrow : row < m) {j : Nat}
    (hj : j ≤ n + m) :
    (t.pivot row column).entry row j = t.entry row j / t.entry row column := by
  have hlt : j < (t.rows.getD row []).length := by
    rw [h.length_getD (Nat.le_of_lt hrow)]
    omega
  rw [entry, h.getD_rows_pivot (Nat.le_of_lt hrow), if_pos rfl,
    List.getD_eq_getElem _ _ (by simpa using hlt), List.getElem_map]
  rw [entry.eq_1 t row j, List.getD_eq_getElem _ _ hlt]

/-- A multiple of the pivot row is subtracted from any other row, unless the row's entry in the
column tests equal to zero. -/
theorem HasShape.entry_pivot_of_ne (h : t.HasShape n m) (hrow : row < m) {i j : Nat} (hi : i ≤ m)
    (hj : j ≤ n + m) (hne : i ≠ row) :
    (t.pivot row column).entry i j =
      if t.entry i column == 0 then t.entry i j
      else t.entry i j - t.entry i column * (t.entry row j / t.entry row column) := by
  have hlt : j < (t.rows.getD i []).length := by
    rw [h.length_getD hi]
    omega
  have hlt' : j < (t.rows.getD row []).length := by
    rw [h.length_getD (Nat.le_of_lt hrow)]
    omega
  rw [entry, h.getD_rows_pivot hi, if_neg hne]
  by_cases hzero : t.entry i column == 0
  · rw [if_pos hzero, eliminate.eq_1, ← entry.eq_1 t i column, if_pos hzero]
    rfl
  · rw [if_neg hzero, eliminate.eq_1, ← entry.eq_1 t i column, if_neg hzero,
      List.getD_eq_getElem _ _ (by simpa using ⟨hlt, hlt'⟩), List.getElem_zipWith,
      List.getElem_map]
    rw [entry.eq_1 t i j, entry.eq_1 t row j, List.getD_eq_getElem _ _ hlt,
      List.getD_eq_getElem _ _ hlt']

end Pivoting

end Tableau

end PrimalSimplex
