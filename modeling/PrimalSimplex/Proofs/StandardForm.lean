import Mathlib.Algebra.BigOperators.Ring.Finset
import Mathlib.Algebra.Field.Rat
import Mathlib.Algebra.Order.Field.Basic
import Mathlib.Algebra.Order.Ring.Rat
import Mathlib.Tactic.Linarith
import Mathlib.Tactic.Ring
import PrimalSimplex.StandardForm

/-!
# Problems as systems of inequalities

A problem is stored as lists, and a constructor has checked their lengths and signs
(`StandardForm.IsWellFormed`). The theory of the method is about the inequalities that these lists
stand for: `c`, `A` and `b` are read by indices, a *point* gives a value to each index, and

* `StandardForm.objectiveAt` is `c x`,
* `StandardForm.IsFeasible` says that `x ≥ 0` and `A x ≤ b`,
* `StandardForm.IsSolvedBy` says that `A x + s = b` for the point `(x, s)` which has the slacks
  after the decision variables.

Points are functions on all indices; the values beyond the variables of a problem play no role.
Feasible points and solutions without negative values are the same thing, up to the slacks
(`StandardForm.IsFeasible.withSlacks_nonneg`, `StandardForm.isFeasible_of_isSolvedBy`).
-/

namespace PrimalSimplex

namespace StandardForm

variable {F : Type}

/-! ## What the constructors check -/

/-- All rows are as wide as the objective function, and the origin satisfies them. -/
structure IsWellFormed [Zero F] [LE F] (problem : StandardForm F) : Prop where
  /-- all rows are as wide as the objective function -/
  width : ∀ row ∈ problem.constraints, row.variableCount = problem.variableCount
  /-- no right hand side is negative -/
  feasibleAtOrigin : ∀ row ∈ problem.constraints, row.FeasibleAtOrigin

instance [Zero F] [LE F] [DecidableLE F] (problem : StandardForm F) :
    Decidable problem.IsWellFormed :=
  decidable_of_iff
    ((∀ row ∈ problem.constraints, row.variableCount = problem.variableCount) ∧
      ∀ row ∈ problem.constraints, row.FeasibleAtOrigin)
    ⟨fun h => ⟨h.1, h.2⟩, fun h => ⟨h.width, h.feasibleAtOrigin⟩⟩

section Checks

variable [Zero F] [LE F] [DecidableLE F] [Finiteness F] [Numeral F]

omit [Zero F] [LE F] [DecidableLE F] [Finiteness F] [Numeral F] in
/-- Every row is met when the rows are gone through with their numbers. -/
theorem exists_mem_zipIdx {problem : StandardForm F} {row : Row F}
    (h : row ∈ problem.constraints) : ∃ i, (row, i) ∈ problem.constraints.zipIdx := by
  obtain ⟨i, hi⟩ := List.mem_iff_getElem?.mp h
  exact ⟨i, List.mk_mem_zipIdx_iff_getElem?.mpr hi⟩

/-- A problem without a fault is well-formed. -/
theorem isWellFormed_of_fault?_eq_none {problem : StandardForm F} (h : problem.fault? = none) :
    problem.IsWellFormed := by
  simp only [fault?] at h
  split at h
  · cases h
  split at h
  · cases h
  -- only where both searches find nothing is there no fault
  split at h
  · cases h
  · rename_i hwidth
    split at h
    · cases h
    · rename_i hfeasible
      constructor
      · intro row hrow
        obtain ⟨i, hi⟩ := exists_mem_zipIdx hrow
        simpa using List.find?_eq_none.mp hwidth _ hi
      · intro row hrow
        obtain ⟨i, hi⟩ := exists_mem_zipIdx hrow
        simpa using List.find?_eq_none.mp hfeasible _ hi

/-- A problem has no fault when it has variables and constraints, is well-formed, and its numbers
are finite. -/
theorem IsWellFormed.fault?_eq_none {problem : StandardForm F} (h : problem.IsWellFormed)
    (hobjective : problem.objective ≠ []) (hconstraints : problem.constraints ≠ [])
    (hfinite : ∀ value ∈ problem.numbers, isFinite value = true) : problem.fault? = none := by
  simp only [fault?, List.isEmpty_iff, hobjective, hconstraints, if_false]
  split
  · rename_i row i hfound
    have hwidth := h.width row (List.fst_mem_of_mem_zipIdx (List.mem_of_find?_eq_some hfound))
    have hother := List.find?_some hfound
    simp [hwidth] at hother
  · split
    · rename_i row i hfound
      have hfeasible :=
        h.feasibleAtOrigin row (List.fst_mem_of_mem_zipIdx (List.mem_of_find?_eq_some hfound))
      have hother := List.find?_some hfound
      simp [hfeasible] at hother
    · rw [if_pos (List.all_eq_true.mpr hfinite)]

/-- **What is built from rows is well-formed.** -/
theorem isWellFormed_of_ofRows {objective : List F} {rows : List (Row F)}
    {problem : StandardForm F} (h : ofRows objective rows = .ok problem) :
    problem.IsWellFormed := by
  rcases hfault : (⟨objective, rows⟩ : StandardForm F).fault? with - | fault
  · simp only [ofRows, hfault, Except.ok.injEq] at h
    rw [← h]
    exact isWellFormed_of_fault?_eq_none hfault
  · simp [ofRows, hfault] at h

/-- What is built from a matrix is well-formed: the right hand sides that the tolerance lets through
have become zero. -/
theorem isWellFormed_of_ofMatrix [Neg F] [LT F] [DecidableLT F] {c b : List F} {a : List (List F)}
    {eps : F} {problem : StandardForm F} (h : ofMatrix c a b eps = .ok problem) :
    problem.IsWellFormed := by
  unfold ofMatrix at h
  split at h
  · cases h
  · exact isWellFormed_of_ofRows h

end Checks

/-! ## Reading by indices -/

section Views

variable [Zero F]

/-- The coefficient of a variable in the objective function. -/
def cost (problem : StandardForm F) (j : Nat) : F := problem.objective.getD j 0

/-- The coefficient of a variable in a row. -/
def coefficient (problem : StandardForm F) (i j : Nat) : F :=
  ((problem.constraints.map Row.coefficients).getD i []).getD j 0

/-- The right hand side of a row. -/
def bound (problem : StandardForm F) (i : Nat) : F := (problem.constraints.map Row.rhs).getD i 0

theorem coefficient_of_lt (problem : StandardForm F) {i : Nat}
    (hi : i < problem.constraints.length) (j : Nat) :
    problem.coefficient i j = problem.constraints[i].coefficients.getD j 0 := by
  simp [coefficient, hi]

theorem bound_of_lt (problem : StandardForm F) {i : Nat} (hi : i < problem.constraints.length) :
    problem.bound i = problem.constraints[i].rhs := by
  simp [bound, hi]

/-- No right hand side of a well-formed problem is negative. -/
theorem IsWellFormed.bound_nonneg [LE F] {problem : StandardForm F} (h : problem.IsWellFormed)
    {i : Nat} (hi : i < problem.constraintCount) : 0 ≤ problem.bound i := by
  rw [bound_of_lt problem hi]
  exact h.feasibleAtOrigin _ (List.getElem_mem hi)

end Views

/-! ## Points -/

section Points

variable [Field F]

/-- The point with the listed values. -/
def point (values : List F) (j : Nat) : F := values.getD j 0

/-- The value of the objective function at a point. -/
def objectiveAt (problem : StandardForm F) (x : Nat → F) : F :=
  ∑ j ∈ Finset.range problem.variableCount, problem.cost j * x j

/-- The value of the left hand side of a row at a point. -/
def rowAt (problem : StandardForm F) (i : Nat) (x : Nat → F) : F :=
  ∑ j ∈ Finset.range problem.variableCount, problem.coefficient i j * x j

/-- What a row leaves to its right hand side at a point. -/
def slackAt (problem : StandardForm F) (i : Nat) (x : Nat → F) : F :=
  problem.bound i - problem.rowAt i x

/-- The point satisfies all rows and has no negative value. -/
structure IsFeasible [LE F] (problem : StandardForm F) (x : Nat → F) : Prop where
  /-- no variable is negative -/
  nonneg : ∀ j < problem.variableCount, 0 ≤ x j
  /-- every row is satisfied -/
  rowAt_le : ∀ i < problem.constraintCount, problem.rowAt i x ≤ problem.bound i

/-- The point, which has the slacks after the decision variables, satisfies all rows as
equations. -/
def IsSolvedBy (problem : StandardForm F) (v : Nat → F) : Prop :=
  ∀ i < problem.constraintCount, problem.rowAt i v + v (problem.variableCount + i) = problem.bound i

/-- A point together with the slacks that it leaves. -/
def withSlacks (problem : StandardForm F) (x : Nat → F) (j : Nat) : F :=
  if j < problem.variableCount then x j else problem.slackAt (j - problem.variableCount) x

variable {problem : StandardForm F} {x y : Nat → F}

/-- Only the decision variables matter to the objective function. -/
theorem objectiveAt_congr (h : ∀ j < problem.variableCount, x j = y j) :
    problem.objectiveAt x = problem.objectiveAt y := by
  refine Finset.sum_congr rfl fun j hj => ?_
  rw [h j (Finset.mem_range.mp hj)]

/-- Only the decision variables matter to a row. -/
theorem rowAt_congr (i : Nat) (h : ∀ j < problem.variableCount, x j = y j) :
    problem.rowAt i x = problem.rowAt i y := by
  refine Finset.sum_congr rfl fun j hj => ?_
  rw [h j (Finset.mem_range.mp hj)]

/-- The objective function along a line. -/
theorem objectiveAt_add_mul (x d : Nat → F) (step : F) :
    problem.objectiveAt (fun j => x j + step * d j) =
      problem.objectiveAt x + step * problem.objectiveAt d := by
  simp only [objectiveAt, Finset.mul_sum, ← Finset.sum_add_distrib]
  refine Finset.sum_congr rfl fun j _ => ?_
  ring

/-- A row along a line. -/
theorem rowAt_add_mul (i : Nat) (x d : Nat → F) (step : F) :
    problem.rowAt i (fun j => x j + step * d j) =
      problem.rowAt i x + step * problem.rowAt i d := by
  simp only [rowAt, Finset.mul_sum, ← Finset.sum_add_distrib]
  refine Finset.sum_congr rfl fun j _ => ?_
  ring

theorem withSlacks_decision {j : Nat} (hj : j < problem.variableCount) :
    problem.withSlacks x j = x j := if_pos hj

theorem withSlacks_slack (i : Nat) :
    problem.withSlacks x (problem.variableCount + i) = problem.slackAt i x := by
  rw [withSlacks, if_neg (by omega), Nat.add_sub_cancel_left]

/-- The slacks of a point turn the rows into equations. -/
theorem isSolvedBy_withSlacks (x : Nat → F) : problem.IsSolvedBy (problem.withSlacks x) := by
  intro i hi
  rw [withSlacks_slack, rowAt_congr (y := x) i fun j hj => withSlacks_decision hj, slackAt]
  ring

/-- The sum of all values of a point and its slacks. -/
theorem sum_withSlacks (x : Nat → F) :
    ∑ j ∈ Finset.range (problem.variableCount + problem.constraintCount), problem.withSlacks x j =
      ∑ j ∈ Finset.range problem.variableCount, x j +
        ∑ i ∈ Finset.range problem.constraintCount, problem.slackAt i x := by
  rw [Finset.sum_range_add]
  congr 1
  · exact Finset.sum_congr rfl fun j hj => withSlacks_decision (Finset.mem_range.mp hj)
  · exact Finset.sum_congr rfl fun i _ => withSlacks_slack i

variable [LinearOrder F] [IsStrictOrderedRing F]

omit [IsStrictOrderedRing F] in
/-- Feasibility depends on the decision variables only. -/
theorem IsFeasible.congr (h : problem.IsFeasible x) (heq : ∀ j < problem.variableCount, x j = y j) :
    problem.IsFeasible y := by
  constructor
  · intro j hj
    rw [← heq j hj]
    exact h.nonneg j hj
  · intro i hi
    rw [← rowAt_congr i heq]
    exact h.rowAt_le i hi

/-- The slacks of a feasible point are not negative. -/
theorem IsFeasible.withSlacks_nonneg (h : problem.IsFeasible x) {j : Nat}
    (hj : j < problem.variableCount + problem.constraintCount) : 0 ≤ problem.withSlacks x j := by
  unfold withSlacks
  split
  · rename_i hdecision
    exact h.nonneg j hdecision
  · exact sub_nonneg.mpr (h.rowAt_le _ (by omega))

/-- A solution of the equations without negative values is a feasible point. -/
theorem isFeasible_of_isSolvedBy {v : Nat → F} (h : problem.IsSolvedBy v)
    (hnonneg : ∀ j < problem.variableCount + problem.constraintCount, 0 ≤ v j) :
    problem.IsFeasible v := by
  constructor
  · intro j hj
    exact hnonneg j (by omega)
  · intro i hi
    have hslack := hnonneg (problem.variableCount + i) (by omega)
    rw [← h i hi]
    exact le_add_of_nonneg_right hslack

/-- The objective value exceeds every bound along a direction in which it grows. -/
theorem exists_lt_objectiveAt {d : Nat → F} (hgain : 0 < problem.objectiveAt d) (x : Nat → F)
    (bound : F) : ∃ step, 0 ≤ step ∧ bound < problem.objectiveAt fun j => x j + step * d j := by
  refine ⟨max 0 ((bound - problem.objectiveAt x) / problem.objectiveAt d) + 1, ?_, ?_⟩
  · exact add_nonneg (le_max_left _ _) zero_le_one
  · have hle := le_max_right 0 ((bound - problem.objectiveAt x) / problem.objectiveAt d)
    rw [div_le_iff₀ hgain] at hle
    rw [objectiveAt_add_mul, add_mul, one_mul]
    linarith

end Points

/-! ## An exact number type

The rationals are an ordered field, and they are the number type of the problems that show the
theorems at work. -/

/-- The text of a rational number. -/
def rationalText (value : ℚ) : String :=
  if value.den = 1 then toString value.num else toString value.num ++ "/" ++ toString value.den

instance : Finiteness ℚ := ⟨fun _ => true⟩

/-- Rational numbers are read and written exactly, also where a number of decimals is asked for. -/
instance : Numeral ℚ where
  ofDecimal d := d.digits * 10 ^ d.exponent
  text := rationalText
  fixed _ := rationalText

/-- A degenerate problem. Two right hand sides are zero, so pivots may leave the basic solution
where it is: with Dantzig's rule they go on like that forever. -/
def degenerate : StandardForm ℚ where
  objective := [10, -57, -9, -24]
  constraints := [⟨[1 / 2, -11 / 2, -5 / 2, 9], 0⟩, ⟨[1 / 2, -3 / 2, -1 / 2, 1], 0⟩,
    ⟨[1, 0, 0, 0], 1⟩]

/-- An unbounded problem: both variables can grow together. -/
def diagonal : StandardForm ℚ where
  objective := [1, 0]
  constraints := [⟨[1, -1], 1⟩]

end StandardForm

end PrimalSimplex
