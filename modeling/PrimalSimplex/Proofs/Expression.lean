import Mathlib.Algebra.BigOperators.Ring.Finset
import Mathlib.Algebra.Order.Field.Basic
import Mathlib.Data.List.GetD
import Mathlib.Tactic.Ring
import PrimalSimplex.Expression

/-!
# What the terms of an expression add up to

Terms are added one by one into a list of coefficients that grows on demand. Through `getD` that
list has no length: an entry that is not there counts as zero, and adding a term changes one entry
(`getD_addAt`). So each coefficient is the sum of the terms in its variable, from left to right and
starting from zero (`LinearExpression.getD_ofTerms`). No law of arithmetic is needed for that, and
with rounding the order of the additions matters.

In a field it does not. There an expression has a value at a point, and the value of a sum of terms
is the sum of their values (`LinearExpression.valueAt_ofTerms`).
-/

namespace PrimalSimplex

/-- A sum from left to right, starting from zero. -/
def leftSum {F : Type} [Zero F] [Add F] (values : List F) : F := values.foldl (· + ·) 0

/-- A maximum is at least what it is taken of. -/
theorem le_foldl_max (values : List Nat) (start : Nat) :
    start ≤ values.foldl max start ∧ ∀ value ∈ values, value ≤ values.foldl max start := by
  induction values generalizing start with
  | nil => simp
  | cons value values ih =>
    obtain ⟨hstart, hvalues⟩ := ih (max start value)
    refine ⟨le_trans (Nat.le_max_left _ _) hstart, ?_⟩
    exact List.forall_mem_cons.mpr ⟨le_trans (Nat.le_max_right _ _) hstart, hvalues⟩

section Coefficients

variable {F : Type} [Zero F] [Add F]

/-- Adding to an entry changes that entry. -/
theorem getD_addAt (value : F) (j k : Nat) (coefficients : List F) :
    (addAt value j coefficients).getD k 0 =
      if k = j then coefficients.getD k 0 + value else coefficients.getD k 0 := by
  induction j generalizing k coefficients with
  | zero => cases coefficients <;> cases k <;> simp [addAt]
  | succ j ih =>
    cases coefficients with
    | nil =>
      cases k with
      | zero => simp [addAt]
      | succ k =>
        simp only [addAt, List.getD_cons_succ, ih, Nat.succ_inj]
        simp
    | cons c cs =>
      cases k with
      | zero => simp [addAt]
      | succ k => simp only [addAt, List.getD_cons_succ, ih, Nat.succ_inj]

omit [Add F] in
/-- The zeros of a padded list are those that `getD` sees anyway. -/
theorem getD_padTo (n : Nat) (coefficients : List F) (j : Nat) :
    (padTo n coefficients).getD j 0 = coefficients.getD j 0 := by
  rw [padTo]
  rcases Nat.lt_or_ge j coefficients.length with hj | hj
  · rw [List.getD_append _ _ _ _ hj]
  · rw [List.getD_append_right _ _ _ _ hj, List.getD_eq_default _ _ hj,
      List.getD_eq_getElem?_getD, List.getElem?_replicate]
    split <;> rfl

omit [Add F] in
/-- A list that is long enough is not padded. -/
theorem padTo_of_length_le {n : Nat} {coefficients : List F} (h : n ≤ coefficients.length) :
    padTo n coefficients = coefficients := by
  rw [padTo, Nat.sub_eq_zero_of_le h, List.replicate_zero, List.append_nil]

end Coefficients

namespace LinearExpression

/-! ## Sums from left to right -/

section Sums

variable {F : Type} [Zero F] [One F] [Add F] [Neg F] [Numeral F]

/-- A coefficient after one more term. -/
theorem getD_add (e : LinearExpression F) (term : Term) (j : Nat) :
    (e.add term).coefficients.getD j 0 =
      if term.index = some j then e.coefficients.getD j 0 + term.value
      else e.coefficients.getD j 0 := by
  rcases hindex : term.index with - | k
  · rw [add, hindex, if_neg (Option.some_ne_none j).symm]
  · rw [add, hindex, getD_addAt]
    exact if_congr (by rw [Option.some.injEq, eq_comm]) rfl rfl

/-- A coefficient after more terms. -/
theorem getD_foldl_add (terms : List Term) (e : LinearExpression F) (j : Nat) :
    (terms.foldl add e).coefficients.getD j 0 =
      ((terms.filter (·.index = some j)).map Term.value).foldl (· + ·)
        (e.coefficients.getD j 0) := by
  induction terms generalizing e with
  | nil => rfl
  | cons term terms ih =>
    rw [List.foldl_cons, ih, getD_add]
    by_cases hindex : term.index = some j
    · rw [if_pos hindex, List.filter_cons_of_pos (by simpa using hindex)]
      rfl
    · rw [if_neg hindex, List.filter_cons_of_neg (by simpa using hindex)]

/-- The constant after more terms. -/
theorem constant_foldl_add (terms : List Term) (e : LinearExpression F) :
    (terms.foldl add e).constant =
      ((terms.filter (·.index = none)).map Term.value).foldl (· + ·) e.constant := by
  induction terms generalizing e with
  | nil => rfl
  | cons term terms ih =>
    rw [List.foldl_cons, ih]
    rcases hindex : term.index with - | k <;> simp [add, hindex]

/-- The number of variables after more terms. -/
theorem length_foldl_add (terms : List Term) (e : LinearExpression F) :
    (terms.foldl add e).coefficients.length =
      (terms.filterMap fun term => term.index.map (· + 1)).foldl max e.coefficients.length := by
  induction terms generalizing e with
  | nil => rfl
  | cons term terms ih =>
    rw [List.foldl_cons, ih]
    rcases hindex : term.index with - | k
    · simp [add, hindex]
    · simp [add, hindex, length_addAt]

/-- **A coefficient is the sum of the terms in its variable**, from left to right. -/
theorem getD_ofTerms (terms : List Term) (j : Nat) :
    (ofTerms terms : LinearExpression F).coefficients.getD j 0 =
      leftSum ((terms.filter (·.index = some j)).map Term.value) :=
  getD_foldl_add terms ⟨[], 0⟩ j

/-- The constant is the sum of the terms without a variable, from left to right. -/
theorem constant_ofTerms (terms : List Term) :
    (ofTerms terms : LinearExpression F).constant =
      leftSum ((terms.filter (·.index = none)).map Term.value) :=
  constant_foldl_add terms ⟨[], 0⟩

/-- There are as many coefficients as the largest subscript says. -/
theorem length_ofTerms (terms : List Term) :
    (ofTerms terms : LinearExpression F).coefficients.length =
      (terms.filterMap fun term => term.index.map (· + 1)).foldl max 0 :=
  length_foldl_add terms ⟨[], 0⟩

end Sums

end LinearExpression

/-! ## Values in a field -/

section Values

variable {F : Type} [Field F]

/-- The sum of the coefficients times the values of their variables. -/
def weightedSum (coefficients : List F) (x : Nat → F) : F :=
  ∑ j ∈ Finset.range coefficients.length, coefficients.getD j 0 * x j

/-- More variables than there are coefficients do not matter. -/
theorem weightedSum_eq_sum_range {coefficients : List F} {n : Nat} (h : coefficients.length ≤ n)
    (x : Nat → F) :
    weightedSum coefficients x = ∑ j ∈ Finset.range n, coefficients.getD j 0 * x j := by
  refine Finset.sum_subset (Finset.range_subset_range.mpr h) fun j _ hj => ?_
  rw [List.getD_eq_default _ _ (Nat.le_of_not_lt fun hlt => hj (Finset.mem_range.mpr hlt)),
    zero_mul]

theorem weightedSum_addAt (value : F) (j : Nat) (coefficients : List F) (x : Nat → F) :
    weightedSum (addAt value j coefficients) x = weightedSum coefficients x + value * x j := by
  have hsplit : ∀ k, (addAt value j coefficients).getD k 0 * x k =
      coefficients.getD k 0 * x k + if k = j then value * x k else 0 := by
    intro k
    rw [getD_addAt]
    split <;> ring
  have hlength := length_addAt value j coefficients
  have hj : j ∈ Finset.range (addAt value j coefficients).length :=
    Finset.mem_range.mpr (by omega)
  rw [weightedSum, Finset.sum_congr rfl fun k _ => hsplit k, Finset.sum_add_distrib,
    ← weightedSum_eq_sum_range (by omega), Finset.sum_ite_eq', if_pos hj]

/-- The value of an expression at a point. -/
def LinearExpression.valueAt (e : LinearExpression F) (x : Nat → F) : F :=
  weightedSum e.coefficients x + e.constant

variable [Numeral F]

/-- The value of a term at a point. -/
def Term.valueAt (term : Term) (x : Nat → F) : F := term.value * term.index.elim 1 x

theorem LinearExpression.valueAt_add (e : LinearExpression F) (term : Term) (x : Nat → F) :
    (e.add term).valueAt x = e.valueAt x + term.valueAt x := by
  rcases hindex : term.index with - | j
  · simp only [add, valueAt, Term.valueAt, hindex, Option.elim_none]
    ring
  · simp only [add, valueAt, Term.valueAt, hindex, Option.elim_some, weightedSum_addAt]
    ring

theorem LinearExpression.valueAt_foldl_add (terms : List Term) (e : LinearExpression F)
    (x : Nat → F) :
    (terms.foldl add e).valueAt x = e.valueAt x + (terms.map (·.valueAt x)).sum := by
  induction terms generalizing e with
  | nil => simp
  | cons term terms ih =>
    rw [List.foldl_cons, ih, valueAt_add, List.map_cons, List.sum_cons, add_assoc]

/-- **The value of an expression is the sum of the values of its terms.** -/
theorem LinearExpression.valueAt_ofTerms (terms : List Term) (x : Nat → F) :
    (ofTerms terms : LinearExpression F).valueAt x = (terms.map (·.valueAt x)).sum := by
  rw [ofTerms, valueAt_foldl_add]
  simp [valueAt, weightedSum]

end Values

end PrimalSimplex
