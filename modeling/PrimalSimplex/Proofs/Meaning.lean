import PrimalSimplex.Proofs.Constraint

/-!
# What texts mean

In a field that holds every decimal exactly (`ExactNumeral`) a text has a value at each point, which
is the sum of the values of its terms (`WrittenTerm.sumAt`), and a constraint holds there or does
not (`WrittenConstraint.HoldsAt`). Both are said of the texts alone.

By how much a point exceeds a constraint is an affine function of the point
(`WrittenConstraint.excessAt`), and the row of the constraint is this function taken apart: its
linear part on the left, and on the right what is needed to make up for its value at the origin
(`Constraint.weightedSum_toRow`, `Constraint.rhs_toRow`). So a row is satisfied where the excess is
not positive, and the origin satisfies the row when its excess is within the tolerance.
-/

namespace PrimalSimplex

/-! ## Values of texts -/

section Values

variable {F : Type} [Field F]

/-- The number that a decimal stands for. -/
def Decimal.exact (d : Decimal) : F := d.digits * 10 ^ d.exponent

/-- Number types that hold every decimal exactly. -/
class ExactNumeral (F : Type) [Field F] [Numeral F] : Prop where
  /-- a decimal is read as the number that it stands for -/
  ofDecimal_eq : ∀ d : Decimal, (ofDecimal d : F) = d.exact

instance : ExactNumeral ℚ := ⟨fun _ => rfl⟩

/-- What a sign multiplies with. -/
def Sign.factor : Sign → F
  | .plus => 1
  | .minus => -1

namespace WrittenTerm

/-- The value of a written term at a point. A missing number and a missing variable count as one. -/
def valueAt (term : WrittenTerm) (x : Nat → F) : F :=
  term.sign.factor * term.literal.elim 1 (fun literal => (Decimal.denoted literal).exact) *
    term.subscriptValue.elim 1 fun subscript => x (subscript - 1)

/-- The value of the sum of written terms at a point. -/
def sumAt (terms : List WrittenTerm) (x : Nat → F) : F := (terms.map (·.valueAt x)).sum

variable [Numeral F] [ExactNumeral F]

/-- A term that is read has the value of the term that is written. -/
theorem valueAt_term (written : WrittenTerm) (x : Nat → F) :
    written.term.valueAt x = written.valueAt x := by
  obtain ⟨⟨literal, subscript⟩, sign⟩ := written
  cases sign <;> cases literal <;> cases subscript <;>
    simp [term, Term.valueAt, Term.value, valueAt, Sign.factor, subscriptValue,
      ExactNumeral.ofDecimal_eq]

/-- **An expression that is read has the value of its text.** -/
theorem valueAt_expressionOf (terms : List WrittenTerm) (x : Nat → F) :
    (expressionOf terms : LinearExpression F).valueAt x = sumAt terms x := by
  rw [expressionOf, LinearExpression.valueAt_ofTerms, List.map_map, sumAt]
  exact congrArg List.sum (List.map_congr_left fun written _ => written.valueAt_term x)

end WrittenTerm

end Values

/-! ## Constraints at a point -/

section Constraints

variable {F : Type} [Field F]

/-- Two values are related. -/
def Relation.Holds [LE F] : Relation → F → F → Prop
  | equal, left, right => left = right
  | atLeast, left, right => right ≤ left
  | atMost, left, right => left ≤ right

/-- The relation that a row keeps: of an equation only one direction. -/
def Relation.relaxed : Relation → Relation
  | equal => atMost
  | relation => relation

/-- Two values fail to be related by more than the tolerance, of an equation that direction which a
row keeps. -/
def Relation.IsViolatedBeyond [LT F] (eps : F) : Relation → F → F → Prop
  | atLeast, left, right => left + eps < right
  | atMost, left, right | equal, left, right => right + eps < left

namespace WrittenConstraint

/-- The constraint holds at a point. -/
def HoldsAt [LE F] (written : WrittenConstraint) (x : Nat → F) : Prop :=
  written.relation.Holds (WrittenTerm.sumAt written.left x) (WrittenTerm.sumAt written.right x)

/-- The constraint with its relation relaxed. -/
def relaxed (written : WrittenConstraint) : WrittenConstraint :=
  { written with relation := written.relation.relaxed }

/-- The origin violates the constraint by more than the tolerance. -/
def IsViolatedAtOrigin [LT F] (eps : F) (written : WrittenConstraint) : Prop :=
  written.relation.IsViolatedBeyond eps (WrittenTerm.sumAt written.left 0)
    (WrittenTerm.sumAt written.right 0)

/-- By how much a point exceeds the constraint. -/
def excessAt (written : WrittenConstraint) (x : Nat → F) : F :=
  match written.relation with
  | .atLeast => WrittenTerm.sumAt written.right x - WrittenTerm.sumAt written.left x
  | .atMost | .equal => WrittenTerm.sumAt written.left x - WrittenTerm.sumAt written.right x

variable [LinearOrder F] [IsStrictOrderedRing F]

theorem holdsAt_relaxed_iff (written : WrittenConstraint) (x : Nat → F) :
    written.relaxed.HoldsAt x ↔ written.excessAt x ≤ 0 := by
  obtain ⟨left, relation, right⟩ := written
  cases relation <;> exact sub_nonpos.symm

theorem excessAt_nonpos {written : WrittenConstraint} {x : Nat → F} (h : written.HoldsAt x) :
    written.excessAt x ≤ 0 := by
  obtain ⟨left, relation, right⟩ := written
  cases relation with
  | equal => exact sub_nonpos.mpr (le_of_eq h)
  | atLeast => exact sub_nonpos.mpr h
  | atMost => exact sub_nonpos.mpr h

theorem isViolatedAtOrigin_iff (written : WrittenConstraint) (eps : F) :
    written.IsViolatedAtOrigin eps ↔ eps < written.excessAt 0 := by
  obtain ⟨left, relation, right⟩ := written
  cases relation <;> exact lt_sub_iff_add_lt'.symm

end WrittenConstraint

/-! ## Rows -/

section Snapping

variable [LinearOrder F]

/-- Snapping to zero does not make a value smaller. -/
theorem le_snapToZero (eps value : F) : value ≤ snapToZero eps value := by
  unfold snapToZero
  split_ifs with h
  · exact h.1.le
  · exact le_rfl

theorem snapToZero_zero (value : F) : snapToZero 0 value = value := by
  refine if_neg fun h => ?_
  have hnonneg : -0 ≤ value := h.2
  rw [neg_zero] at hnonneg
  exact absurd h.1 (not_lt.mpr hnonneg)

/-- What is within the tolerance is not negative after snapping, and nothing else. -/
theorem snapToZero_nonneg_iff [IsStrictOrderedRing F] {eps : F} (heps : 0 ≤ eps) (value : F) :
    0 ≤ snapToZero eps value ↔ -eps ≤ value := by
  unfold snapToZero
  split_ifs with h
  · exact iff_of_true le_rfl h.2
  · constructor
    · intro hvalue
      exact le_trans (neg_nonpos.mpr heps) hvalue
    · intro hvalue
      by_contra! hnegative
      exact h ⟨hnegative, hvalue⟩

end Snapping

namespace Constraint

theorem getD_zipWith_sub {as bs : List F} (h : as.length = bs.length) (j : Nat) :
    (List.zipWith (· - ·) as bs).getD j 0 = as.getD j 0 - bs.getD j 0 := by
  have hlength : (List.zipWith (· - ·) as bs).length = as.length := by
    rw [List.length_zipWith, ← h, Nat.min_self]
  rcases Nat.lt_or_ge j as.length with hj | hj
  · rw [List.getD_eq_getElem as 0 hj, List.getD_eq_getElem bs 0 (by omega),
      List.getD_eq_getElem _ 0 (by omega), List.getElem_zipWith]
  · rw [List.getD_eq_default as 0 hj, List.getD_eq_default bs 0 (by omega),
      List.getD_eq_default _ 0 (by omega), sub_zero]

theorem getD_between (left : LinearExpression F) (relation : Relation)
    (right : LinearExpression F) (j : Nat) :
    (between left relation right).coefficients.getD j 0 =
      left.coefficients.getD j 0 - right.coefficients.getD j 0 := by
  have hleft : left.coefficients.length ≤ max left.variableCount right.variableCount :=
    Nat.le_max_left _ _
  have hright : right.coefficients.length ≤ max left.variableCount right.variableCount :=
    Nat.le_max_right _ _
  rw [between, getD_zipWith_sub (by rw [length_padTo hleft, length_padTo hright]), getD_padTo,
    getD_padTo]

/-- The left hand side of a constraint between two expressions: the difference without the
constants. -/
theorem weightedSum_between (left : LinearExpression F) (relation : Relation)
    (right : LinearExpression F) (x : Nat → F) :
    weightedSum (between left relation right).coefficients x =
      weightedSum left.coefficients x - weightedSum right.coefficients x := by
  rw [weightedSum, length_between, weightedSum_eq_sum_range (Nat.le_max_left _ _),
    weightedSum_eq_sum_range (Nat.le_max_right _ _), ← Finset.sum_sub_distrib]
  refine Finset.sum_congr rfl fun j _ => ?_
  rw [getD_between, sub_mul]

theorem weightedSum_padTo {n : Nat} {coefficients : List F} (h : coefficients.length ≤ n)
    (x : Nat → F) : weightedSum (padTo n coefficients) x = weightedSum coefficients x := by
  rw [weightedSum, length_padTo h, weightedSum_eq_sum_range h]
  exact Finset.sum_congr rfl fun j _ => by rw [getD_padTo]

theorem weightedSum_map_neg (coefficients : List F) (x : Nat → F) :
    weightedSum (coefficients.map (- ·)) x = -weightedSum coefficients x := by
  rw [weightedSum, List.length_map, weightedSum, ← Finset.sum_neg_distrib]
  refine Finset.sum_congr rfl fun j _ => ?_
  rw [← neg_zero, List.getD_map, neg_zero, neg_mul]

theorem weightedSum_origin (coefficients : List F) : weightedSum coefficients 0 = 0 := by
  simp [weightedSum]

/-- By how much a point exceeds a constraint that is read. -/
def excessAt (c : Constraint F) (x : Nat → F) : F :=
  match c.relation with
  | .atLeast => c.rhs - weightedSum c.coefficients x
  | .atMost | .equal => weightedSum c.coefficients x - c.rhs

/-- A constraint that is read is exceeded by as much as the one that is written. -/
theorem excessAt_constraint [Numeral F] [ExactNumeral F] (written : WrittenConstraint)
    (x : Nat → F) : written.constraint.excessAt x = written.excessAt x := by
  obtain ⟨left, relation, right⟩ := written
  have hsum := weightedSum_between (expressionOf left) relation (expressionOf right) x
  have hconstraint : (⟨left, relation, right⟩ : WrittenConstraint).constraint (F := F) =
      ⟨(between (expressionOf left) relation (expressionOf right)).coefficients, relation,
        (expressionOf right).constant - (expressionOf left).constant⟩ := rfl
  rw [hconstraint]
  cases relation <;>
  · simp only [excessAt, WrittenConstraint.excessAt, ← WrittenTerm.valueAt_expressionOf,
      LinearExpression.valueAt, hsum]
    ring

variable [LinearOrder F] {n : Nat}

theorem length_toRow (eps : F) {c : Constraint F} (hn : c.variableCount ≤ n) :
    (c.toRow n eps).coefficients.length = n := by
  unfold toRow
  split
  · rw [List.length_map, length_padTo hn]
  · exact length_padTo hn
  · exact length_padTo hn

/-- **The left hand side of a row is the linear part of the excess.** -/
theorem weightedSum_toRow (eps : F) {c : Constraint F} (hn : c.variableCount ≤ n) (x : Nat → F) :
    weightedSum (c.toRow n eps).coefficients x = c.excessAt x - c.excessAt 0 := by
  obtain ⟨coefficients, relation, rhs⟩ := c
  cases relation with
  | equal | atMost =>
    simp only [toRow, excessAt]
    rw [weightedSum_padTo hn, weightedSum_origin]
    ring
  | atLeast =>
    simp only [toRow, excessAt]
    rw [weightedSum_map_neg, weightedSum_padTo hn, weightedSum_origin]
    ring

/-- **The right hand side of a row makes up for the excess of the origin**, up to snapping. -/
theorem rhs_toRow (eps : F) (c : Constraint F) :
    (c.toRow n eps).rhs = snapToZero eps (-c.excessAt 0) := by
  obtain ⟨coefficients, relation, rhs⟩ := c
  cases relation <;> simp [toRow, excessAt, weightedSum_origin]

variable [IsStrictOrderedRing F] {eps : F} {c : Constraint F}

/-- A row is satisfied where its constraint is not exceeded. -/
theorem weightedSum_toRow_le (eps : F) (hn : c.variableCount ≤ n) {x : Nat → F}
    (hx : c.excessAt x ≤ 0) : weightedSum (c.toRow n eps).coefficients x ≤ (c.toRow n eps).rhs := by
  have hsnap := le_snapToZero eps (-c.excessAt 0)
  rw [weightedSum_toRow eps hn, rhs_toRow]
  linarith

/-- Without a tolerance it is satisfied only there. -/
theorem weightedSum_toRow_le_iff (hn : c.variableCount ≤ n) (x : Nat → F) :
    weightedSum (c.toRow n 0).coefficients x ≤ (c.toRow n 0).rhs ↔ c.excessAt x ≤ 0 := by
  rw [weightedSum_toRow 0 hn, rhs_toRow, snapToZero_zero, sub_le_iff_le_add, neg_add_cancel]

/-- The origin satisfies a row when it exceeds the constraint within the tolerance. -/
theorem feasibleAtOrigin_toRow_iff (heps : 0 ≤ eps) :
    (c.toRow n eps).FeasibleAtOrigin ↔ c.excessAt 0 ≤ eps := by
  rw [Row.FeasibleAtOrigin, rhs_toRow, snapToZero_nonneg_iff heps, neg_le_neg_iff]

end Constraint

end Constraints

end PrimalSimplex
