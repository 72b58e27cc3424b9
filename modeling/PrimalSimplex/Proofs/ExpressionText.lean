import PrimalSimplex.Proofs.Rendering

/-!
# A written expression is read back

An expression is written as its coefficients, zeros included, and then its constant, unless that is
zero. The constant has a sign between blanks as every term after the first has, so it is one more
continuation of the coefficients (`isContinuation_renderConstant`). Without coefficients the text
begins with that sign, which the grammar allows of a first term.

The terms that are written (`LinearExpression.writtenTerms`) add up to the expression, but for the
signs of its zeros: each coefficient is added to a zero, and so is the constant. A constant that is
not written is a zero only because finite values are (`SignLaws.beq_zero_iff`).
-/

namespace PrimalSimplex

section Writing

variable {F : Type} [Zero F] [Add F] [Sub F] [Neg F] [LT F] [LE F] [DecidableLT F] [BEq F]
  [Finiteness F] [Numeral F]

/-- The terms that are written for a constant. There are none for a zero. -/
def constantTerms (constant : F) : List WrittenTerm :=
  if constant == 0 then [] else [⟨⟨some (literalOf constant), none⟩, signOf constant⟩]

/-- The terms that are written for an expression. -/
def LinearExpression.writtenTerms (e : LinearExpression F) : List WrittenTerm :=
  writtenFrom 0 e.coefficients ++ constantTerms e.constant

/-- An expression whose zeros have lost their signs. -/
def LinearExpression.withPositiveZeros {F : Type} [Zero F] [BEq F] (e : LinearExpression F) :
    LinearExpression F :=
  ⟨e.coefficients.map positiveZero, positiveZero e.constant⟩

variable [SignLaws F]

/-- A constant is a sign between blanks and a literal. -/
theorem toList_renderConstant {constant : F} (hfinite : isFinite constant = true) :
    (renderConstant constant).toList =
      if constant == 0 then [] else signText (signOf constant) ++ literalOf constant := by
  have hzero := SignLaws.beq_zero_iff hfinite
  rw [renderConstant, signOf, literalOf, magnitude]
  split_ifs with hneg hbeq hpos hbeq hbeq
  · exact absurd hneg (hzero.mp hbeq).1
  · simp [signText]
  · exact absurd hpos (hzero.mp hbeq).2
  · simp [signText]
  · rfl
  · exact absurd (hzero.mpr ⟨hneg, hpos⟩) hbeq

/-- **The text of a constant can stand after coefficients.** -/
theorem isContinuation_renderConstant {constant : F} (hfinite : isFinite constant = true)
    (hplain : Numeral.WritesPlainly (positiveZero constant)) :
    IsContinuation (renderConstant constant).toList (constantTerms constant) := by
  rw [toList_renderConstant hfinite, constantTerms]
  split_ifs with hzero
  · exact .of_isBlank (List.forall_mem_nil _)
  · rw [positiveZero, if_neg hzero] at hplain
    have hsplits : ∀ {kinds}, Token.Splits [] kinds →
        Token.Splits (literalOf constant ++ []) ([.number (literalOf constant)] ++ kinds) :=
      .number hplain.isLiteral.ne_nil ⟨fun c => hplain.isLiteral.isNumeric, by simp⟩
    have hcons := IsContinuation.cons (signOf constant) (.constant (literalOf constant))
      (isValid_constant hplain.isLiteral) hsplits (.of_isBlank (List.forall_mem_nil _))
    rwa [List.append_nil] at hcons

namespace LinearExpression

/-- An expression that can be written and read back. -/
structure IsRenderable (e : LinearExpression F) : Prop where
  /-- the subscripts stay in range -/
  length_le : e.coefficients.length ≤ 10000
  /-- the constant is finite -/
  isFinite_constant : isFinite e.constant = true
  /-- its numbers are written plainly -/
  writesPlainly : ∀ value ∈ e.constant :: e.coefficients,
    Numeral.WritesPlainly (positiveZero value)
  /-- the text is not empty -/
  ne_nil : e.coefficients ≠ [] ∨ ¬(e.constant == 0) = true

variable {e : LinearExpression F}

/-- **The text of an expression spells its terms.** -/
theorem IsRenderable.isExpression_render (h : e.IsRenderable) :
    IsExpression e.render.toList e.writtenTerms := by
  obtain ⟨hconstant, hcoefficients⟩ := List.forall_mem_cons.mp h.writesPlainly
  have hcontinuation := isContinuation_renderConstant h.isFinite_constant hconstant
  rw [render, String.toList_append, writtenTerms]
  rcases eq_or_ne e.coefficients [] with hnil | hne
  · -- the constant stands alone, with its sign in front of it
    have hzero := h.ne_nil.resolve_left (not_not_intro hnil)
    rw [hnil]
    exact hcontinuation.isExpression (by simp [constantTerms, hzero])
  · exact hcontinuation.isExpression_append hne h.length_le hcoefficients (List.forall_mem_nil _)

variable [One F]

/-- The terms of the constant leave the coefficients alone. -/
theorem foldl_add_constantTerms {constant : F}
    (hplain : Numeral.WritesPlainly (positiveZero constant)) (coefficients : List F) :
    ((constantTerms constant).map WrittenTerm.term).foldl add ⟨coefficients, 0⟩ =
      ⟨coefficients, positiveZero constant⟩ := by
  rw [constantTerms]
  split_ifs with hzero
  · rw [positiveZero, if_pos hzero]
    rfl
  · have hsum := ZeroLaws.zero_add constant
    rw [positiveZero, if_neg hzero] at hplain hsum ⊢
    rw [List.map_singleton, List.foldl_cons, List.foldl_nil, add]
    simp only [value_signed hplain, hsum]
    rfl

/-- **The terms that are written add up to the expression.** -/
theorem IsRenderable.expressionOf_writtenTerms (h : e.IsRenderable) :
    expressionOf e.writtenTerms = e.withPositiveZeros := by
  obtain ⟨hconstant, hcoefficients⟩ := List.forall_mem_cons.mp h.writesPlainly
  have hsum := foldl_add_writtenFrom hcoefficients (⟨[], 0⟩ : LinearExpression F)
  rw [List.length_nil, List.nil_append] at hsum
  rw [expressionOf, ofTerms, writtenTerms, List.map_append, List.foldl_append, hsum,
    foldl_add_constantTerms hconstant, withPositiveZeros]

end LinearExpression

/-- **An expression that is written is read back**, by either reader if it has a variable. It is
enough that its own numbers are written plainly. -/
theorem rendered_expression_reads_back [One F] (e : LinearExpression F)
    (hlength : e.coefficients.length ≤ 10000)
    (hfinite : ∀ value ∈ e.constant :: e.coefficients, isFinite value = true)
    (hplain : ∀ value ∈ e.constant :: e.coefficients,
      Numeral.WritesPlainly (positiveZero value))
    (hne : e.coefficients ≠ [] ∨ ¬(e.constant == 0) = true) :
    LinearExpression.read e.render = .ok e.withPositiveZeros ∧
      (e.coefficients ≠ [] →
        LinearExpression.readWithVariable e.render = .ok e.withPositiveZeros) := by
  have h : e.IsRenderable := ⟨hlength, hfinite _ List.mem_cons_self, hplain, hne⟩
  have hread : LinearExpression.read e.render = .ok e.withPositiveZeros :=
    LinearExpression.read_eq_ok_iff.mpr
      ⟨_, h.isExpression_render, h.expressionOf_writtenTerms.symm⟩
  refine ⟨hread, fun hcoefficients => ?_⟩
  have hnonempty : ¬e.withPositiveZeros.coefficients.isEmpty = true := by
    simpa [LinearExpression.withPositiveZeros] using hcoefficients
  rw [LinearExpression.readWithVariable, hread]
  simp only [if_neg hnonempty]

end Writing

/-- An expression with a fraction, a negative zero, and a negative constant. -/
def LinearExpression.negativeZero : LinearExpression Float := ⟨[2.5, -0, -1], -1.5⟩

example : LinearExpression.negativeZero.render = "2.5x1 + 0x2 - 1x3 - 1.5" := by decide +kernel

/-- The negative zero is read back as a zero, everything else as it was. The constant is also read
back when it stands alone. Rational numbers have no negative zero, and an expression is read back as
it was. -/
theorem rendered_expression_reads_back_negativeZero :
    (LinearExpression.read LinearExpression.negativeZero.render =
        .ok (⟨[2.5, 0, -1], -1.5⟩ : LinearExpression Float) ∧
      LinearExpression.readWithVariable LinearExpression.negativeZero.render =
        .ok (⟨[2.5, 0, -1], -1.5⟩ : LinearExpression Float)) ∧
    LinearExpression.read (⟨[], -1.5⟩ : LinearExpression Float).render =
      .ok (⟨[], -1.5⟩ : LinearExpression Float) ∧
    LinearExpression.read (⟨[2, 0, -3], -1⟩ : LinearExpression ℚ).render =
      .ok (⟨[2, 0, -3], -1⟩ : LinearExpression ℚ) := by
  have hfinite : ∀ value ∈ LinearExpression.negativeZero.constant ::
      LinearExpression.negativeZero.coefficients, isFinite value = true := by
    decide +kernel
  have hplain : ∀ value ∈ LinearExpression.negativeZero.constant ::
      LinearExpression.negativeZero.coefficients, Numeral.WritesPlainly (positiveZero value) := by
    decide +kernel
  obtain ⟨hread, hreadWithVariable⟩ := rendered_expression_reads_back
    LinearExpression.negativeZero (by decide) hfinite hplain (.inl (List.cons_ne_nil _ _))
  refine ⟨⟨hread, hreadWithVariable (List.cons_ne_nil _ _)⟩, ?_, ?_⟩
  · exact (rendered_expression_reads_back (⟨[], -1.5⟩ : LinearExpression Float) (by decide)
      (by decide +kernel) (by decide +kernel) (.inr (by decide +kernel))).1
  · exact (rendered_expression_reads_back (⟨[2, 0, -3], -1⟩ : LinearExpression ℚ) (by decide)
      (by decide) (by decide +kernel) (.inl (List.cons_ne_nil _ _))).1

end PrimalSimplex
