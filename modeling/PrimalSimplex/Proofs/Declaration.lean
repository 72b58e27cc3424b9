import PrimalSimplex.Declaration
import PrimalSimplex.Proofs.Rendering
import PrimalSimplex.Proofs.Text

/-!
# Declarations that are written

The last line of a written problem declares its variables, `x1, x2 >= 0`. It is recognised as a
declaration (`declaresNonnegativity_declarationText`), and no written row is
(`Row.IsRenderable.declaresNonnegativity_render`).

A line is recognised part by part, and there are two kinds of parts: an expression, and a constraint
between two expressions. Neither has a comma in it, so the parts of a line are those that it was put
together from. The terms of a part alone decide about it (`IsExpression.declaresPart_eq`,
`IsConstraint.declaresPart_eq`).
-/

namespace PrimalSimplex

/-! ## Parts -/

section Parts

variable {F : Type} [Zero F] [One F] [Add F] [Neg F] [LT F] [DecidableLT F] [BEq F] [Numeral F]
  {part : List Char}

omit [LT F] [DecidableLT F] [BEq F] in
theorem IsExpression.readsAs_eq {terms : List WrittenTerm} (h : IsExpression part terms)
    (property : LinearExpression F → Bool) :
    readsAs F property part = property (expressionOf terms) := by
  have hread : LinearExpression.read (F := F) (String.ofList part) = .ok (expressionOf terms) :=
    LinearExpression.read_eq_ok_iff.mpr ⟨terms, by rwa [String.toList_ofList], rfl⟩
  rw [readsAs, hread]

/-- An expression declares a variable when it is one, unless it is the last part. -/
theorem IsExpression.declaresPart_eq {terms : List WrittenTerm} (h : IsExpression part terms)
    (last : Bool) :
    declaresPart F last part = (!last && (expressionOf terms : LinearExpression F).isSingleVariable)
    := by
  have hfind : Relation.find? part = none :=
    Relation.find?_eq_none fun c => Relation.isRelational_of_mem_isExpression h
  rw [declaresPart, hfind]
  exact congrArg (!last && ·) (h.readsAs_eq _)

/-- A constraint declares a variable when it says that a variable is at least zero. -/
theorem IsConstraint.declaresPart_eq {written : WrittenConstraint} (h : IsConstraint part written)
    (last : Bool) :
    declaresPart F last part =
      (decide (written.relation = .atLeast) &&
        ((expressionOf written.left : LinearExpression F).isSingleVariable &&
          (expressionOf written.right : LinearExpression F).isZero)) := by
  obtain ⟨⟨relation, before, spelling, after⟩, hfind, hrelation, hbefore, hafter⟩ := h.find?_eq
  rw [declaresPart, hfind, ← hrelation]
  cases relation with
  | atLeast =>
    rw [← hbefore.readsAs_eq LinearExpression.isSingleVariable,
      ← hafter.readsAs_eq LinearExpression.isZero]
    rfl
  | equal | atMost => rfl

end Parts

/-- **A row is not taken for a declaration.** -/
theorem Row.IsRenderable.declaresNonnegativity_render {F : Type} [Zero F] [Add F] [Sub F] [Neg F]
    [LT F] [LE F] [DecidableLT F] [BEq F] [Finiteness F] [Numeral F] [ZeroLaws F] {row : Row F}
    (h : row.IsRenderable) : declaresNonnegativity Float row.render = false := by
  rw [declaresNonnegativity, Text.splitAll_of_not_mem h.isConstraint_render.comma_not_mem,
    declaresAll, h.isConstraint_render.declaresPart_eq]
  rfl

/-! ## Variables -/

/-- The term that a variable on its own is. -/
def writtenVariable (index : Nat) : WrittenTerm :=
  ⟨⟨none, some (Nat.toDigits 10 (index + 1))⟩, .plus⟩

/-- The name of a variable is an expression, also with white space around it. -/
theorem isExpression_variableName {index : Nat} (hindex : index < 10000) {lead rest : List Char}
    (hlead : ∀ c ∈ lead, Text.isBlank c = true) (hrest : ∀ c ∈ rest, Text.isBlank c = true) :
    IsExpression (lead ++ (variableName index).toList ++ rest) [writtenVariable index] where
  spelled := by
    have hdigits : Token.IsMaximalRun Char.isDigit (Nat.toDigits 10 (index + 1)) rest :=
      ⟨fun c => isDigit_of_mem_toDigits, isDigit_head_of_isBlank hrest⟩
    have hspells := SpellsExpression.unsigned (.lone (Nat.toDigits 10 (index + 1))) .nil
    rw [toList_variableName, List.append_assoc]
    exact ⟨_, .blanks hlead (.var (.inl rfl) hdigits (.of_isBlank hrest)), hspells⟩
  isValid := by
    intro term hterm
    obtain rfl := List.mem_singleton.mp hterm
    refine ⟨nofun, ?_⟩
    rintro subscript ⟨⟩
    rw [digitsValue_toDigits]
    omega

/-- Adding behind the end of the empty list fills it up with zeros. -/
theorem addAt_nil {F : Type} [Zero F] [Add F] (value : F) (j : Nat) :
    addAt value j [] = List.replicate j 0 ++ [0 + value] := by
  induction j with
  | zero => rfl
  | succ j ih => rw [addAt, ih, List.replicate_succ, List.cons_append]

/-- A variable on its own is a single variable. -/
theorem isSingleVariable_writtenVariable (index : Nat) :
    (expressionOf [writtenVariable index] : LinearExpression Float).isSingleVariable = true := by
  have hexpression : (expressionOf [writtenVariable index] : LinearExpression Float) =
      ⟨List.replicate index 0 ++ [0 + 1], 0⟩ := by
    rw [← addAt_nil]
    simp only [expressionOf, List.map_cons, List.map_nil, LinearExpression.ofTerms, List.foldl_cons,
      List.foldl_nil, LinearExpression.add, WrittenTerm.term, writtenVariable, Option.map_some,
      digitsValue_toDigits, Nat.add_sub_cancel]
    rfl
  have hzero : ((0 : Float) != 0) = false := by decide
  have hfilter : (List.replicate index (0 : Float) ++ [0 + 1]).filter (· != 0) = [0 + 1] := by
    rw [List.filter_append, List.filter_replicate_of_neg (by rw [hzero]; decide)]
    decide
  rw [hexpression, LinearExpression.isSingleVariable, hfilter]
  exact (by decide : ((0 : Float) == 0 && decide ((0 : Float) < 0 + 1)) = true)

theorem isZero_writtenConstant :
    (expressionOf [writtenConstant ['0']] : LinearExpression Float).isZero = true := by
  decide

/-! ## The declaration -/

/-- The line that declares variables. -/
def declarationText (indices : List Nat) : String :=
  ", ".intercalate (indices.map variableName) ++ " >= 0"

theorem toList_declarationText_singleton (index : Nat) :
    (declarationText [index]).toList =
      (variableName index).toList ++ [' '] ++ ">=".toList ++ [' ', '0'] := by
  simp [declarationText]

theorem toList_declarationText_cons (index next : Nat) (indices : List Nat) :
    (declarationText (index :: next :: indices)).toList =
      (variableName index).toList ++ ',' :: ' ' :: (declarationText (next :: indices)).toList := by
  simp [declarationText]

/-- The last part of a declaration. -/
theorem isConstraint_last {index : Nat} (hindex : index < 10000) {lead : List Char}
    (hlead : ∀ c ∈ lead, Text.isBlank c = true) :
    IsConstraint (lead ++ (declarationText [index]).toList)
      ⟨[writtenVariable index], .atLeast, [writtenConstant ['0']]⟩ := by
  have hzero : Decimal.IsLiteral ['0'] := ⟨by simp, by simp, by simp⟩
  refine ⟨lead ++ (variableName index).toList ++ [' '], [' ', '0'],
    isExpression_variableName hindex hlead (List.forall_mem_singleton.mpr (by decide)),
    isExpression_literal hzero, ">=", List.mem_cons_self, ?_⟩
  rw [toList_declarationText_singleton]
  simp only [List.append_assoc]

/-- All parts of a declaration declare variables; the parts after the first begin with a blank. -/
theorem declaresAll_declarationText {indices : List Nat} (hne : indices ≠ [])
    (hindices : ∀ index ∈ indices, index < 10000) {lead : List Char}
    (hlead : ∀ c ∈ lead, Text.isBlank c = true) :
    declaresAll Float (Text.splitAll ',' (lead ++ (declarationText indices).toList)) = true := by
  -- the blank after a comma is the lead of the next part, hence the generalisation
  induction indices generalizing lead with
  | nil => exact absurd rfl hne
  | cons index indices ih =>
    obtain ⟨hindex, hindices⟩ := List.forall_mem_cons.mp hindices
    cases indices with
    | nil =>
      have hlast := isConstraint_last hindex hlead
      rw [Text.splitAll_of_not_mem hlast.comma_not_mem, declaresAll, hlast.declaresPart_eq,
        isSingleVariable_writtenVariable, isZero_writtenConstant]
      rfl
    | cons next indices =>
      have hpart := isExpression_variableName hindex hlead (List.forall_mem_nil _)
      rw [List.append_nil] at hpart
      have hblank : ∀ c ∈ [' '], Text.isBlank c = true := List.forall_mem_singleton.mpr (by decide)
      rw [toList_declarationText_cons, ← List.append_assoc,
        Text.splitAll_append hpart.comma_not_mem, declaresAll, hpart.declaresPart_eq,
        isSingleVariable_writtenVariable, List.isEmpty_eq_false_iff.mpr (Text.splitAll_ne_nil _ _)]
      exact ih (List.cons_ne_nil _ _) hindices hblank

/-- **The line that declares the variables of a problem is recognised.** -/
theorem declaresNonnegativity_declarationText {indices : List Nat} (hne : indices ≠ [])
    (hindices : ∀ index ∈ indices, index < 10000) :
    declaresNonnegativity Float (declarationText indices) = true :=
  declaresAll_declarationText hne hindices (List.forall_mem_nil _)

end PrimalSimplex
