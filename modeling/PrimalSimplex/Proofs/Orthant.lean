import PrimalSimplex.Proofs.Declaration
import PrimalSimplex.Proofs.Meaning

/-!
# What declarations say

A line that is taken for a declaration is dropped, so it must not say anything that does not hold of
all nonnegative values anyway. Each part of such a line is a positive multiple of one variable,
perhaps with a bound of zero (`saysNothing_of_declaresAll`). The coefficients are looked at after
the terms have been added up, so `x1 + x2 - x2` is a variable as well; what is recognised is the
value of the text and not its form.

The other way round, declarations of the usual forms are recognised, with white space wherever there
may be some (`IsDeclarationText.declaresAll_eq`). Such a text is put together from pieces with white
space around them (`Spaced`), and it splits into the tokens that one expects because no piece
can go on with what follows it: a literal is followed by a multiplication sign or a letter, and
digits by white space, a relation or a comma.

Literals are taken as the decimals that they denote.
-/

namespace PrimalSimplex

/-! ## A line that is recognised says nothing -/

section Soundness

variable {F : Type} [Field F] [LinearOrder F] [IsStrictOrderedRing F]

omit [IsStrictOrderedRing F] in
/-- A list with one entry other than zero. -/
theorem weightedSum_of_filter_eq {coefficients : List F} {c : F}
    (h : coefficients.filter (· != 0) = [c]) :
    ∃ k, ∀ x : Nat → F, weightedSum coefficients x = c * x k := by
  obtain ⟨before, after, rfl, hbefore, -, hafter⟩ := List.filter_eq_cons_iff.mp h
  rw [List.filter_eq_nil_iff] at hafter
  simp only [bne_iff_ne, ne_eq, not_not] at hbefore hafter
  refine ⟨before.length, fun x => ?_⟩
  have hlast : before.length ∈ Finset.range (before ++ c :: after).length := by simp
  rw [weightedSum, Finset.sum_eq_single_of_mem _ hlast fun j _ hne => ?_,
    List.getD_append_right _ _ _ _ le_rfl, Nat.sub_self, List.getD_cons_zero]
  -- every other entry is zero, or is not there
  have hzero : (before ++ c :: after).getD j 0 = 0 := by
    rcases Nat.lt_or_gt_of_ne hne with hlt | hgt
    · rw [List.getD_append _ _ _ _ hlt, List.getD_eq_getElem _ _ hlt]
      exact hbefore _ (List.getElem_mem hlt)
    · obtain ⟨k, rfl⟩ := Nat.exists_eq_add_of_lt hgt
      rw [List.getD_append_right _ _ _ _ (by omega),
        show before.length + k + 1 - before.length = k + 1 by omega, List.getD_cons_succ]
      rcases Nat.lt_or_ge k after.length with hk | hk
      · rw [List.getD_eq_getElem _ _ hk]
        exact hafter _ (List.getElem_mem hk)
      · exact List.getD_eq_default _ _ hk
  rw [hzero, zero_mul]

omit [IsStrictOrderedRing F] in
/-- **A single variable is a positive multiple of a variable**, everywhere. -/
theorem LinearExpression.exists_valueAt_of_isSingleVariable {e : LinearExpression F}
    (h : e.isSingleVariable = true) :
    ∃ c k, 0 < c ∧ ∀ x : Nat → F, e.valueAt x = c * x k := by
  obtain ⟨hconstant, hcoefficients⟩ := Bool.and_eq_true_iff.mp h
  split at hcoefficients
  · rename_i c hfilter
    obtain ⟨k, hk⟩ := weightedSum_of_filter_eq hfilter
    refine ⟨c, k, of_decide_eq_true hcoefficients, fun x => ?_⟩
    rw [valueAt, hk, beq_iff_eq.mp hconstant, add_zero]
  · cases hcoefficients

omit [IsStrictOrderedRing F] in
theorem LinearExpression.valueAt_of_isZero {e : LinearExpression F} (h : e.isZero = true)
    (x : Nat → F) : e.valueAt x = 0 := by
  obtain ⟨hcoefficients, hconstant⟩ := Bool.and_eq_true_iff.mp h
  rw [valueAt, List.isEmpty_iff.mp hcoefficients, beq_iff_eq.mp hconstant, add_zero]
  rfl

variable [Numeral F]

omit [LinearOrder F] [IsStrictOrderedRing F] in
/-- A text that has a property as an expression is an expression. -/
theorem exists_of_readsAs {property : LinearExpression F → Bool} {part : List Char}
    (h : readsAs F property part = true) :
    ∃ terms, IsExpression part terms ∧ property (expressionOf terms) = true := by
  unfold readsAs at h
  split at h
  · rename_i e he
    obtain ⟨terms, hterms, rfl⟩ := LinearExpression.read_eq_ok_iff.mp he
    rw [String.toList_ofList] at hterms
    exact ⟨terms, hterms, h⟩
  · cases h

variable (F) in
/-- A part between commas says nothing about nonnegative values: it is an expression that is not
negative, or it states that such an expression is at least zero. -/
def SaysNothing (part : List Char) : Prop :=
  (∃ terms, IsExpression part terms ∧
    ∀ x : Nat → F, (∀ j, 0 ≤ x j) → 0 ≤ WrittenTerm.sumAt terms x) ∨
  ∃ written, IsConstraint part written ∧ written.relation = .atLeast ∧
    ∀ x : Nat → F, (∀ j, 0 ≤ x j) → 0 ≤ WrittenTerm.sumAt written.left x ∧
      WrittenTerm.sumAt written.right x = 0 ∧ written.HoldsAt x

variable [ExactNumeral F]

/-- What reads as a single variable is not negative at nonnegative values. -/
theorem sumAt_nonneg_of_isSingleVariable {terms : List WrittenTerm}
    (h : (expressionOf terms : LinearExpression F).isSingleVariable = true) {x : Nat → F}
    (hx : ∀ j, 0 ≤ x j) : 0 ≤ WrittenTerm.sumAt terms x := by
  obtain ⟨c, k, hc, hvalue⟩ := LinearExpression.exists_valueAt_of_isSingleVariable h
  rw [← WrittenTerm.valueAt_expressionOf, hvalue]
  exact mul_nonneg hc.le (hx k)

theorem saysNothing_of_declaresPart {last : Bool} {part : List Char}
    (h : declaresPart F last part = true) : SaysNothing F part := by
  unfold declaresPart at h
  split at h
  · rename_i before spelling after hfind
    obtain ⟨hleft, hright⟩ := Bool.and_eq_true_iff.mp h
    obtain ⟨left, hbefore, hsingle⟩ := exists_of_readsAs hleft
    obtain ⟨right, hafter, hzero⟩ := exists_of_readsAs hright
    obtain ⟨hmem, hcut⟩ := Relation.eq_append_of_find? hfind
    obtain ⟨s, hs, heq⟩ := Relation.mem_allSpellings.mp hmem
    refine .inr ⟨⟨left, .atLeast, right⟩, ⟨before, after, hbefore, hafter, s, hs, ?_⟩, rfl, ?_⟩
    · rw [heq, hcut]
    · intro x hx
      have hnonneg := sumAt_nonneg_of_isSingleVariable hsingle hx
      have hright : WrittenTerm.sumAt right x = 0 := by
        rw [← WrittenTerm.valueAt_expressionOf]
        exact LinearExpression.valueAt_of_isZero hzero x
      exact ⟨hnonneg, hright, hright.trans_le hnonneg⟩
  · cases h
  · obtain ⟨terms, hpart, hsingle⟩ := exists_of_readsAs (Bool.and_eq_true_iff.mp h).2
    exact .inl ⟨terms, hpart, fun x hx => sumAt_nonneg_of_isSingleVariable hsingle hx⟩

/-- **What is dropped as a declaration says nothing**, part by part. -/
theorem saysNothing_of_declaresAll {parts : List (List Char)} (h : declaresAll F parts = true) :
    ∀ part ∈ parts, SaysNothing F part := by
  induction parts with
  | nil => exact List.forall_mem_nil _
  | cons part rest ih =>
    obtain ⟨hpart, hrest⟩ := Bool.and_eq_true_iff.mp h
    exact List.forall_mem_cons.mpr ⟨saysNothing_of_declaresPart hpart, ih hrest⟩

end Soundness

/-! ## Texts that declare variables -/

/-- The text consists of the given pieces, with white space before, between and after them. -/
inductive Spaced : List (List Char) → List Char → Prop where
  /-- no pieces -/
  | done {blanks : List Char} : (∀ c ∈ blanks, Text.isBlank c = true) → Spaced [] blanks
  /-- a piece, and more of them -/
  | piece {blanks piece rest : List Char} {pieces : List (List Char)} :
      (∀ c ∈ blanks, Text.isBlank c = true) → Spaced pieces rest →
        Spaced (piece :: pieces) (blanks ++ (piece ++ rest))

/-- Pieces can be taken apart where one of them stands. -/
theorem Spaced.exists_of_append {pieces more : List (List Char)} {piece cs : List Char}
    (h : Spaced (pieces ++ piece :: more) cs) :
    ∃ before after, cs = before ++ piece ++ after ∧ Spaced pieces before ∧ Spaced more after := by
  induction pieces generalizing cs with
  | nil =>
    cases h with
    | piece hblanks hrest => exact ⟨_, _, (List.append_assoc _ _ _).symm, .done hblanks, hrest⟩
  | cons first pieces ih =>
    cases h with
    | piece hblanks hrest =>
      obtain ⟨before, after, rfl, hbefore, hafter⟩ := ih hrest
      refine ⟨_, after, ?_, .piece hblanks hbefore, hafter⟩
      simp only [List.append_assoc]

/-- A variable as it may be written in a declaration. -/
structure DeclaredVariable where
  /-- whether there is a plus in front -/
  plus : Bool
  /-- a number, and the multiplication sign after it, if there is one -/
  factor : Option (List Char × Option Char)
  /-- the letter -/
  letter : Char
  /-- the digits of its subscript -/
  subscript : List Char

namespace DeclaredVariable

/-- The pieces of its text. -/
def pieces (v : DeclaredVariable) : List (List Char) :=
  (if v.plus then [['+']] else []) ++
    (match v.factor with
      | none => []
      | some (literal, none) => [literal]
      | some (literal, some times) => [literal, [times]]) ++
    [v.letter :: v.subscript]

/-- It is a positive multiple of a variable in range. -/
structure IsValid (v : DeclaredVariable) : Prop where
  /-- the number is a positive literal, and only a multiplication sign follows it -/
  factor : ∀ factor ∈ v.factor, Decimal.IsLiteral factor.1 ∧
    (Decimal.denoted factor.1).digits ≠ 0 ∧ ∀ times ∈ factor.2, times = '*' ∨ times = '\u00b7'
  /-- the letter is an `x` -/
  letter : v.letter = 'x' ∨ v.letter = 'X'
  /-- the subscript consists of digits -/
  isDigit : ∀ c ∈ v.subscript, c.isDigit = true
  /-- the subscript is in range -/
  subscript_mem : 1 ≤ digitsValue v.subscript ∧ digitsValue v.subscript ≤ 10000

/-- The term that is read from it. -/
def written (v : DeclaredVariable) : WrittenTerm :=
  ⟨⟨v.factor.map Prod.fst, some v.subscript⟩, .plus⟩

end DeclaredVariable

/-- A part of a declaration that leaves the bound to a later one. -/
def IsNamedPart (part : List Char) : Prop :=
  ∃ v : DeclaredVariable, v.IsValid ∧ Spaced v.pieces part

/-- A part of a declaration that states the bound. -/
def IsBoundedPart (part : List Char) : Prop :=
  ∃ v : DeclaredVariable, v.IsValid ∧ ∃ spelling ∈ Relation.atLeast.spellings, ∃ zero,
    Decimal.IsLiteral zero ∧ (Decimal.denoted zero).digits = 0 ∧
      Spaced (v.pieces ++ [spelling.toList, zero]) part

/-- A declaration: parts with commas between them, of which the last one states the bound. -/
inductive IsDeclarationText : List Char → Prop where
  /-- the last part -/
  | last {part : List Char} : IsBoundedPart part → IsDeclarationText part
  /-- a part before others -/
  | more {part rest : List Char} : IsNamedPart part ∨ IsBoundedPart part →
      IsDeclarationText rest → IsDeclarationText (part ++ ',' :: rest)

/-! ## They are recognised -/

section Spelling

/-- Pieces begin with white space or with the first piece. -/
theorem Spaced.isMember_head {isMember : Char → Bool}
    (hblank : ∀ c, Text.isBlank c = true → isMember c = false) {pieces : List (List Char)}
    (hpieces : ∀ piece ∈ pieces.head?, ∃ c rest, piece = c :: rest ∧ isMember c = false)
    {cs : List Char} (h : Spaced pieces cs) : ∀ c ∈ cs.head?, isMember c = false := by
  cases h with
  | done hblanks => exact fun c hc => hblank c (hblanks c (List.mem_of_mem_head? hc))
  | @piece blanks piece rest pieces hblanks hrest =>
    intro c hc
    cases blanks with
    | nil =>
      obtain ⟨d, more, rfl, hd⟩ := hpieces piece rfl
      obtain rfl := Option.some.inj hc
      exact hd
    | cons d blanks =>
      obtain rfl := Option.some.inj hc
      exact hblank d (hblanks d List.mem_cons_self)

/-- A letter with its subscript is a token. -/
theorem splits_spaced_variable {letter : Char} {subscript cs : List Char}
    (hletter : letter = 'x' ∨ letter = 'X') (hdigits : ∀ c ∈ subscript, c.isDigit = true)
    (h : Spaced [letter :: subscript] cs) : Token.Splits cs [.var subscript] := by
  cases h with
  | piece hblanks hrest =>
    cases hrest with
    | done hafter =>
      refine .blanks hblanks (.var hletter ⟨hdigits, ?_⟩ (.of_isBlank hafter))
      exact isDigit_head_of_isBlank hafter

/-- A literal is a token when a piece follows it that is not numeric. -/
theorem splits_spaced_literal {literal cs : List Char} {pieces : List (List Char)}
    {kinds : List TokenKind} (hliteral : Decimal.IsLiteral literal)
    (hpieces : ∀ piece ∈ pieces.head?, ∃ c rest, piece = c :: rest ∧ Token.isNumeric c = false)
    (hrest : ∀ rest, Spaced pieces rest → Token.Splits rest kinds)
    (h : Spaced (literal :: pieces) cs) : Token.Splits cs (.number literal :: kinds) := by
  cases h with
  | piece hblanks hspaced =>
    refine .blanks hblanks (.number hliteral.ne_nil ⟨fun c => hliteral.isNumeric, ?_⟩
      (hrest _ hspaced))
    exact hspaced.isMember_head (fun _ => Token.isNumeric_of_isBlank) hpieces

/-- A literal on its own. -/
theorem isExpression_spaced_literal {literal cs : List Char} (hliteral : Decimal.IsLiteral literal)
    (h : Spaced [literal] cs) : IsExpression cs [writtenConstant literal] where
  spelled := by
    have hsplits : Token.Splits cs [.number literal] :=
      splits_spaced_literal hliteral (by simp)
        (fun rest hrest => by cases hrest with | done hblanks => exact .of_isBlank hblanks) h
    exact ⟨_, hsplits, .unsigned (.constant literal) .nil⟩
  isValid := List.forall_mem_singleton.mpr (isValid_constant hliteral)

namespace DeclaredVariable

variable {v : DeclaredVariable}

/-- A variable without its plus is the shape of a term. -/
theorem IsValid.splits_unsigned (hv : v.IsValid) {cs : List Char}
    (h : Spaced { v with plus := false }.pieces cs) :
    ∃ kinds, Token.Splits cs kinds ∧ v.written.toTermShape.SpelledBy kinds := by
  obtain ⟨plus, factor, letter, subscript⟩ := v
  have hletter : Token.isNumeric letter = false := by
    rcases hv.letter with hx | hx <;> obtain rfl : letter = _ := hx <;> rfl
  have hvariable : ∀ rest, Spaced [letter :: subscript] rest →
      Token.Splits rest [.var subscript] :=
    fun _ => splits_spaced_variable hv.letter hv.isDigit
  rcases factor with - | ⟨literal, - | times⟩
  · exact ⟨_, hvariable cs h, .lone subscript⟩
  · obtain ⟨hliteral, -, -⟩ := hv.factor _ rfl
    exact ⟨_, splits_spaced_literal hliteral (by simpa using hletter) hvariable h,
      .scaled literal subscript⟩
  · obtain ⟨hliteral, -, htimes⟩ := hv.factor _ rfl
    have htimes := htimes times rfl
    have hnumeric : Token.isNumeric times = false := by
      rcases htimes with rfl | rfl <;> rfl
    refine ⟨[.number literal, .times, .var subscript],
      splits_spaced_literal hliteral (by simpa using hnumeric) (fun rest hrest => ?_) h,
      .product literal subscript⟩
    cases hrest with
    | piece hblanks hspaced => exact .blanks hblanks (.times htimes (hvariable _ hspaced))

/-- **The text of a declared variable is an expression with one term.** -/
theorem IsValid.isExpression (hv : v.IsValid) {cs : List Char} (h : Spaced v.pieces cs) :
    IsExpression cs [v.written] where
  spelled := by
    obtain ⟨plus, factor, letter, subscript⟩ := v
    cases plus with
    | false =>
      obtain ⟨kinds, hsplits, hspelled⟩ := hv.splits_unsigned h
      have hspells := SpellsExpression.unsigned hspelled .nil
      rw [List.append_nil] at hspells
      exact ⟨kinds, hsplits, hspells⟩
    | true =>
      cases h with
      | piece hblanks hspaced =>
        obtain ⟨kinds, hsplits, hspelled⟩ := hv.splits_unsigned hspaced
        have hspells := SpellsSigned.cons hspelled .nil
        rw [List.append_nil] at hspells
        exact ⟨_, .blanks hblanks (.plus hsplits), .signed hspells⟩
  isValid := by
    intro term hterm
    obtain rfl := List.mem_singleton.mp hterm
    refine ⟨?_, ?_⟩
    · intro literal hliteral
      obtain ⟨factor, hfactor, rfl⟩ := Option.map_eq_some_iff.mp hliteral
      exact (hv.factor factor hfactor).1
    · rintro subscript ⟨⟩
      exact hv.subscript_mem

end DeclaredVariable

end Spelling

section Completeness

variable (F : Type) [Field F] [LinearOrder F] [IsStrictOrderedRing F] [Numeral F] [ExactNumeral F]

/-- A literal with a digit other than zero is positive. -/
theorem ofDecimal_denoted_pos {literal : List Char}
    (h : (Decimal.denoted literal).digits ≠ 0) : 0 < (ofDecimal (Decimal.denoted literal) : F) := by
  rw [ExactNumeral.ofDecimal_eq, Decimal.exact]
  exact mul_pos (Nat.cast_pos.mpr (Nat.pos_of_ne_zero h)) (zpow_pos (by norm_num) _)

/-- A declared variable is a single variable. -/
theorem DeclaredVariable.IsValid.isSingleVariable {v : DeclaredVariable} (hv : v.IsValid) :
    (expressionOf [v.written] : LinearExpression F).isSingleVariable = true := by
  have hpos : 0 < (v.written.term.value : F) := by
    obtain ⟨plus, factor, letter, subscript⟩ := v
    cases factor with
    | none => exact zero_lt_one
    | some factor => exact ofDecimal_denoted_pos F (hv.factor _ rfl).2.1
  have hexpression : (expressionOf [v.written] : LinearExpression F) =
      ⟨List.replicate (digitsValue v.subscript - 1) 0 ++ [v.written.term.value], 0⟩ := by
    rw [← zero_add (v.written.term.value : F), ← addAt_nil]
    rfl
  have hfilter : (List.replicate (digitsValue v.subscript - 1) (0 : F) ++
      [v.written.term.value]).filter (· != 0) = [v.written.term.value] := by
    rw [List.filter_append, List.filter_replicate_of_neg (by simp), List.nil_append]
    exact List.filter_cons_of_pos (bne_iff_ne.mpr hpos.ne')
  rw [hexpression, LinearExpression.isSingleVariable, hfilter]
  simpa using hpos

omit [IsStrictOrderedRing F] in
theorem isZero_of_digits_eq_zero {literal : List Char}
    (h : (Decimal.denoted literal).digits = 0) :
    (expressionOf [writtenConstant literal] : LinearExpression F).isZero = true := by
  have hconstant : (expressionOf [writtenConstant literal] : LinearExpression F) =
      ⟨[], 0 + ofDecimal (Decimal.denoted literal)⟩ := rfl
  rw [hconstant, ExactNumeral.ofDecimal_eq, Decimal.exact, h, Nat.cast_zero, zero_mul, add_zero]
  exact Bool.and_eq_true_iff.mpr ⟨rfl, beq_self_eq_true _⟩

variable {F} {part : List Char}

theorem IsNamedPart.comma_not_mem (h : IsNamedPart part) : ',' ∉ part := by
  obtain ⟨v, hv, hspaced⟩ := h
  exact (hv.isExpression hspaced).comma_not_mem

theorem IsNamedPart.declaresPart_eq (h : IsNamedPart part) : declaresPart F false part = true := by
  obtain ⟨v, hv, hspaced⟩ := h
  rw [(hv.isExpression hspaced).declaresPart_eq, hv.isSingleVariable F]
  rfl

/-- A part that states the bound is a constraint. -/
theorem IsBoundedPart.isConstraint (h : IsBoundedPart part) :
    ∃ v : DeclaredVariable, v.IsValid ∧ ∃ zero, (Decimal.denoted zero).digits = 0 ∧
      IsConstraint part ⟨[v.written], .atLeast, [writtenConstant zero]⟩ := by
  obtain ⟨v, hv, spelling, hspelling, zero, hliteral, hzero, hspaced⟩ := h
  obtain ⟨before, after, rfl, hbefore, hafter⟩ := hspaced.exists_of_append
  exact ⟨v, hv, zero, hzero, before, after, hv.isExpression hbefore,
    isExpression_spaced_literal hliteral hafter, spelling, hspelling, rfl⟩

theorem IsBoundedPart.comma_not_mem (h : IsBoundedPart part) : ',' ∉ part := by
  obtain ⟨v, -, zero, -, hconstraint⟩ := h.isConstraint
  exact hconstraint.comma_not_mem

theorem IsBoundedPart.declaresPart_eq (h : IsBoundedPart part) (last : Bool) :
    declaresPart F last part = true := by
  obtain ⟨v, hv, zero, hzero, hconstraint⟩ := h.isConstraint
  rw [hconstraint.declaresPart_eq, hv.isSingleVariable F, isZero_of_digits_eq_zero F hzero]
  rfl

/-- **The usual declarations are recognised.** -/
theorem IsDeclarationText.declaresAll_eq {cs : List Char} (h : IsDeclarationText cs) :
    declaresAll F (Text.splitAll ',' cs) = true := by
  induction h with
  | last hpart =>
    rw [Text.splitAll_of_not_mem hpart.comma_not_mem, declaresAll, hpart.declaresPart_eq]
    rfl
  | more hpart _ ih =>
    have hcomma := hpart.elim IsNamedPart.comma_not_mem IsBoundedPart.comma_not_mem
    have hdeclares := hpart.elim (IsNamedPart.declaresPart_eq (F := F)) (·.declaresPart_eq false)
    rw [Text.splitAll_append hcomma, declaresAll,
      List.isEmpty_eq_false_iff.mpr (Text.splitAll_ne_nil _ _), hdeclares, ih]
    rfl

end Completeness

/-- **Declarations of nonnegativity are recognised soundly and completely.** Of a line that is
recognised each part says nothing about nonnegative values, and every line of the usual forms is
recognised. -/
theorem declaration_recognised_soundly_and_completely {F : Type} [Field F] [LinearOrder F]
    [IsStrictOrderedRing F] [Numeral F] [ExactNumeral F] (text : String) :
    (declaresNonnegativity F text = true →
      ∀ part ∈ Text.splitAll ',' text.toList, SaysNothing F part) ∧
    (IsDeclarationText text.toList → declaresNonnegativity F text = true) :=
  ⟨saysNothing_of_declaresAll, IsDeclarationText.declaresAll_eq⟩

/-- The second part of the declaration has everything that a part may have. -/
theorem isDeclarationText_spaced : IsDeclarationText "x1 , + 2.5 * X2 => .0".toList := by
  have hcut :
      "x1 , + 2.5 * X2 => .0".toList = "x1 ".toList ++ ',' :: " + 2.5 * X2 => .0".toList := by
    decide
  have hblank : ∀ c ∈ [' '], Text.isBlank c = true := List.forall_mem_singleton.mpr (by decide)
  have hdigit : ∀ {d : Char}, d.isDigit = true → ∀ c ∈ [d], c.isDigit = true := fun hd =>
    List.forall_mem_singleton.mpr hd
  have hlast : Spaced ["+".toList, "2.5".toList, "*".toList, "X2".toList, "=>".toList, ".0".toList]
      " + 2.5 * X2 => .0".toList := by
    exact .piece hblank (.piece hblank (.piece hblank (.piece hblank (.piece hblank (.piece hblank
      (.done (List.forall_mem_nil _)))))))
  rw [hcut]
  refine .more (.inl ⟨⟨false, none, 'x', ['1']⟩, ⟨nofun, .inl rfl, hdigit (by decide), by decide⟩,
    .piece (List.forall_mem_nil _) (.done hblank)⟩) (.last ⟨⟨true, some ("2.5".toList, some '*'),
    'X', ['2']⟩, ⟨?_, .inr rfl, hdigit (by decide), by decide⟩, "=>", by decide, ".0".toList,
    by decide, by decide, hlast⟩)
  · rintro _ ⟨⟩
    exact ⟨by decide, by decide, by rintro _ ⟨⟩; exact .inl rfl⟩

/-- The declaration is recognised, and neither of its parts says anything. -/
theorem declaration_recognised_soundly_and_completely_spaced :
    IsDeclarationText "x1 , + 2.5 * X2 => .0".toList ∧
    declaresNonnegativity ℚ "x1 , + 2.5 * X2 => .0" = true ∧
    SaysNothing ℚ "x1 ".toList ∧ SaysNothing ℚ " + 2.5 * X2 => .0".toList := by
  obtain ⟨hsound, hcomplete⟩ :=
    declaration_recognised_soundly_and_completely (F := ℚ) "x1 , + 2.5 * X2 => .0"
  have hdeclares := hcomplete isDeclarationText_spaced
  exact ⟨isDeclarationText_spaced, hdeclares, hsound hdeclares _ (by decide),
    hsound hdeclares _ (by decide)⟩

end PrimalSimplex
