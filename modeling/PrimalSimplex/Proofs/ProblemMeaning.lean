import PrimalSimplex.Proofs.ObjectiveHeader

/-!
# What a problem that is read means

A problem that is read means what its texts say: the objective function has the values of the
expression in its text, and each row is satisfied where the constraint of its line is.

For a row it is clear where its text stands. The objective function stands behind whatever
introduces it (`Objective.IsIntroducedBy`), and that is said here by cutting the text in two and not
by looking for a place to cut. All texts that can be read are cut in this way
(`Objective.exists_isIntroducedBy`), and every way of cutting leads to the expression that is read
(`Objective.IsIntroducedBy.expression?_eq`).
-/

namespace PrimalSimplex

namespace Objective

/-! ## Where the expression stands -/

variable {cs e t header : List Char}

/-- The expression is introduced by the text in front of it. -/
inductive IsIntroducedBy (t : List Char) : List Char → Prop where
  /-- a header stands there -/
  | header {header : List Char} : IsHeader t header → IsIntroducedBy t header
  /-- a keyword stands there, after blanks perhaps, and ends where the expression begins -/
  | keyword {lead word : List Char} {keyword : String} :
      (∀ c ∈ lead, Text.isBlank c = true) → IsKeyword word keyword →
        (∃ c ∈ t.head?, Text.isAlphanumeric c = false) → IsIntroducedBy t (lead ++ word)

/-- The lower case of a character of an expression is one character, and a letter or a digit only if
the character is. -/
theorem lowerOne_of_isTokenChar {c : Char} (h : Token.isTokenChar c = true) :
    c ≠ Text.capitalSigma ∧
      ∃ d, Text.lowerOne c = [d] ∧ Text.isAlphanumeric d = Text.isAlphanumeric c := by
  constructor
  · rintro rfl
    exact absurd h (by decide)
  · simp only [Token.isTokenChar, Token.isNumeric, Bool.or_eq_true, beq_iff_eq] at h
    rcases h with ((hblank | hsymbol) | hletter) | hdigit | rfl
    · exact ⟨c, (Text.classes_of_isBlank hblank).1, rfl⟩
    · obtain ⟨kind, hkind⟩ := Option.isSome_iff_exists.mp hsymbol
      refine ⟨c, ?_, rfl⟩
      rcases Token.symbol?_eq_some_iff.mp hkind with ⟨rfl, -⟩ | ⟨rfl | rfl, -⟩ | ⟨rfl | rfl, -⟩ <;>
        decide +kernel
    · refine ⟨'x', ?_⟩
      rcases Token.isLetter_iff.mp hletter with rfl | rfl <;> decide +kernel
    · refine ⟨c, ?_, rfl⟩
      exact Token.forall_isDigit (P := fun c => Text.lowerOne c = [c]) (by decide +kernel) hdigit
    · exact ⟨'.', by decide +kernel⟩

/-- **What introduces an expression leads to it**, but for blanks in front of it. -/
theorem IsIntroducedBy.expression?_eq (h : IsIntroducedBy t header)
    (ht : ∀ c ∈ t, Token.isTokenChar c = true) :
    ∃ expression, expression? (header ++ t) = some expression ∧
      Text.trimStart expression = Text.trimStart t := by
  have hplain : ∀ c ∈ t, IsPlain c := fun c hc => isPlain_of_isTokenChar (ht c hc)
  cases h with
  | header h => exact h.expression?_eq hplain
  | @keyword lead word keyword hlead hword hfirst =>
    obtain ⟨c, hc, halphanumeric⟩ := hfirst
    obtain ⟨rest, rfl⟩ := List.head?_eq_some_iff.mp hc
    obtain ⟨-, d, hlower, hd⟩ := lowerOne_of_isTokenChar (ht c List.mem_cons_self)
    refine ⟨_, ?_, trimStart_dropLeading hplain⟩
    rw [List.append_assoc]
    exact hword.expression?_eq hlead hlower (hd.trans halphanumeric) fun hmem =>
      (hplain _ hmem).ne_equals rfl

/-! ## Every text is cut in this way -/

/-- A keyword that is found stands at the front of the text, and neither a letter nor a digit
follows it in the lower case of the text. -/
theorem exists_keyword_of_afterKeyword? (h : afterKeyword? cs = some e) :
    ∃ word keyword rest, cs = word ++ rest ∧ IsKeyword word keyword ∧
      e = Text.dropLeading ':' (Text.trimStart rest) ∧
      (Text.lowerAfter word.reverse rest).head?.any Text.isAlphanumeric = false := by
  have hkeywords : keywords.all (fun k => decide ('\u03c2' ∉ k.toList ∧ '\u03c3' ∉ k.toList) &&
      k.toList.all (fun d => decide (d.toNat < 128 ∧ d ≠ 'k')) &&
      decide (k.toList.getLast? ≠ some 'i' ∧ k ∈ ["max", "maximize", "maximizar"])) = true := by
    decide
  obtain ⟨keyword, hfind, rfl⟩ := Option.map_eq_some_iff.mp h
  have hkeyword := List.all_eq_true.mp hkeywords keyword (List.mem_of_find?_eq_some hfind)
  simp only [Bool.and_eq_true, decide_eq_true_eq, List.all_eq_true] at hkeyword
  obtain ⟨⟨hsigma, hletters⟩, hlast, hmem⟩ := hkeyword
  obtain ⟨hstarts, -⟩ := List.find?_eq_some_iff_append.mp hfind
  rw [startsWithKeyword, Bool.and_eq_true, Text.isPrefixOf_lower hsigma,
    List.isPrefixOf_iff_prefix] at hstarts
  obtain ⟨word, rest, rfl, hword⟩ := Text.exists_front_of_prefix hletters hlast hstarts.1
  have hkey : IsKeyword word keyword := ⟨hmem, hword⟩
  refine ⟨word, keyword, rest, rfl, hkey, ?_, ?_⟩
  · rw [← hkey.length_eq, List.drop_left]
  · have hnext := hstarts.2
    rw [Text.lower, Text.lowerAfter_append fun d hd => (hkey.classes_of_mem hd).1,
      ← hkey.length_eq, List.drop_left' (List.length_map _), List.append_nil] at hnext
    simpa using hnext

/-- A text with a keyword at the front is cut behind the keyword and its mark. -/
theorem exists_isIntroducedBy_of_keyword {lead word rest : List Char} {keyword : String}
    (hlead : ∀ c ∈ lead, Text.isBlank c = true) (hword : IsKeyword word keyword)
    (he : e = Text.dropLeading ':' (Text.trimStart rest))
    (hends : (Text.lowerAfter word.reverse rest).head?.any Text.isAlphanumeric = false)
    (hchars : ∀ c ∈ e, Token.isTokenChar c = true) (hne : e ≠ []) :
    ∃ header, lead ++ (word ++ rest) = header ++ e ∧ IsIntroducedBy e header := by
  obtain ⟨gap, hgap, hrest⟩ := Text.exists_trimStart rest
  rcases htrim : Text.trimStart rest with - | ⟨c, more⟩
  · rw [htrim] at he
    exact absurd he hne
  · rw [htrim, Text.dropLeading] at he
    rw [htrim] at hrest
    subst hrest
    split_ifs at he with hcolon
    · -- a colon stands between the keyword and the expression
      subst he hcolon
      refine ⟨lead ++ (word ++ (gap ++ [':'])), ?_,
        .header (.keyword hlead hword (.colon hgap (List.forall_mem_nil _)))⟩
      simp
    · subst he
      cases gap with
      | nil =>
        -- nothing stands between them
        obtain ⟨hsigma, d, hlower, hd⟩ := lowerOne_of_isTokenChar (hchars c List.mem_cons_self)
        rw [List.nil_append, Text.lowerAfter_cons hsigma, hlower] at hends
        exact ⟨lead ++ word, (List.append_assoc ..).symm,
          .keyword hlead hword ⟨c, rfl, hd.symm.trans hends⟩⟩
      | cons b blanks =>
        refine ⟨lead ++ (word ++ b :: blanks), ?_,
          .header (.keyword hlead hword (.blanks (List.cons_ne_nil b blanks) hgap))⟩
        rw [List.append_assoc, List.append_assoc]

/-- **Every text in which an expression is found is cut where the expression is introduced.** -/
theorem exists_isIntroducedBy (hminimum : mentionsMinimum cs = false)
    (h : expression? cs = some e) (hchars : ∀ c ∈ e, Token.isTokenChar c = true) (hne : e ≠ []) :
    ∃ header t, cs = header ++ t ∧ IsIntroducedBy t header ∧
      Text.trimStart t = Text.trimStart e := by
  obtain ⟨lead, hlead, htrim⟩ := Text.exists_trimStart cs
  simp only [expression?] at h
  split at h
  · -- a name
    rename_i t hname
    obtain rfl := Option.some.inj h
    obtain ⟨front, z, gap, hfront, hz, hgap, rfl⟩ := exists_name_of_afterName? hname
    refine ⟨front ++ z :: (gap ++ ['=']), t, by simp, .header (.name ?_ hz hgap ?_), rfl⟩
    · exact afterName?_eq_none_iff.mp hfront
    · exact mt mentionsMinimum_iff.mpr (Bool.eq_false_iff.mp hminimum)
  · split at h
    · -- a keyword
      rename_i t hafter
      obtain rfl := Option.some.inj h
      obtain ⟨word, keyword, rest, hcut, hword, ht, hends⟩ :=
        exists_keyword_of_afterKeyword? hafter
      obtain ⟨header, hheader, hintroduced⟩ :=
        exists_isIntroducedBy_of_keyword hlead hword ht hends hchars hne
      refine ⟨header, t, ?_, hintroduced, rfl⟩
      rw [← hheader, ← hcut]
      exact htrim
    · -- the expression alone
      split_ifs at h
      obtain rfl := Option.some.inj h
      exact ⟨[], cs, rfl, .header .bare, (Text.trimStart_trimStart cs).symm⟩

end Objective

/-! ## Objective functions -/

section Objectives

variable {F : Type}

/-- An expression has characters. -/
theorem IsExpression.ne_nil {cs : List Char} {terms : List WrittenTerm}
    (h : IsExpression cs terms) : cs ≠ [] := by
  rintro rfl
  obtain ⟨⟨kinds, hsplits, hspells⟩, -⟩ := h
  obtain ⟨tokens, hscan, rfl⟩ := Token.scan_eq_ok_iff.mpr hsplits
  rw [Token.scan, Token.scanFrom, Except.ok.injEq] at hscan
  subst hscan
  exact Term.ne_nil_of_spellsExpression hspells rfl

variable [Zero F] [One F] [Add F] [Neg F] [BEq F] [Numeral F] {text : String}
  {e : LinearExpression F}

/-- An objective function that is read is an expression and what introduces it. -/
theorem LinearExpression.exists_isIntroducedBy_of_readObjective (h : readObjective text = .ok e) :
    ∃ header t terms, text.toList = header ++ t ∧ Objective.IsIntroducedBy t header ∧
      IsExpression t terms := by
  obtain ⟨hminimum, expression, terms, hexpression, hterms, -⟩ := readObjective_eq_ok_iff.mp h
  obtain ⟨header, t, hcut, hintroduced, htrim⟩ :=
    Objective.exists_isIntroducedBy hminimum hexpression (fun c hc => hterms.isTokenChar hc)
      hterms.ne_nil
  refine ⟨header, t, terms, hcut, hintroduced, ?_⟩
  rwa [← isExpression_trimStart_iff, htrim, isExpression_trimStart_iff]

/-- **The expression that is read is the one that is introduced**, wherever the text is cut. -/
theorem Objective.IsIntroducedBy.eq_of_readObjective {header t : List Char}
    {terms : List WrittenTerm} (hintroduced : IsIntroducedBy t header)
    (hterms : IsExpression t terms) (hcut : text.toList = header ++ t)
    (h : LinearExpression.readObjective text = .ok e) :
    e = expressionOf terms ∧ (e.constant == 0) = true := by
  obtain ⟨-, expression, terms', hexpression, hterms', rfl, -, hconstant⟩ :=
    LinearExpression.readObjective_eq_ok_iff.mp h
  obtain ⟨expression', hfound, htrim⟩ :=
    hintroduced.expression?_eq fun c hc => hterms.isTokenChar hc
  rw [hcut, hfound] at hexpression
  obtain rfl := Option.some.inj hexpression
  rw [← isExpression_trimStart_iff, htrim, isExpression_trimStart_iff] at hterms'
  exact ⟨hterms'.expressionOf_eq hterms, hconstant⟩

end Objectives

/-! ## Problems -/

section Problems

variable {F : Type} [Field F] [LinearOrder F]

/-- The objective function of a problem has the values of the expression that is read. -/
theorem Problem.objectiveAt_assemble {e : LinearExpression F} (hconstant : (e.constant == 0) = true)
    (entries : List (Entry F)) (eps : F) (x : Nat → F) :
    (assemble e entries eps).standardForm.objectiveAt x = e.valueAt x := by
  have hpadded : (assemble e entries eps).standardForm.objectiveAt x =
      weightedSum e.coefficients x :=
    Constraint.weightedSum_padTo (objective_variableCount_le _ entries) x
  rw [hpadded, LinearExpression.valueAt, beq_iff_eq.mp hconstant, add_zero]

variable [IsStrictOrderedRing F] [Finiteness F] [Numeral F] [ExactNumeral F]

/-- **Reading a problem preserves its meaning.** The text of the objective function is an expression
and what introduces it, and wherever the text is cut in this way, the objective function has the
values of the expression. The rows state what the lines say that are neither blank nor skipped, and
a constraint is skipped exactly when the origin violates it by more than the tolerance. -/
theorem problem_read_preserves_meaning {objective : String} {lines : List String} {eps : F}
    {problem : Problem F} (heps : 0 ≤ eps)
    (hread : Problem.read objective lines eps = .ok problem) :
    (∃ header t terms, objective.toList = header ++ t ∧ Objective.IsIntroducedBy t header ∧
      IsExpression t terms) ∧
    (∀ header t terms, objective.toList = header ++ t → Objective.IsIntroducedBy t header →
      IsExpression t terms →
        ∀ x, problem.standardForm.objectiveAt x = WrittenTerm.sumAt terms x) ∧
    (problem.keptLines lines).length = problem.standardForm.constraintCount ∧
    (∀ i line, (problem.keptLines lines)[i]? = some line →
      problem.standardForm.RowStates eps i line) ∧
    ∀ i line, (i, line) ∈ contentFrom 0 lines → declaresNonnegativity Float line = false →
      (∃ written, IsConstraint line.toList written) ∧
      ∀ written, IsConstraint line.toList written →
        (⟨i, line, .infeasibleAtOrigin⟩ ∈ problem.skipped ↔ written.IsViolatedAtOrigin eps) := by
  obtain ⟨e, entries, he, hlines, rfl, -⟩ := Problem.read_eq_ok_iff.mp hread
  refine ⟨LinearExpression.exists_isIntroducedBy_of_readObjective he, ?_,
    (Problem.forall₂_keptLines hlines e eps).length_eq, ?_, ?_⟩
  · intro header t terms hcut hintroduced hterms x
    obtain ⟨rfl, hconstant⟩ := hintroduced.eq_of_readObjective hterms hcut he
    rw [Problem.objectiveAt_assemble hconstant, WrittenTerm.valueAt_expressionOf]
  · intro i line hline
    exact Problem.rowStates_assemble hlines e eps hline
  · intro i line hline hdeclares
    exact Problem.mem_skipped_assemble_iff hlines heps e hline hdeclares

end Problems

/-- The terms of an expression with two variables. -/
theorem isExpression_two_terms :
    ∃ terms, IsExpression " 3x1 + 2x2".toList terms ∧
      (expressionOf terms : LinearExpression ℚ) = ⟨[3, 2], 0⟩ := by
  have hread : Term.ofText " 3x1 + 2x2" =
      .ok [⟨.plus, some ⟨3, 0⟩, some 0⟩, ⟨.plus, some ⟨2, 0⟩, some 1⟩] := by cbv
  obtain ⟨terms, hterms, heq⟩ := Term.ofText_eq_ok_iff.mp hread
  refine ⟨terms, hterms, ?_⟩
  rw [expressionOf, ← heq]
  decide +kernel

/-- A problem of which the tolerance decides: the first constraint is violated at the origin by a
tenth, the second by two. -/
theorem tolerant_read :
    Problem.read "Z = 3x1 + 2x2" ["x2 = x3 - .1", "x1 - x2 <= -2"] (1 / 8 : ℚ) =
      .ok ⟨⟨[3, 2, 0], [⟨[0, 1, -1], 0⟩]⟩, [⟨1, "x1 - x2 <= -2", .infeasibleAtOrigin⟩]⟩ := by
  have hobjective : LinearExpression.readObjective "Z = 3x1 + 2x2" =
      .ok (⟨[3, 2], 0⟩ : LinearExpression ℚ) := by
    obtain ⟨terms, hterms, heq⟩ := isExpression_two_terms
    exact LinearExpression.readObjective_eq_ok_iff.mpr ⟨by decide +kernel, " 3x1 + 2x2".toList,
      terms, by decide +kernel, hterms, heq.symm, by decide, by decide⟩
  have hkept : Constraint.read "x2 = x3 - .1" =
      .ok (⟨[0, 1, -1], .equal, -1 / 10⟩ : Constraint ℚ) := by
    have hleft : Term.ofText (String.ofList "x2 ".toList) = .ok [⟨.plus, none, some 1⟩] := by cbv
    have hright : Term.ofText (String.ofList " x3 - .1".toList) =
        .ok [⟨.plus, none, some 2⟩, ⟨.minus, some ⟨1, -1⟩, none⟩] := by cbv
    have hcut : Relation.find? "x2 = x3 - .1".toList =
        some ⟨.equal, "x2 ".toList, "=".toList, " x3 - .1".toList⟩ := by decide
    simp only [Constraint.read, hcut, LinearExpression.read, hleft, hright]
    decide +kernel
  have hskipped : Constraint.read "x1 - x2 <= -2" =
      .ok (⟨[1, -1], .atMost, -2⟩ : Constraint ℚ) := by
    have hleft : Term.ofText (String.ofList "x1 - x2 ".toList) =
        .ok [⟨.plus, none, some 0⟩, ⟨.minus, none, some 1⟩] := by cbv
    have hright : Term.ofText (String.ofList " -2".toList) =
        .ok [⟨.minus, some ⟨2, 0⟩, none⟩] := by cbv
    have hcut : Relation.find? "x1 - x2 <= -2".toList =
        some ⟨.atMost, "x1 - x2 ".toList, "<=".toList, " -2".toList⟩ := by decide
    simp only [Constraint.read, hcut, LinearExpression.read, hleft, hright]
    decide +kernel
  have hlines : readLines 0 ["x2 = x3 - .1", "x1 - x2 <= -2"] =
      ⟨[.constraint 0 "x2 = x3 - .1" ⟨[0, 1, -1], .equal, -1 / 10⟩,
        .constraint 1 "x1 - x2 <= -2" ⟨[1, -1], .atMost, (-2 : ℚ)⟩], none⟩ := by
    refine readLines_iff.mpr ⟨by decide +kernel, ?_⟩
    simp only [List.forall_mem_cons]
    refine ⟨?_, ?_, by simp⟩
    · exact Entry.read_eq_ok_iff.mpr (.inr ⟨by decide, _, hkept, by decide, rfl⟩)
    · exact Entry.read_eq_ok_iff.mpr (.inr ⟨by decide, _, hskipped, by decide, rfl⟩)
  exact Problem.read_eq_ok_iff.mpr ⟨_, _, hobjective, hlines, by decide +kernel, by decide +kernel⟩

/-- The objective function, the row of an equation that the origin violates within the tolerance,
and a constraint that it violates beyond. -/
theorem problem_read_preserves_meaning_tolerant :
    ∃ problem : Problem ℚ,
      Problem.read "Z = 3x1 + 2x2" ["x2 = x3 - .1", "x1 - x2 <= -2"] (1 / 8) = .ok problem ∧
      (∀ x, problem.standardForm.objectiveAt x = 3 * x 0 + 2 * x 1) ∧
      problem.standardForm.RowStates (1 / 8) 0 "x2 = x3 - .1" ∧
      ∃ written, IsConstraint "x1 - x2 <= -2".toList written ∧
        written.IsViolatedAtOrigin (1 / 8 : ℚ) := by
  obtain ⟨-, hobjective, -, hrows, hskipped⟩ :=
    problem_read_preserves_meaning (by norm_num) tolerant_read
  obtain ⟨terms, hterms, heq⟩ := isExpression_two_terms
  obtain ⟨⟨written, hwritten⟩, hviolated⟩ := hskipped 1 "x1 - x2 <= -2" (by decide) (by decide)
  have hname : Objective.IsIntroducedBy " 3x1 + 2x2".toList ([] ++ 'Z' :: ([' '] ++ ['='])) :=
    .header (.name (Objective.not_hasName (by decide)) (.inr rfl)
      (List.forall_mem_singleton.mpr (by decide)) (by decide +kernel))
  refine ⟨_, tolerant_read, fun x => ?_, hrows 0 _ (by decide), written, hwritten,
    (hviolated written hwritten).mp (by decide)⟩
  rw [hobjective _ _ _ rfl hname hterms, ← WrittenTerm.valueAt_expressionOf, heq]
  simp [LinearExpression.valueAt, weightedSum, Finset.sum_range_succ]

end PrimalSimplex
