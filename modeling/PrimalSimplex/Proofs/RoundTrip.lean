import PrimalSimplex.ProblemText
import PrimalSimplex.Proofs.Declaration
import PrimalSimplex.Proofs.Reading

/-!
# A problem that is written is read back

Writing shows every coefficient, so the text of a problem says all that there is to say about it,
and reading finds it again: the lines of the file, the expression in the objective line, the two
sides of each row. The last line declares the variables. It is the only one that becomes no row, and
it is remembered as skipped.

What is read is the problem itself, only that a zero has lost its sign
(`StandardForm.withPositiveZeros`): a minus in front of a zero is not shown.
-/

namespace PrimalSimplex

/-! ## Files -/

namespace ProblemText

/-- A line that is found again in a file: there is no line break in it, there are no blanks around
it, and it is neither empty nor a comment. -/
structure IsContentLine (line : List Char) : Prop where
  /-- there is no line break in it -/
  newline_not_mem : '\n' ∉ line
  /-- it begins with a character that is no blank and does not make it a comment -/
  head : ∃ c ∈ line.head?, Text.isBlank c = false ∧ c ≠ '#' ∧ c ≠ '*'
  /-- it does not end with a blank -/
  last : ∀ c ∈ line.getLast?, Text.isBlank c = false

namespace IsContentLine

variable {line : List Char}

theorem ne_nil (h : IsContentLine line) : line ≠ [] := by
  obtain ⟨c, hc, -⟩ := h.head
  exact List.ne_nil_of_mem (List.mem_of_mem_head? hc)

theorem not_isComment (h : IsContentLine line) : isComment line = false := by
  obtain ⟨c, hc, -, hhash, hstar⟩ := h.head
  simp [isComment, Option.mem_def.mp hc, hhash, hstar]

/-- Indentation is trimmed off. -/
theorem trim_append (h : IsContentLine line) {lead : List Char}
    (hlead : ∀ c ∈ lead, Text.isBlank c = true) : Text.trim (lead ++ line) = line := by
  obtain ⟨c, hc, hblank, -⟩ := h.head
  refine Text.trim_append hlead (fun d hd => ?_) h.last
  rwa [Option.mem_unique hd hc]

theorem getLast?_append (h : IsContentLine line) (lead : List Char) :
    (lead ++ line).getLast? ≠ some '\r' := by
  rw [List.getLast?_append_of_ne_nil lead h.ne_nil]
  intro hreturn
  exact absurd (h.last '\r' hreturn) (by decide)

end IsContentLine

/-- **The lines of a file that was put together from indented lines.** -/
theorem contentLines_flatMap {lines : List (List Char × List Char)} {lead last : List Char}
    (hlines : ∀ line ∈ lines, (∀ c ∈ line.1, c = ' ') ∧ IsContentLine line.2)
    (hlead : ∀ c ∈ lead, c = ' ') (hlast : IsContentLine last) :
    contentLines (lines.flatMap (fun line => line.1 ++ line.2 ++ ['\n']) ++ (lead ++ last)) =
      lines.map Prod.snd ++ [last] := by
  have hindented : ∀ {lead line : List Char}, (∀ c ∈ lead, c = ' ') → IsContentLine line →
      '\n' ∉ lead ++ line ∧ Text.trim (lead ++ line) = line := by
    intro lead line hlead hline
    constructor
    · simp only [List.mem_append, hline.newline_not_mem, or_false]
      intro hmem
      cases hlead '\n' hmem
    · exact hline.trim_append fun c hc => hlead c hc ▸ by decide
  have hsplit :
      Text.lines (lines.flatMap (fun line => line.1 ++ line.2 ++ ['\n']) ++ (lead ++ last)) =
        lines.map (fun line => line.1 ++ line.2) ++ [lead ++ last] := by
    -- a line that ended with a carriage return would lose it, but none does
    rw [← Text.lines_flatMap, List.flatMap_map]
    · intro part hpart
      obtain ⟨line, hmem, rfl⟩ := List.mem_map.mp hpart
      obtain ⟨hblank, hline⟩ := hlines line hmem
      exact ⟨(hindented hblank hline).1, hline.getLast?_append line.1⟩
    · exact (hindented hlead hlast).1
    · exact List.append_ne_nil_of_right_ne_nil _ hlast.ne_nil
  have htrim : lines.map (Text.trim ∘ fun line => line.1 ++ line.2) = lines.map Prod.snd :=
    List.map_congr_left fun line hline =>
      (hindented (hlines line hline).1 (hlines line hline).2).2
  rw [contentLines, hsplit, List.map_append, List.map_map, htrim, List.map_singleton,
    (hindented hlead hlast).2, List.filter_eq_self]
  intro line hline
  have hcontent : IsContentLine line := by
    rcases List.mem_append.mp hline with hline | hline
    · obtain ⟨line, hmem, rfl⟩ := List.mem_map.mp hline
      exact (hlines line hmem).2
    · rwa [List.mem_singleton.mp hline]
  simp [hcontent.ne_nil, hcontent.not_isComment]

end ProblemText

/-! ## The objective line -/

section Objective

variable {F : Type} [Zero F] [Neg F] [LT F] [DecidableLT F] [BEq F] [Numeral F]
  {coefficients : List F}

/-- The line of the objective function. -/
def objectiveText (coefficients : List F) : String :=
  "maximize Z = " ++ renderCoefficients coefficients

theorem toList_objectiveText (coefficients : List F) :
    (objectiveText coefficients).toList =
      "maximize Z = ".toList ++ (renderCoefficients coefficients).toList :=
  String.toList_append

/-- The line consists of digits, of marks, and of the characters before the expression. -/
theorem isDigit_or_mem_of_objectiveText
    (hplain : ∀ c ∈ coefficients, Numeral.WritesPlainly (positiveZero c)) {c : Char}
    (hc : c ∈ (objectiveText coefficients).toList) :
    c.isDigit = true ∨ c ∈ "maximize Z = ".toList ++ marks := by
  rw [toList_objectiveText] at hc
  rcases List.mem_append.mp hc with hc | hc
  · exact .inr (List.mem_append_left _ hc)
  · exact (isDigit_or_mem_marks hplain hc).imp_right (List.mem_append_right _)

/-- There is no `n` in the line, so it mentions no minimisation. -/
theorem mentionsMinimum_objectiveText
    (hplain : ∀ c ∈ coefficients, Numeral.WritesPlainly (positiveZero c)) :
    Objective.mentionsMinimum (objectiveText coefficients).toList = false := by
  have hline : ("maximize Z = ".toList ++ marks).all
      (fun c => decide ¬(c = Text.capitalSigma ∨ 'n' ∈ Text.lowerChar c)) = true := by decide
  by_contra hmentions
  -- the `n` of a minimum comes from the lower case of one character of the line
  obtain ⟨c, hc, hn⟩ := Text.mem_lowerAfter
    (Text.mem_of_occursIn (eq_true_of_ne_false hmentions) (by decide : 'n' ∈ "min".toList))
  refine absurd hn ?_
  rcases isDigit_or_mem_of_objectiveText hplain hc with hdigit | hmem
  · exact Token.forall_isDigit
      (P := fun c => ¬(c = Text.capitalSigma ∨ 'n' ∈ Text.lowerChar c)) (by decide) hdigit
  · exact of_decide_eq_true (List.all_eq_true.mp hline c hmem)

/-- The expression is what follows `Z =`; the `z` before is not followed by an equals sign. -/
theorem expression?_objectiveText (coefficients : List F) :
    Objective.expression? (objectiveText coefficients).toList =
      some (' ' :: (renderCoefficients coefficients).toList) := by
  rw [toList_objectiveText]
  rfl

/-- **The objective function is read back from its line.** -/
theorem readObjective_objectiveText [One F] [Add F] [Sub F] [LE F] [Finiteness F] [ZeroLaws F]
    (hne : coefficients ≠ []) (hlength : coefficients.length ≤ 10000)
    (hplain : ∀ c ∈ coefficients, Numeral.WritesPlainly (positiveZero c)) :
    LinearExpression.readObjective (objectiveText coefficients) =
      .ok ⟨coefficients.map positiveZero, 0⟩ := by
  have hexpression : IsExpression ([' '] ++ (renderCoefficients coefficients).toList ++ [])
      (writtenFrom 0 coefficients) :=
    isExpression_renderCoefficients hne hlength hplain
      (List.forall_mem_singleton.mpr (by decide)) (List.forall_mem_nil _)
  rw [List.append_nil] at hexpression
  refine LinearExpression.readObjective_eq_ok_iff.mpr ⟨mentionsMinimum_objectiveText hplain, _, _,
    expression?_objectiveText coefficients, hexpression, ?_, by simpa using hne,
    ZeroLaws.zero_beq_zero⟩
  rw [expressionOf_writtenFrom hplain]

end Objective

/-! ## The lines of a problem -/

namespace ProblemText.IsContentLine

theorem of_endsWithNumber {line : List Char} (hnewline : '\n' ∉ line)
    (hhead : ∃ c ∈ line.head?, Text.isBlank c = false ∧ c ≠ '#' ∧ c ≠ '*')
    (hlast : EndsWithNumber line) : IsContentLine line :=
  ⟨hnewline, hhead, fun _ hc => (Token.classes_of_isNumeric (hlast.isNumeric_getLast? hc)).1⟩

theorem header : IsContentLine "subject to".toList :=
  ⟨by decide, ⟨'s', rfl, by decide⟩, fun c hc => by obtain rfl := Option.some.inj hc; decide⟩

theorem newline_not_mem_variableName (index : Nat) : '\n' ∉ (variableName index).toList := by
  intro hmem
  rw [toList_variableName] at hmem
  rcases List.mem_cons.mp hmem with hx | hdigit
  · cases hx
  · exact absurd (isDigit_of_mem_toDigits hdigit) (by decide)

theorem declarationText {indices : List Nat} (hne : indices ≠ []) :
    IsContentLine (PrimalSimplex.declarationText indices).toList := by
  refine of_endsWithNumber ?_ ?_ ?_
  · induction indices with
    | nil => exact absurd rfl hne
    | cons index indices ih =>
      cases indices with
      | nil =>
        rw [toList_declarationText_singleton]
        simp [newline_not_mem_variableName]
      | cons next indices =>
        rw [toList_declarationText_cons]
        simp [newline_not_mem_variableName, ih (List.cons_ne_nil _ _)]
  · obtain ⟨index, indices, rfl⟩ := List.exists_cons_of_ne_nil hne
    refine ⟨'x', ?_, by decide⟩
    cases indices with
    | nil =>
      rw [toList_declarationText_singleton, toList_variableName]
      rfl
    | cons next indices =>
      rw [toList_declarationText_cons, toList_variableName]
      rfl
  · rw [PrimalSimplex.declarationText, String.toList_append]
    exact .append _ ⟨" >= ".toList, '0', rfl, rfl⟩

section Numbers

variable {F : Type} [Zero F] [Add F] [Sub F] [Neg F] [LT F] [LE F] [DecidableLT F] [BEq F]
  [Finiteness F] [Numeral F] [ZeroLaws F]

omit [Add F] [Sub F] [LE F] [Finiteness F] [ZeroLaws F] in
theorem objectiveText {coefficients : List F} (hne : coefficients ≠ [])
    (hplain : ∀ c ∈ coefficients, Numeral.WritesPlainly (positiveZero c)) :
    IsContentLine (PrimalSimplex.objectiveText coefficients).toList := by
  refine of_endsWithNumber ?_ ⟨'m', ?_, by decide⟩ ?_
  · intro hmem
    exact absurd (isDigit_or_mem_of_objectiveText hplain hmem) (by decide)
  · rw [toList_objectiveText]
    rfl
  · rw [toList_objectiveText]
    exact .append _ (.renderCoefficients hne)

theorem render {row : Row F} (h : row.IsRenderable) : IsContentLine row.render.toList := by
  obtain ⟨-, hplain⟩ := List.forall_mem_cons.mp h.writesPlainly
  refine of_endsWithNumber h.newline_not_mem_render ?_ h.endsWithNumber_render
  obtain ⟨c, rest, hrest⟩ :=
    List.exists_cons_of_ne_nil (EndsWithNumber.renderCoefficients h.ne_nil).ne_nil
  refine ⟨c, ?_, ?_⟩
  · rw [h.toList_render, hrest]
    rfl
  · rcases head?_renderCoefficients hplain (by rw [hrest]; rfl) with rfl | hnumeric
    · decide
    · refine ⟨(Token.classes_of_isNumeric hnumeric).1, ?_, ?_⟩ <;> rintro rfl <;> cases hnumeric

end Numbers

end ProblemText.IsContentLine

/-! ## Entries -/

section Entries

variable {F : Type} [Zero F] [Add F] [Sub F] [Neg F] [LT F] [LE F] [DecidableLT F] [BEq F]
  [Finiteness F] [Numeral F] [ZeroLaws F] {row : Row F}

/-- The entry that a row is read as. -/
def Row.entry (row : Row F) (index : Nat) : Entry F :=
  .constraint index row.render ⟨row.coefficients.map positiveZero, .atMost, positiveZero row.rhs⟩

namespace Row.IsRenderable

theorem read_entry [One F] (h : row.IsRenderable) (index : Nat) :
    Entry.read index row.render = .ok (row.entry index) := by
  obtain ⟨hrhs, hcoefficients⟩ := List.forall_mem_cons.mp h.isFinite
  refine Entry.read_eq_ok_iff.mpr
    (.inr ⟨h.declaresNonnegativity_render, _, h.read_render, ?_, rfl⟩)
  rw [Constraint.allFinite, List.all_map, isFinite_positiveZero hrhs, Bool.and_true,
    List.all_eq_true]
  exact fun c hc => isFinite_positiveZero (hcoefficients c hc)

/-- The entry of a row becomes the row, whatever the tolerance. -/
theorem row?_entry [DecidableLE F] (h : row.IsRenderable) (index : Nat) (eps : F) :
    (row.entry index).row? row.variableCount eps = some row.withPositiveZeros := by
  have hrhs := positiveZero_nonneg h.feasibleAtOrigin
  have hsnap : snapToZero eps (positiveZero row.rhs) = positiveZero row.rhs :=
    if_neg fun hnegative => ZeroLaws.not_lt_zero hrhs hnegative.1
  have hpad : padTo row.variableCount (row.coefficients.map positiveZero) =
      row.coefficients.map positiveZero :=
    padTo_of_length_le (List.length_map _).ge
  refine Entry.row?_eq_some_iff.mpr ⟨_, _, _, rfl, ?_, hrhs⟩
  rw [Constraint.toRow, hpad, hsnap]
  rfl

theorem skipped?_entry [DecidableLE F] (h : row.IsRenderable) (index : Nat) (eps : F) :
    (row.entry index).skipped? row.variableCount eps = none := by
  have hsome := (row.entry index).isSome_skipped? row.variableCount eps
  rw [h.row?_entry] at hsome
  exact Option.isNone_iff_eq_none.mp (by simpa using hsome)

end Row.IsRenderable

/-- Lines that are trimmed and not blank keep their places. -/
theorem contentFrom_of_trimmed {lines : List String}
    (h : ∀ line ∈ lines, ProblemText.IsContentLine line.toList) (index : Nat) :
    contentFrom index lines = (lines.zipIdx index).map Prod.swap := by
  induction lines generalizing index with
  | nil => rfl
  | cons line lines ih =>
    obtain ⟨hline, hlines⟩ := List.forall_mem_cons.mp h
    have htrim : Text.trim line.toList = line.toList := hline.trim_append (List.forall_mem_nil _)
    have hne : (Text.trim line.toList).isEmpty = false := by
      rw [htrim]
      exact List.isEmpty_eq_false_iff.mpr hline.ne_nil
    rw [contentFrom_cons hne, ih hlines, htrim, String.ofList_toList, List.zipIdx_cons,
      List.map_cons, Prod.swap_prod_mk]

/-- The objective function alone decides about the number of variables when no line has more. -/
theorem Problem.variableCount_eq {F : Type} {objective : LinearExpression F}
    {entries : List (Entry F)}
    (h : ∀ entry ∈ entries, entry.variableCount ≤ objective.variableCount) :
    variableCount objective entries = objective.variableCount := by
  have hmax : ∀ values : List Nat, (∀ value ∈ values, value ≤ objective.variableCount) →
      values.foldl max objective.variableCount = objective.variableCount := by
    intro values hvalues
    induction values with
    | nil => rfl
    | cons value values ih =>
      obtain ⟨hvalue, hvalues⟩ := List.forall_mem_cons.mp hvalues
      rw [List.foldl_cons, max_eq_left hvalue, ih hvalues]
  refine hmax _ fun value hvalue => ?_
  obtain ⟨entry, hentry, rfl⟩ := List.mem_map.mp hvalue
  exact h entry hentry

end Entries

/-! ## Problems -/

namespace StandardForm

theorem mem_numbers {F : Type} {problem : StandardForm F} {value : F} :
    value ∈ problem.numbers ↔ value ∈ problem.objective ∨
      ∃ row ∈ problem.constraints, value ∈ row.rhs :: row.coefficients := by
  simp only [numbers, List.mem_append, List.mem_flatMap, List.mem_map, List.mem_cons]
  grind

section Layout

variable {F : Type} [Zero F] [Neg F] [LT F] [DecidableLT F] [BEq F] [Numeral F]

/-- The constraint lines of a written problem. -/
def constraintTexts (problem : StandardForm F) : List String :=
  problem.constraints.map Row.render ++ [declarationText (List.range problem.variableCount)]

/-- The entries that they are read as. -/
def entries (problem : StandardForm F) : List (Entry F) :=
  problem.constraints.zipIdx.map (fun (row, i) => row.entry i) ++
    [.declaration problem.constraintCount (declarationText (List.range problem.variableCount))]

/-- A written problem is made up of indented lines. -/
theorem toList_render (problem : StandardForm F) :
    problem.render.toList =
      (([], (objectiveText problem.objective).toList) :: ([], "subject to".toList) ::
        problem.constraints.map fun row => ("    ".toList, row.render.toList)).flatMap
          (fun line => line.1 ++ line.2 ++ ['\n']) ++
        ("    ".toList ++ (declarationText (List.range problem.variableCount)).toList) := by
  have hheader : "\nsubject to\n".toList = ['\n'] ++ ("subject to".toList ++ ['\n']) := rfl
  have hbreak : "\n".toList = ['\n'] := rfl
  unfold render objectiveText declarationText
  simp only [String.toList_join, List.flatMap_cons, List.flatMap_map, String.toList_append, hheader,
    hbreak, List.nil_append, List.append_assoc]

end Layout

/-- A problem whose zeros have lost their signs. -/
def withPositiveZeros {F : Type} [Zero F] [BEq F] (problem : StandardForm F) : StandardForm F :=
  ⟨problem.objective.map positiveZero, problem.constraints.map Row.withPositiveZeros⟩

theorem numbers_withPositiveZeros {F : Type} [Zero F] [BEq F] (problem : StandardForm F) :
    problem.withPositiveZeros.numbers = problem.numbers.map positiveZero := by
  simp [numbers, withPositiveZeros, List.flatMap_map, List.map_flatMap, Row.withPositiveZeros]

variable {F : Type} [Zero F] [Neg F] [LT F] [LE F] [DecidableLT F] [BEq F] [Finiteness F]
  [Numeral F]

/-- A problem that can be written and read back. -/
structure IsRenderable (problem : StandardForm F) : Prop where
  /-- there are variables -/
  objective_ne_nil : problem.objective ≠ []
  /-- the subscripts stay in range -/
  variableCount_le : problem.variableCount ≤ 10000
  /-- there are constraints -/
  constraints_ne_nil : problem.constraints ≠ []
  /-- the rows fit the objective function, and no right hand side is negative -/
  isWellFormed : problem.IsWellFormed
  /-- its numbers are finite -/
  isFinite : ∀ value ∈ problem.numbers, isFinite value = true
  /-- its numbers are written plainly -/
  writesPlainly : ∀ value ∈ problem.numbers, Numeral.WritesPlainly (positiveZero value)

namespace IsRenderable

variable {problem : StandardForm F}

theorem isRenderable_row (h : problem.IsRenderable) {row : Row F}
    (hrow : row ∈ problem.constraints) : row.IsRenderable := by
  have hwidth : row.coefficients.length = problem.objective.length :=
    h.isWellFormed.width row hrow
  have hnumbers : ∀ value ∈ row.rhs :: row.coefficients, value ∈ problem.numbers :=
    fun value hvalue => mem_numbers.mpr (.inr ⟨row, hrow, hvalue⟩)
  constructor
  · rw [← List.length_pos_iff, hwidth]
    exact List.length_pos_iff.mpr h.objective_ne_nil
  · rw [hwidth]
    exact h.variableCount_le
  · exact h.isWellFormed.feasibleAtOrigin row hrow
  · exact fun value hvalue => h.isFinite value (hnumbers value hvalue)
  · exact fun value hvalue => h.writesPlainly value (hnumbers value hvalue)

theorem writesPlainly_objective (h : problem.IsRenderable) :
    ∀ c ∈ problem.objective, Numeral.WritesPlainly (positiveZero c) :=
  fun c hc => h.writesPlainly c (mem_numbers.mpr (.inl hc))

theorem range_ne_nil (h : problem.IsRenderable) : List.range problem.variableCount ≠ [] := by
  rw [Ne, List.range_eq_nil, variableCount, List.length_eq_zero_iff]
  exact h.objective_ne_nil

theorem hasDigit (h : problem.IsRenderable) {line : String}
    (hline : line ∈ problem.constraintTexts) : ProblemText.hasDigit line.toList = true := by
  rcases List.mem_append.mp hline with hline | hline
  · obtain ⟨row, hrow, rfl⟩ := List.mem_map.mp hline
    rw [Row.render, String.toList_append, String.toList_append]
    exact List.any_eq_true.mpr ⟨'1', List.mem_append_left _
      (List.mem_append_left _ (one_mem_renderCoefficients (h.isRenderable_row hrow).ne_nil)), rfl⟩
  · rw [List.mem_singleton.mp hline, declarationText, String.toList_append]
    exact List.any_eq_true.mpr ⟨'0', List.mem_append_right _ (by decide), rfl⟩

theorem variableCount_entries (h : problem.IsRenderable) :
    Problem.variableCount ⟨problem.objective.map positiveZero, 0⟩ problem.entries =
      problem.variableCount := by
  have hobjective : (⟨problem.objective.map positiveZero, 0⟩ : LinearExpression F).variableCount =
      problem.variableCount := List.length_map _
  rw [Problem.variableCount_eq, hobjective]
  intro entry hentry
  rw [hobjective]
  rcases List.mem_append.mp hentry with hentry | hentry
  · obtain ⟨⟨row, i⟩, hrow, rfl⟩ := List.mem_map.mp hentry
    rw [← h.isWellFormed.width row (List.fst_mem_of_mem_zipIdx hrow)]
    exact (List.length_map _).le
  · rw [List.mem_singleton.mp hentry]
    exact Nat.zero_le _

variable [Add F] [Sub F] [ZeroLaws F]

theorem isContentLine (h : problem.IsRenderable) {line : String}
    (hline : line ∈ problem.constraintTexts) : ProblemText.IsContentLine line.toList := by
  rcases List.mem_append.mp hline with hline | hline
  · obtain ⟨row, hrow, rfl⟩ := List.mem_map.mp hline
    exact .render (h.isRenderable_row hrow)
  · rw [List.mem_singleton.mp hline]
    exact .declarationText h.range_ne_nil

/-- Nothing but the indentation is lost. -/
theorem contentLines_render (h : problem.IsRenderable) :
    ProblemText.contentLines problem.render.toList =
      (objectiveText problem.objective).toList :: "subject to".toList ::
        problem.constraintTexts.map String.toList := by
  rw [toList_render, ProblemText.contentLines_flatMap]
  · simp [constraintTexts]
  · simp only [List.forall_mem_cons, List.forall_mem_map]
    refine ⟨⟨List.forall_mem_nil _, ?_⟩, ⟨List.forall_mem_nil _, .header⟩, fun row hrow => ?_⟩
    · exact .objectiveText h.objective_ne_nil h.writesPlainly_objective
    · exact ⟨by simp, .render (h.isRenderable_row hrow)⟩
  · simp
  · exact .declarationText h.range_ne_nil

/-- **The lines of a written problem are found again.** The header has no digit. -/
theorem ofContents?_render (h : problem.IsRenderable) :
    ProblemText.ofContents? problem.render =
      some ⟨objectiveText problem.objective, problem.constraintTexts⟩ := by
  have hobjective : ProblemText.hasDigit (objectiveText problem.objective).toList = true := by
    rw [toList_objectiveText]
    exact List.any_eq_true.mpr ⟨'1', List.mem_append_right _
      (one_mem_renderCoefficients h.objective_ne_nil), rfl⟩
  have hheader : ProblemText.hasDigit "subject to".toList = false := by decide
  have hfilter : (problem.constraintTexts.map String.toList).filter ProblemText.hasDigit =
      problem.constraintTexts.map String.toList := by
    rw [List.filter_eq_self, List.forall_mem_map]
    exact fun line => h.hasDigit
  have hround : String.ofList ∘ String.toList = id := funext fun _ => String.ofList_toList
  rw [ProblemText.ofContents?, h.contentLines_render, ProblemText.split?, if_pos hobjective]
  simp only [Option.map_some, ProblemText.withDirection, String.ofList_toList,
    List.filter_cons_of_neg (Bool.not_eq_true _ ▸ hheader), hfilter, List.map_map, hround,
    List.map_id]

/-- **The constraint lines of a written problem are read.** -/
theorem readLines_constraintTexts [One F] (h : problem.IsRenderable) :
    readLines 0 problem.constraintTexts = ⟨problem.entries, none⟩ := by
  refine readLines_iff.mpr ⟨?_, ?_⟩
  · -- the declaration comes after the rows, so its index is their number
    rw [contentFrom_of_trimmed fun line => h.isContentLine]
    simp [entries, constraintTexts, constraintCount, List.zipIdx_append, List.zipIdx_map,
      Entry.numbered, Row.entry]
  · intro entry hentry
    rcases List.mem_append.mp hentry with hentry | hentry
    · obtain ⟨⟨row, i⟩, hrow, rfl⟩ := List.mem_map.mp hentry
      exact (h.isRenderable_row (List.fst_mem_of_mem_zipIdx hrow)).read_entry i
    · rw [List.mem_singleton.mp hentry]
      refine Entry.read_eq_ok_iff.mpr (.inl ⟨?_, rfl⟩)
      refine declaresNonnegativity_declarationText h.range_ne_nil fun index hindex => ?_
      exact lt_of_lt_of_le (List.mem_range.mp hindex) h.variableCount_le

/-- The entries of the rows become the rows. -/
theorem filterMap_row?_entries [DecidableLE F] (h : problem.IsRenderable) (eps : F) :
    problem.entries.filterMap (Entry.row? problem.variableCount eps) =
      problem.constraints.map Row.withPositiveZeros := by
  have hrow : ∀ p ∈ problem.constraints.zipIdx,
      (p.1.entry p.2).row? problem.variableCount eps =
        (some ∘ Row.withPositiveZeros ∘ Prod.fst) p := by
    rintro ⟨row, i⟩ hmem
    have hrow := List.fst_mem_of_mem_zipIdx hmem
    rw [← h.isWellFormed.width row hrow, (h.isRenderable_row hrow).row?_entry]
    rfl
  calc problem.entries.filterMap (Entry.row? problem.variableCount eps)
    _ = problem.constraints.zipIdx.filterMap (some ∘ Row.withPositiveZeros ∘ Prod.fst) ++ [] := by
      rw [entries, List.filterMap_append, List.filterMap_map, ← List.filterMap_congr hrow]
      rfl
    _ = problem.constraints.map Row.withPositiveZeros := by
      rw [List.append_nil, List.filterMap_eq_map, ← List.map_map, List.zipIdx_map_fst]

/-- Only the declaration is skipped. -/
theorem filterMap_skipped?_entries [DecidableLE F] (h : problem.IsRenderable) (eps : F) :
    problem.entries.filterMap (Entry.skipped? problem.variableCount eps) =
      [⟨problem.constraintCount, declarationText (List.range problem.variableCount),
        .nonnegativity⟩] := by
  rw [entries, List.filterMap_append, List.filterMap_map, List.filterMap_eq_nil_iff.mpr]
  · rfl
  · rintro ⟨row, i⟩ hmem
    have hrow := List.fst_mem_of_mem_zipIdx hmem
    rw [← h.isWellFormed.width row hrow]
    exact (h.isRenderable_row hrow).skipped?_entry i eps

theorem assemble_entries [One F] [DecidableLE F] (h : problem.IsRenderable) (eps : F) :
    Problem.assemble ⟨problem.objective.map positiveZero, 0⟩ problem.entries eps =
      ⟨problem.withPositiveZeros,
        [⟨problem.constraintCount, declarationText (List.range problem.variableCount),
          .nonnegativity⟩]⟩ := by
  have hpad : padTo problem.variableCount (problem.objective.map positiveZero) =
      problem.objective.map positiveZero := padTo_of_length_le (List.length_map _).ge
  simp only [Problem.assemble, h.variableCount_entries, h.filterMap_row?_entries,
    h.filterMap_skipped?_entries, hpad, withPositiveZeros]

/-- A problem keeps what is checked of it when its zeros lose their signs. -/
theorem fault?_withPositiveZeros [DecidableLE F] (h : problem.IsRenderable) :
    problem.withPositiveZeros.fault? = none := by
  have hwellFormed : problem.withPositiveZeros.IsWellFormed := by
    constructor
    · refine List.forall_mem_map.mpr fun row hrow => ?_
      have hwidth := h.isWellFormed.width row hrow
      simp only [Row.variableCount, variableCount] at hwidth
      simp only [Row.variableCount, variableCount, withPositiveZeros, Row.withPositiveZeros,
        List.length_map, hwidth]
    · refine List.forall_mem_map.mpr fun row hrow => ?_
      exact positiveZero_nonneg (h.isWellFormed.feasibleAtOrigin row hrow)
  refine hwellFormed.fault?_eq_none ?_ ?_ ?_
  · simpa [withPositiveZeros] using h.objective_ne_nil
  · simpa [withPositiveZeros] using h.constraints_ne_nil
  · rw [numbers_withPositiveZeros]
    refine List.forall_mem_map.mpr fun value hvalue => ?_
    exact isFinite_positiveZero (h.isFinite value hvalue)

/-- **A written problem is read back from its lines.** -/
theorem read_constraintTexts [One F] [DecidableLE F] (h : problem.IsRenderable) (eps : F) :
    Problem.read (objectiveText problem.objective) problem.constraintTexts eps =
      .ok ⟨problem.withPositiveZeros,
        [⟨problem.constraintCount, declarationText (List.range problem.variableCount),
          .nonnegativity⟩]⟩ :=
  Problem.read_eq_ok_iff.mpr ⟨_, problem.entries,
    readObjective_objectiveText h.objective_ne_nil h.variableCount_le h.writesPlainly_objective,
    h.readLines_constraintTexts, (h.assemble_entries eps).symm, h.fault?_withPositiveZeros⟩

end IsRenderable

end StandardForm

section RoundTrip

variable {F : Type} [Zero F] [One F] [Add F] [Sub F] [Neg F] [LT F] [LE F] [DecidableLT F]
  [DecidableLE F] [BEq F] [Finiteness F] [Numeral F] [ZeroLaws F]

/-- **A problem that is written is read back.** It is enough that its own numbers are written
plainly; the tolerance does not matter, since no right hand side is negative. All rows become rows
again, and the one skipped line is the declaration of the variables, which comes after them. -/
theorem rendered_problem_reads_back (problem : StandardForm F)
    (hvariables : 1 ≤ problem.variableCount ∧ problem.variableCount ≤ 10000)
    (hconstraints : 1 ≤ problem.constraintCount) (hwellFormed : problem.IsWellFormed)
    (hfinite : ∀ value ∈ problem.numbers, isFinite value = true)
    (hplain : ∀ value ∈ problem.numbers, Numeral.WritesPlainly (positiveZero value)) (eps : F) :
    ∃ text, ProblemText.ofContents? problem.render = some text ∧
      Problem.read text.objective text.constraints eps =
        .ok ⟨problem.withPositiveZeros,
          [⟨problem.constraintCount,
            ", ".intercalate ((List.range problem.variableCount).map variableName) ++ " >= 0",
            .nonnegativity⟩]⟩ := by
  have h : problem.IsRenderable :=
    ⟨List.length_pos_iff.mp hvariables.1, hvariables.2, List.length_pos_iff.mp hconstraints,
      hwellFormed, hfinite, hplain⟩
  exact ⟨_, h.ofContents?_render, h.read_constraintTexts eps⟩

end RoundTrip

/-- A problem with a fraction, a negative coefficient and a negative zero. -/
def StandardForm.negativeZero : StandardForm Float := ⟨[2.5, -1], [⟨[-0, 3], 4⟩]⟩

/-- The negative zero is read back as a zero, everything else as it was. -/
theorem rendered_problem_reads_back_negativeZero :
    ∃ text, ProblemText.ofContents? StandardForm.negativeZero.render = some text ∧
      Problem.read text.objective text.constraints (0.5 : Float) =
        .ok ⟨⟨[2.5, -1], [⟨[0, 3], 4⟩]⟩, [⟨1, "x1, x2 >= 0", .nonnegativity⟩]⟩ := by
  have hfinite : ∀ value ∈ StandardForm.negativeZero.numbers, isFinite value = true := by
    decide +kernel
  have hplain : ∀ value ∈ StandardForm.negativeZero.numbers,
      Numeral.WritesPlainly (positiveZero value) := by
    decide +kernel
  exact rendered_problem_reads_back StandardForm.negativeZero (by decide) (by decide)
    (by decide +kernel) hfinite hplain 0.5

end PrimalSimplex
