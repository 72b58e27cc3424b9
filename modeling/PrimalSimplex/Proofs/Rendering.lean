import PrimalSimplex.Proofs.Constraint
import PrimalSimplex.Proofs.SignedZero

/-!
# What is written can be read

A number type writes plainly (`Numeral.WritesPlainly`) when the text of a magnitude is a literal
that is read as the magnitude, and a negative value is written with a minus in front of it. Then the
text of a list of coefficients is an expression whose terms are known (`writtenFrom`), and reading
adds these up to the same coefficients, only that a zero has lost its sign.

The terms after the first have signs, and each begins with white space, which ends the term before
it. What may follow a term is therefore the same everywhere (`IsContinuation`): the other
coefficients, then perhaps a constant, then white space.

Every coefficient is shown, so the term of the variable with index `j` meets a list of length `j`
and extends it by one entry (`addAt_length`). Therefore the sums of the reader have one summand
each.
-/

namespace PrimalSimplex

/-! ## Numbers -/

section Numbers

variable {F : Type} [Zero F] [Neg F] [LT F] [DecidableLT F]

/-- A value without its sign. -/
def magnitude (value : F) : F := if value < 0 then -value else value

/-- The sign that is written for a value. -/
def signOf (value : F) : Sign := if value < 0 then .minus else .plus

variable [Numeral F]

/-- A sign between blanks. -/
def signText : Sign → List Char
  | .plus => [' ', '+', ' ']
  | .minus => [' ', '-', ' ']

/-- The digits of the magnitude of a value. -/
def literalOf (value : F) : List Char := (Numeral.text (magnitude value)).toList

/-- A value is written as a literal, with a minus in front of it if the value is negative, and the
literal is read as the magnitude of the value. -/
structure Numeral.WritesPlainly (value : F) : Prop where
  /-- the text of the magnitude is a literal -/
  isLiteral : Decimal.IsLiteral (literalOf value)
  /-- the literal is read as the magnitude -/
  ofDecimal_eq : ofDecimal (Decimal.denoted (literalOf value)) = magnitude value
  /-- the sign of a negative value is shown -/
  text_of_neg : value < 0 → Numeral.text value = "-" ++ Numeral.text (-value)

instance [DecidableEq F] (value : F) : Decidable (Numeral.WritesPlainly value) :=
  decidable_of_iff
    (Decimal.IsLiteral (literalOf value) ∧
      ofDecimal (Decimal.denoted (literalOf value)) = magnitude value ∧
      (value < 0 → Numeral.text value = "-" ++ Numeral.text (-value)))
    ⟨fun h => ⟨h.1, h.2.1, h.2.2⟩, fun h => ⟨h.isLiteral, h.ofDecimal_eq, h.text_of_neg⟩⟩

end Numbers

/-! ## Terms -/

section Terms

variable {F : Type} [Zero F] [Neg F] [LT F] [DecidableLT F] [BEq F] [Numeral F]

/-- The term that is written for a coefficient. -/
def writtenTerm (coefficient : F) (index : Nat) : WrittenTerm :=
  ⟨⟨some (literalOf (positiveZero coefficient)), some (Nat.toDigits 10 (index + 1))⟩,
    signOf (positiveZero coefficient)⟩

/-- The tokens of the term without its sign. -/
def termKinds (coefficient : F) (index : Nat) : List TokenKind :=
  [.number (literalOf (positiveZero coefficient)), .var (Nat.toDigits 10 (index + 1))]

theorem spelledBy_termKinds (coefficient : F) (index : Nat) :
    (writtenTerm coefficient index).SpelledBy (termKinds coefficient index) :=
  .scaled _ _

/-- The terms that are written for a list of coefficients, of which the first has the given
index. -/
def writtenFrom (k : Nat) (coefficients : List F) : List WrittenTerm :=
  coefficients.mapIdx fun j c => writtenTerm c (j + k)

/-- The text of the terms after the first. -/
def termsText (k : Nat) (coefficients : List F) : List Char :=
  (String.join (coefficients.mapIdx fun j c => renderTerm c (j + k))).toList

theorem writtenFrom_cons (k : Nat) (c : F) (coefficients : List F) :
    writtenFrom k (c :: coefficients) = writtenTerm c k :: writtenFrom (k + 1) coefficients := by
  simp [writtenFrom, List.mapIdx_cons, Nat.add_right_comm, Nat.add_assoc]

theorem termsText_nil (k : Nat) : termsText k ([] : List F) = [] := rfl

theorem termsText_cons (k : Nat) (c : F) (coefficients : List F) :
    termsText k (c :: coefficients) =
      (renderTerm c k).toList ++ termsText (k + 1) coefficients := by
  simp [termsText, List.mapIdx_cons, Nat.add_right_comm, Nat.add_assoc]

theorem toList_renderCoefficients (c : F) (coefficients : List F) :
    (renderCoefficients (c :: coefficients)).toList =
      (Numeral.text (positiveZero c) ++ variableName 0).toList ++ termsText 1 coefficients := by
  rw [renderCoefficients, String.toList_append, termsText]

theorem toList_variableName (index : Nat) :
    (variableName index).toList = 'x' :: Nat.toDigits 10 (index + 1) := by
  simp [variableName]

/-- A term after the first is a sign between blanks, a literal, and a variable. -/
theorem toList_renderTerm (coefficient : F) (index : Nat) :
    (renderTerm coefficient index).toList =
      signText (signOf (positiveZero coefficient)) ++
        (literalOf (positiveZero coefficient) ++ 'x' :: Nat.toDigits 10 (index + 1)) := by
  rw [renderTerm, literalOf, magnitude, signOf]
  split_ifs <;> simp [toList_variableName, signText]

/-- The first term has no blanks, and only a minus is shown. -/
theorem toList_firstTerm {coefficient : F}
    (h : Numeral.WritesPlainly (positiveZero coefficient)) :
    (Numeral.text (positiveZero coefficient) ++ variableName 0).toList =
      (if positiveZero coefficient < 0 then ['-'] else []) ++
        (literalOf (positiveZero coefficient) ++ 'x' :: Nat.toDigits 10 1) := by
  rw [String.toList_append, toList_variableName, literalOf, magnitude]
  split_ifs with hneg
  · rw [h.text_of_neg hneg, String.toList_append]
    rfl
  · rfl

theorem isValid_writtenTerm {coefficient : F}
    (h : Numeral.WritesPlainly (positiveZero coefficient)) {index : Nat} (hindex : index < 10000) :
    (writtenTerm coefficient index).IsValid where
  isLiteral := by
    rintro literal ⟨⟩
    exact h.isLiteral
  subscript_mem := by
    rintro subscript ⟨⟩
    rw [digitsValue_toDigits]
    omega

/-! ## Splitting rendered texts -/

/-- White space in front of a text is dropped. -/
theorem Token.Splits.blanks {lead rest : List Char} {kinds : List TokenKind}
    (hlead : ∀ c ∈ lead, Text.isBlank c = true) (h : Token.Splits rest kinds) :
    Token.Splits (lead ++ rest) kinds := by
  induction lead with
  | nil => exact h
  | cons c lead ih =>
    obtain ⟨hc, hlead⟩ := List.forall_mem_cons.mp hlead
    exact .blank hc (ih hlead)

/-- White space has no tokens. -/
theorem Token.Splits.of_isBlank {rest : List Char} (h : ∀ c ∈ rest, Text.isBlank c = true) :
    Token.Splits rest [] := by
  have hblanks := Token.Splits.blanks h .done
  rwa [List.append_nil] at hblanks

/-- A sign between blanks is one token. -/
theorem Token.Splits.signText (sign : Sign) {rest : List Char} {kinds : List TokenKind}
    (h : Token.Splits rest kinds) :
    Token.Splits (PrimalSimplex.signText sign ++ rest) (.sign sign :: kinds) := by
  have hblank : Text.isBlank ' ' = true := by decide
  cases sign with
  | plus => exact .blank hblank (.plus (.blank hblank h))
  | minus => exact .blank hblank (.minus (.inl rfl) (.blank hblank h))

/-- A run of digits ends where white space begins. -/
theorem isDigit_head_of_isBlank {rest : List Char} (h : ∀ c ∈ rest, Text.isBlank c = true) :
    ∀ c ∈ rest.head?, c.isDigit = false := fun c hc =>
  Token.isDigit_of_isBlank (h c (List.mem_of_mem_head? hc))

/-- A literal with a variable after it. -/
theorem splits_term {coefficient : F} (h : Numeral.WritesPlainly (positiveZero coefficient))
    (index : Nat) {rest : List Char} {kinds : List TokenKind}
    (hrest : ∀ c ∈ rest.head?, c.isDigit = false) (hsplits : Token.Splits rest kinds) :
    Token.Splits
      (literalOf (positiveZero coefficient) ++ 'x' :: Nat.toDigits 10 (index + 1) ++ rest)
      (termKinds coefficient index ++ kinds) := by
  rw [List.append_assoc, List.cons_append]
  have hdigits : Token.IsMaximalRun Char.isDigit (Nat.toDigits 10 (index + 1)) rest :=
    ⟨fun c => isDigit_of_mem_toDigits, hrest⟩
  refine .number h.isLiteral.ne_nil ⟨fun c => h.isLiteral.isNumeric, ?_⟩
    (.var (.inl rfl) hdigits hsplits)
  intro c hc
  obtain rfl := Option.some.inj hc
  rfl

/-- What may stand after a term: white space, and terms with a sign in front of each. -/
structure IsContinuation (rest : List Char) (terms : List WrittenTerm) : Prop where
  /-- white space ends the term before -/
  isBlank_head : ∀ c ∈ rest.head?, Text.isBlank c = true
  /-- the terms are spelled with their signs -/
  spelled : ∃ kinds, Token.Splits rest kinds ∧ SpellsSigned terms kinds
  /-- the terms denote something -/
  isValid : ∀ term ∈ terms, term.IsValid

namespace IsContinuation

variable {rest : List Char} {terms : List WrittenTerm}

/-- White space has no terms. -/
theorem of_isBlank (h : ∀ c ∈ rest, Text.isBlank c = true) : IsContinuation rest [] where
  isBlank_head c hc := h c (List.mem_of_mem_head? hc)
  spelled := ⟨[], .of_isBlank h, .nil⟩
  isValid := List.forall_mem_nil _

/-- One more term in front, with its sign between blanks. -/
theorem cons {shape : TermShape} {body : List Char} {kinds : List TokenKind} (sign : Sign)
    (hspelled : shape.SpelledBy kinds) (hvalid : shape.IsValid)
    (hsplits : ∀ {kinds'}, Token.Splits rest kinds' → Token.Splits (body ++ rest) (kinds ++ kinds'))
    (h : IsContinuation rest terms) :
    IsContinuation (signText sign ++ (body ++ rest)) (⟨shape, sign⟩ :: terms) where
  isBlank_head := by
    intro c hc
    cases sign <;> obtain rfl := Option.some.inj hc <;> decide
  spelled := by
    obtain ⟨kinds', hkinds, hspells⟩ := h.spelled
    exact ⟨_, .signText sign (hsplits hkinds), .cons hspelled hspells⟩
  isValid := List.forall_mem_cons.mpr ⟨hvalid, h.isValid⟩

/-- The terms after the first. -/
theorem append_termsText {coefficients : List F}
    (hplain : ∀ c ∈ coefficients, Numeral.WritesPlainly (positiveZero c)) {k : Nat}
    (hk : k + coefficients.length ≤ 10000) (h : IsContinuation rest terms) :
    IsContinuation (termsText k coefficients ++ rest) (writtenFrom k coefficients ++ terms) := by
  induction coefficients generalizing k with
  | nil => exact h
  | cons c coefficients ih =>
    obtain ⟨hc, hplain⟩ := List.forall_mem_cons.mp hplain
    rw [List.length_cons] at hk
    have hrest := ih hplain (k := k + 1) (by omega)
    have hdigit := fun c hc => Token.isDigit_of_isBlank (hrest.isBlank_head c hc)
    rw [termsText_cons, toList_renderTerm, writtenFrom_cons, List.append_assoc, List.append_assoc]
    exact .cons _ (spelledBy_termKinds c k) (isValid_writtenTerm hc (by omega))
      (splits_term hc k hdigit) hrest

/-- The first term may have a sign, too. -/
theorem isExpression (h : IsContinuation rest terms) (hne : terms ≠ []) :
    IsExpression rest terms where
  spelled := by
    obtain ⟨kinds, hkinds, hspells⟩ := h.spelled
    obtain ⟨term, terms, rfl⟩ := List.exists_cons_of_ne_nil hne
    exact ⟨kinds, hkinds, .signed hspells⟩
  isValid := h.isValid

/-- **The text of coefficients is an expression**, also with white space in front of it and more
terms after it. -/
theorem isExpression_append {coefficients : List F} (hne : coefficients ≠ [])
    (hlength : coefficients.length ≤ 10000)
    (hplain : ∀ c ∈ coefficients, Numeral.WritesPlainly (positiveZero c)) {lead : List Char}
    (hlead : ∀ c ∈ lead, Text.isBlank c = true) (h : IsContinuation rest terms) :
    IsExpression (lead ++ (renderCoefficients coefficients).toList ++ rest)
      (writtenFrom 0 coefficients ++ terms) := by
  obtain ⟨c, coefficients, rfl⟩ := List.exists_cons_of_ne_nil hne
  obtain ⟨hc, hplain⟩ := List.forall_mem_cons.mp hplain
  rw [List.length_cons] at hlength
  have hrest := h.append_termsText hplain (k := 1) (by omega)
  obtain ⟨kinds, hkinds, hspells⟩ := hrest.spelled
  have hdigit := fun c hc => Token.isDigit_of_isBlank (hrest.isBlank_head c hc)
  have hterm := splits_term hc 0 hdigit hkinds
  have hspelled := spelledBy_termKinds c 0
  rw [toList_renderCoefficients, toList_firstTerm hc, writtenFrom_cons]
  refine ⟨?_, List.forall_mem_cons.mpr ⟨isValid_writtenTerm hc (by omega), hrest.isValid⟩⟩
  rw [writtenTerm, signOf] at hspelled ⊢
  simp only [List.append_assoc, List.cons_append] at hterm ⊢
  split_ifs at hspelled ⊢
  · exact ⟨.sign .minus :: (termKinds c 0 ++ kinds), .blanks hlead (.minus (.inl rfl) hterm),
      .signed (.cons hspelled hspells)⟩
  · exact ⟨termKinds c 0 ++ kinds, .blanks hlead hterm, .unsigned hspelled hspells⟩

end IsContinuation

/-- The text of coefficients is an expression, also with white space around it. -/
theorem isExpression_renderCoefficients {coefficients : List F} (hne : coefficients ≠ [])
    (hlength : coefficients.length ≤ 10000)
    (hplain : ∀ c ∈ coefficients, Numeral.WritesPlainly (positiveZero c)) {lead rest : List Char}
    (hlead : ∀ c ∈ lead, Text.isBlank c = true) (hrest : ∀ c ∈ rest, Text.isBlank c = true) :
    IsExpression (lead ++ (renderCoefficients coefficients).toList ++ rest)
      (writtenFrom 0 coefficients) := by
  have h := (IsContinuation.of_isBlank hrest).isExpression_append hne hlength hplain hlead
  rwa [List.append_nil] at h

/-- The term that is written for a constant. -/
def writtenConstant (literal : List Char) : WrittenTerm := ⟨⟨some literal, none⟩, .plus⟩

/-- A literal on its own denotes a number. -/
theorem isValid_constant {literal : List Char} (h : Decimal.IsLiteral literal) :
    TermShape.IsValid ⟨some literal, none⟩ where
  isLiteral := by
    rintro literal ⟨⟩
    exact h
  subscript_mem := nofun

/-- A literal on its own is an expression. -/
theorem isExpression_literal {literal : List Char} (h : Decimal.IsLiteral literal) :
    IsExpression (' ' :: literal) [writtenConstant literal] where
  spelled := by
    have hsplits := Token.Splits.number h.ne_nil
      ⟨fun c => h.isNumeric, fun c hc => by cases hc⟩ .done
    rw [List.append_nil] at hsplits
    have hspells := SpellsExpression.unsigned (.constant literal) .nil
    exact ⟨_, .blank (by decide) hsplits, hspells⟩
  isValid := List.forall_mem_singleton.mpr (isValid_constant h)

/-! ## Characters of rendered texts -/

/-- The characters of the text of coefficients that are not digits. -/
def marks : List Char := ['.', '+', '-', ' ', 'x']

theorem signText_subset_marks (sign : Sign) : signText sign ⊆ marks := by
  cases sign <;> simp [signText, marks]

omit [BEq F] in
theorem isDigit_or_mem_marks_of_literal {value : F} (h : Numeral.WritesPlainly value) {c : Char}
    (hc : c ∈ literalOf value) : c.isDigit = true ∨ c ∈ marks := by
  rcases h.isLiteral.mem c hc with hdigit | rfl
  · exact .inl hdigit
  · exact .inr (by decide)

omit [BEq F] in
/-- A literal with a variable after it has no other characters. -/
theorem isDigit_or_mem_marks_of_scaled {value : F} (h : Numeral.WritesPlainly value) {n : Nat}
    {c : Char} (hc : c ∈ literalOf value ++ 'x' :: Nat.toDigits 10 n) :
    c.isDigit = true ∨ c ∈ marks := by
  rcases List.mem_append.mp hc with hc | hc
  · exact isDigit_or_mem_marks_of_literal h hc
  · rcases List.mem_cons.mp hc with rfl | hc
    · exact .inr (by decide)
    · exact .inl (isDigit_of_mem_toDigits hc)

theorem isDigit_or_mem_marks_of_termsText {coefficients : List F}
    (hplain : ∀ c ∈ coefficients, Numeral.WritesPlainly (positiveZero c)) (k : Nat) {c : Char}
    (hc : c ∈ termsText k coefficients) : c.isDigit = true ∨ c ∈ marks := by
  induction coefficients generalizing k with
  | nil => cases hc
  | cons coefficient coefficients ih =>
    obtain ⟨hcoefficient, hplain⟩ := List.forall_mem_cons.mp hplain
    rw [termsText_cons, toList_renderTerm, List.append_assoc] at hc
    rcases List.mem_append.mp hc with hc | hc
    · exact .inr (signText_subset_marks _ hc)
    · rcases List.mem_append.mp hc with hc | hc
      · exact isDigit_or_mem_marks_of_scaled hcoefficient hc
      · exact ih hplain (k + 1) hc

/-- **The text of coefficients consists of digits and marks.** -/
theorem isDigit_or_mem_marks {coefficients : List F}
    (hplain : ∀ c ∈ coefficients, Numeral.WritesPlainly (positiveZero c)) {c : Char}
    (hc : c ∈ (renderCoefficients coefficients).toList) : c.isDigit = true ∨ c ∈ marks := by
  cases coefficients with
  | nil => cases hc
  | cons coefficient coefficients =>
    obtain ⟨hcoefficient, hplain⟩ := List.forall_mem_cons.mp hplain
    rw [toList_renderCoefficients, toList_firstTerm hcoefficient, List.append_assoc] at hc
    rcases List.mem_append.mp hc with hc | hc
    · split_ifs at hc
      · exact .inr ((by simp [marks] : ['-'] ⊆ marks) hc)
      · cases hc
    · rcases List.mem_append.mp hc with hc | hc
      · exact isDigit_or_mem_marks_of_scaled hcoefficient hc
      · exact isDigit_or_mem_marks_of_termsText hplain 1 hc

theorem newline_not_mem_renderCoefficients {coefficients : List F}
    (hplain : ∀ c ∈ coefficients, Numeral.WritesPlainly (positiveZero c)) :
    '\n' ∉ (renderCoefficients coefficients).toList := fun hmem =>
  absurd (isDigit_or_mem_marks hplain hmem) (by decide)

/-- There is a digit in the text of coefficients, the subscript of the first variable. -/
theorem one_mem_renderCoefficients {coefficients : List F} (hne : coefficients ≠ []) :
    '1' ∈ (renderCoefficients coefficients).toList := by
  obtain ⟨c, coefficients, rfl⟩ := List.exists_cons_of_ne_nil hne
  rw [toList_renderCoefficients, String.toList_append, toList_variableName]
  exact List.mem_append_left _ (List.mem_append_right _ (by decide))

/-- The text of coefficients begins with a minus or with a number. -/
theorem head?_renderCoefficients {coefficients : List F}
    (hplain : ∀ c ∈ coefficients, Numeral.WritesPlainly (positiveZero c)) {c : Char}
    (hc : c ∈ (renderCoefficients coefficients).toList.head?) :
    c = '-' ∨ Token.isNumeric c = true := by
  cases coefficients with
  | nil => cases hc
  | cons coefficient coefficients =>
    obtain ⟨hcoefficient, -⟩ := List.forall_mem_cons.mp hplain
    rw [toList_renderCoefficients, toList_firstTerm hcoefficient] at hc
    split_ifs at hc
    · exact .inl (Option.some.inj hc).symm
    · obtain ⟨d, literal, hliteral⟩ := List.exists_cons_of_ne_nil hcoefficient.isLiteral.ne_nil
      rw [hliteral] at hc
      obtain rfl : d = c := Option.some.inj hc
      exact .inr (hcoefficient.isLiteral.isNumeric (hliteral ▸ List.mem_cons_self))

end Terms

/-- The text ends with a digit or a point. -/
def EndsWithNumber (cs : List Char) : Prop := ∃ lead c, cs = lead ++ [c] ∧ Token.isNumeric c = true

namespace EndsWithNumber

variable {cs : List Char}

theorem append (lead : List Char) (h : EndsWithNumber cs) : EndsWithNumber (lead ++ cs) := by
  obtain ⟨lead', c, rfl, hc⟩ := h
  exact ⟨lead ++ lead', c, (List.append_assoc _ _ _).symm, hc⟩

theorem of_forall (hne : cs ≠ []) (h : ∀ c ∈ cs, Token.isNumeric c = true) : EndsWithNumber cs :=
  ⟨cs.dropLast, cs.getLast hne, (List.dropLast_append_getLast hne).symm,
    h _ (List.getLast_mem hne)⟩

theorem toDigits (n : Nat) : EndsWithNumber (Nat.toDigits 10 n) :=
  of_forall Nat.toDigits_ne_nil fun _ hc =>
    Bool.or_eq_true_iff.mpr (.inl (isDigit_of_mem_toDigits hc))

theorem ne_nil (h : EndsWithNumber cs) : cs ≠ [] := by
  obtain ⟨lead, c, rfl, -⟩ := h
  exact List.append_ne_nil_of_right_ne_nil lead (List.cons_ne_nil c [])

theorem isNumeric_getLast? (h : EndsWithNumber cs) {c : Char} (hc : c ∈ cs.getLast?) :
    Token.isNumeric c = true := by
  obtain ⟨lead, d, rfl, hd⟩ := h
  rw [List.getLast?_concat] at hc
  obtain rfl : d = c := Option.some.inj hc
  exact hd

variable {F : Type} [Zero F] [Neg F] [LT F] [DecidableLT F] [BEq F] [Numeral F]

theorem append_termsText (h : EndsWithNumber cs) (k : Nat) (coefficients : List F) :
    EndsWithNumber (cs ++ termsText k coefficients) := by
  induction coefficients generalizing cs k with
  | nil =>
    rw [termsText_nil, List.append_nil]
    exact h
  | cons c coefficients ih =>
    rw [termsText_cons, ← List.append_assoc]
    refine ih (append cs ?_) (k + 1)
    rw [toList_renderTerm]
    exact append _ (append _ (append ['x'] (toDigits _)))

theorem renderCoefficients {coefficients : List F} (hne : coefficients ≠ []) :
    EndsWithNumber (PrimalSimplex.renderCoefficients coefficients).toList := by
  obtain ⟨c, coefficients, rfl⟩ := List.exists_cons_of_ne_nil hne
  rw [toList_renderCoefficients, String.toList_append, toList_variableName]
  exact append_termsText (append _ (append ['x'] (toDigits _))) 1 coefficients

end EndsWithNumber

/-! ## Reading rendered texts -/

section Reading

variable {F : Type} [Zero F] [One F] [Add F] [Sub F] [Neg F] [LT F] [LE F] [DecidableLT F] [BEq F]
  [Finiteness F] [Numeral F] [ZeroLaws F]

/-- Adding right after the end of a list extends it by one entry. -/
theorem addAt_length {F : Type} [Zero F] [Add F] (value : F) (coefficients : List F) :
    addAt value coefficients.length coefficients = coefficients ++ [0 + value] := by
  induction coefficients with
  | nil => rfl
  | cons c coefficients ih => rw [List.length_cons, addAt, ih, List.cons_append]

/-- A magnitude with its sign is the value. -/
theorem value_signed {value : F} (h : Numeral.WritesPlainly value)
    (subscript : Option (List Char)) :
    (WrittenTerm.mk ⟨some (literalOf value), subscript⟩ (signOf value)).term.value = value := by
  simp only [WrittenTerm.term, Term.value, signOf, Option.map_some, h.ofDecimal_eq, magnitude]
  split_ifs
  · exact ZeroLaws.neg_neg _
  · rfl

/-- Each term extends the list of coefficients by its own. -/
theorem foldl_add_writtenFrom {coefficients : List F}
    (hplain : ∀ c ∈ coefficients, Numeral.WritesPlainly (positiveZero c)) (e : LinearExpression F) :
    ((writtenFrom e.coefficients.length coefficients).map WrittenTerm.term).foldl
        LinearExpression.add e =
      ⟨e.coefficients ++ coefficients.map positiveZero, e.constant⟩ := by
  induction coefficients generalizing e with
  | nil => simp [writtenFrom]
  | cons c coefficients ih =>
    obtain ⟨hc, hplain⟩ := List.forall_mem_cons.mp hplain
    have hindex : (writtenTerm c e.coefficients.length).term.index =
        some e.coefficients.length := by
      simp only [WrittenTerm.term, writtenTerm, Option.map_some, digitsValue_toDigits,
        Nat.add_sub_cancel]
    have hadd : e.add (writtenTerm c e.coefficients.length).term =
        ⟨e.coefficients ++ [positiveZero c], e.constant⟩ := by
      rw [LinearExpression.add, hindex, writtenTerm, value_signed hc]
      simp only [addAt_length, ZeroLaws.zero_add]
    have hrest := ih hplain ⟨e.coefficients ++ [positiveZero c], e.constant⟩
    rw [List.length_append, List.length_singleton] at hrest
    rw [writtenFrom_cons, List.map_cons, List.foldl_cons, hadd, hrest, List.append_assoc,
      List.map_cons, List.singleton_append]

/-- **Coefficients that are written are read back.** -/
theorem expressionOf_writtenFrom {coefficients : List F}
    (hplain : ∀ c ∈ coefficients, Numeral.WritesPlainly (positiveZero c)) :
    (expressionOf (writtenFrom 0 coefficients) : LinearExpression F) =
      ⟨coefficients.map positiveZero, 0⟩ :=
  foldl_add_writtenFrom hplain ⟨[], 0⟩

end Reading

/-! ## Rows -/

section Rows

variable {F : Type} [Zero F] [Add F] [Sub F] [Neg F] [LT F] [LE F] [DecidableLT F] [BEq F]
  [Finiteness F] [Numeral F] [ZeroLaws F]

omit [Numeral F] in
/-- A value that is not negative is its own magnitude. -/
theorem magnitude_of_nonneg {value : F} (h : 0 ≤ value) :
    magnitude (positiveZero value) = positiveZero value :=
  if_neg (ZeroLaws.not_lt_zero (positiveZero_nonneg h))

theorem expressionOf_rhs [One F] {rhs : F} (h : 0 ≤ rhs)
    (hplain : Numeral.WritesPlainly (positiveZero rhs)) :
    (expressionOf [writtenConstant (literalOf (positiveZero rhs))] : LinearExpression F) =
      ⟨[], positiveZero rhs⟩ := by
  have hvalue := hplain.ofDecimal_eq.trans (magnitude_of_nonneg h)
  change LinearExpression.mk [] (0 + ofDecimal (Decimal.denoted (literalOf (positiveZero rhs)))) = _
  rw [hvalue, ZeroLaws.zero_add]

omit [DecidableLT F] [Numeral F] in
/-- The constraint between coefficients and a constant has both unchanged. -/
theorem Constraint.between_constant (coefficients : List F) (relation : Relation) (rhs : F) :
    between ⟨coefficients, 0⟩ relation ⟨[], rhs⟩ = ⟨coefficients, relation, rhs⟩ := by
  have hzeros : List.zipWith (· - ·) coefficients (List.replicate coefficients.length 0) =
      coefficients := by
    induction coefficients with
    | nil => rfl
    | cons c coefficients ih =>
      rw [List.length_cons, List.replicate_succ, List.zipWith_cons_cons, ih, ZeroLaws.sub_zero]
  simp [between, LinearExpression.variableCount, padTo, hzeros, ZeroLaws.sub_zero]

/-- A row that can be written and read back. -/
structure Row.IsRenderable (row : Row F) : Prop where
  /-- the row has a coefficient -/
  ne_nil : row.coefficients ≠ []
  /-- the subscripts stay in range -/
  length_le : row.coefficients.length ≤ 10000
  /-- the right hand side is not negative -/
  feasibleAtOrigin : row.FeasibleAtOrigin
  /-- its numbers are finite -/
  isFinite : ∀ value ∈ row.rhs :: row.coefficients, isFinite value = true
  /-- its numbers are written plainly -/
  writesPlainly : ∀ value ∈ row.rhs :: row.coefficients,
    Numeral.WritesPlainly (positiveZero value)

/-- A row whose zeros have lost their signs. -/
def Row.withPositiveZeros {F : Type} [Zero F] [BEq F] (row : Row F) : Row F :=
  ⟨row.coefficients.map positiveZero, positiveZero row.rhs⟩

namespace Row.IsRenderable

variable {row : Row F}

theorem toList_render (h : row.IsRenderable) :
    row.render.toList = (renderCoefficients row.coefficients).toList ++ [' '] ++ "<=".toList ++
      (' ' :: literalOf (positiveZero row.rhs)) := by
  rw [literalOf, magnitude_of_nonneg h.feasibleAtOrigin]
  simp [Row.render]

/-- The text of a row is a constraint. -/
theorem isConstraint_render (h : row.IsRenderable) :
    IsConstraint row.render.toList
      ⟨writtenFrom 0 row.coefficients, .atMost,
        [writtenConstant (literalOf (positiveZero row.rhs))]⟩ := by
  obtain ⟨hrhs, hcoefficients⟩ := List.forall_mem_cons.mp h.writesPlainly
  have hleft : IsExpression ([] ++ (renderCoefficients row.coefficients).toList ++ [' '])
      (writtenFrom 0 row.coefficients) :=
    isExpression_renderCoefficients h.ne_nil h.length_le hcoefficients (List.forall_mem_nil _)
      (List.forall_mem_singleton.mpr (by decide))
  exact ⟨_, _, hleft, isExpression_literal hrhs.isLiteral, "<=", List.mem_cons_self,
    h.toList_render⟩

/-- **A row that is written is read back.** -/
theorem read_render [One F] (h : row.IsRenderable) :
    Constraint.read row.render =
      .ok (⟨row.coefficients.map positiveZero, .atMost, positiveZero row.rhs⟩ : Constraint F) := by
  obtain ⟨hrhs, hcoefficients⟩ := List.forall_mem_cons.mp h.writesPlainly
  refine Constraint.read_eq_ok_iff.mpr ⟨_, h.isConstraint_render, ?_, by simpa using h.ne_nil⟩
  rw [WrittenConstraint.constraint, expressionOf_writtenFrom hcoefficients,
    expressionOf_rhs h.feasibleAtOrigin hrhs, Constraint.between_constant]

theorem endsWithNumber_render (h : row.IsRenderable) : EndsWithNumber row.render.toList := by
  obtain ⟨hrhs, -⟩ := List.forall_mem_cons.mp h.writesPlainly
  rw [h.toList_render]
  refine .append _ (.append [' '] (.of_forall hrhs.isLiteral.ne_nil ?_))
  exact fun c => hrhs.isLiteral.isNumeric

theorem newline_not_mem_render (h : row.IsRenderable) : '\n' ∉ row.render.toList := by
  obtain ⟨hrhs, hcoefficients⟩ := List.forall_mem_cons.mp h.writesPlainly
  have hleft := newline_not_mem_renderCoefficients hcoefficients
  have hright : '\n' ∉ literalOf (positiveZero row.rhs) := fun hmem =>
    absurd (hrhs.isLiteral.isNumeric hmem) (by decide)
  rw [h.toList_render]
  simp [hleft, hright]

end Row.IsRenderable

end Rows

end PrimalSimplex
