import Mathlib
import PrimalSimplex.Proofs.Expression
import PrimalSimplex.Proofs.Literal
import PrimalSimplex.Proofs.StandardForm

/-!
# The grammar of linear expressions

    expression := [sign] term (sign term)*
    term       := number times variable | number variable | variable | number

The grammar is a relation between tokens and the terms that they spell (`SpellsExpression`). It
leaves open what the texts of numbers and subscripts are; that a number is a literal and that a
subscript is in range is asked of the terms (`TermShape.IsValid`).

`Term.readAll` reads from left to right, and each term takes as many tokens as it can. That this
finds every derivation is due to the signs: after the first term each one begins with a sign, and no
term goes on with one. So the reader accepts the texts of the grammar and no others
(`Term.ofText_eq_ok_iff`), and what it returns is the meaning of the terms, added up from left to
right (`expression_read_iff_grammar`). Nothing is assumed about the arithmetic.
-/

namespace PrimalSimplex

/-! ## Tokens and the terms that they spell -/

/-- The tokens of a term. -/
inductive TermShape.SpelledBy : TermShape → List TokenKind → Prop where
  /-- a number and a variable -/
  | scaled (literal subscript : List Char) :
      SpelledBy ⟨some literal, some subscript⟩ [.number literal, .var subscript]
  /-- a number times a variable -/
  | product (literal subscript : List Char) :
      SpelledBy ⟨some literal, some subscript⟩ [.number literal, .times, .var subscript]
  /-- a variable on its own -/
  | lone (subscript : List Char) : SpelledBy ⟨none, some subscript⟩ [.var subscript]
  /-- a number on its own -/
  | constant (literal : List Char) : SpelledBy ⟨some literal, none⟩ [.number literal]

/-- The number of a term is a literal, and its subscript is in range. -/
structure TermShape.IsValid (shape : TermShape) : Prop where
  /-- the number is a literal -/
  isLiteral : ∀ literal ∈ shape.literal, Decimal.IsLiteral literal
  /-- subscripts count from one and are bounded -/
  subscript_mem : ∀ subscript ∈ shape.subscript,
    1 ≤ digitsValue subscript ∧ digitsValue subscript ≤ 10000

/-- A term as it is written, with its sign. -/
structure WrittenTerm extends TermShape where
  /-- the sign in front of it -/
  sign : Sign

/-- Terms with a sign in front of each: `(sign term)*`. -/
inductive SpellsSigned : List WrittenTerm → List TokenKind → Prop where
  /-- no terms -/
  | nil : SpellsSigned [] []
  /-- a sign and a term, and more of them -/
  | cons {term : WrittenTerm} {kinds : List TokenKind} {terms : List WrittenTerm}
      {rest : List TokenKind} :
      term.SpelledBy kinds → SpellsSigned terms rest →
        SpellsSigned (term :: terms) (.sign term.sign :: (kinds ++ rest))

/-- Terms of which the first may go without a sign: `[sign] term (sign term)*`. -/
inductive SpellsExpression : List WrittenTerm → List TokenKind → Prop where
  /-- the first term has a sign, too -/
  | signed {term : WrittenTerm} {terms : List WrittenTerm} {kinds : List TokenKind} :
      SpellsSigned (term :: terms) kinds → SpellsExpression (term :: terms) kinds
  /-- the first term has no sign, which counts as a plus -/
  | unsigned {shape : TermShape} {kinds : List TokenKind} {terms : List WrittenTerm}
      {rest : List TokenKind} :
      shape.SpelledBy kinds → SpellsSigned terms rest →
        SpellsExpression (⟨shape, .plus⟩ :: terms) (kinds ++ rest)

/-- The text is an expression with the given terms. -/
structure IsExpression (cs : List Char) (terms : List WrittenTerm) : Prop where
  /-- it splits into tokens that spell the terms -/
  spelled : ∃ kinds, Token.Splits cs kinds ∧ SpellsExpression terms kinds
  /-- the terms denote something -/
  isValid : ∀ term ∈ terms, term.IsValid

namespace WrittenTerm

/-- The signed value of a term without its variable. A missing number counts as one. -/
def value {F : Type} [One F] [Neg F] [Numeral F] (term : WrittenTerm) : F :=
  match term.sign, term.literal with
  | .plus, some literal => ofDecimal (Decimal.denoted literal)
  | .minus, some literal => -ofDecimal (Decimal.denoted literal)
  | .plus, none => 1
  | .minus, none => -1

/-- The number that the subscript of a term denotes. -/
def subscriptValue (term : WrittenTerm) : Option Nat := term.subscript.map digitsValue

/-- The term that is read. -/
def term (written : WrittenTerm) : Term :=
  ⟨written.sign, written.literal.map Decimal.denoted,
    written.subscript.map (digitsValue · - 1)⟩

theorem value_term {F : Type} [One F] [Neg F] [Numeral F] (written : WrittenTerm) :
    (written.term.value : F) = written.value := by
  obtain ⟨⟨literal, subscript⟩, sign⟩ := written
  cases sign <;> cases literal <;> rfl

/-- The variable of a term in range is the one that its subscript names. -/
theorem index_term_eq_iff {written : WrittenTerm} (h : written.IsValid) (j : Nat) :
    written.term.index = some j ↔ written.subscriptValue = some (j + 1) := by
  obtain ⟨⟨literal, subscript⟩, sign⟩ := written
  cases subscript with
  | none => simp [term, subscriptValue]
  | some subscript =>
    have hpos := (h.subscript_mem subscript rfl).1
    simp only [term, subscriptValue, Option.map_some, Option.some.injEq]
    omega

theorem index_term_eq_none_iff (written : WrittenTerm) :
    written.term.index = none ↔ written.subscriptValue = none := by
  simp [term, subscriptValue]

theorem index_term_add_one {written : WrittenTerm} (h : written.IsValid) :
    written.term.index.map (· + 1) = written.subscriptValue := by
  obtain ⟨⟨literal, subscript⟩, sign⟩ := written
  cases subscript with
  | none => rfl
  | some subscript =>
    have hpos := (h.subscript_mem subscript rfl).1
    simp only [term, subscriptValue, Option.map_some, Option.some.injEq]
    omega

end WrittenTerm

namespace Term

variable {text : String} {first : Bool} {tokens rest : List Token}

/-! ## One term -/

/-- The index of a subscript. -/
theorem readIndex_eq_ok_iff (subscript : List Char) (index : Nat) :
    readIndex text subscript = .ok index ↔
      (1 ≤ digitsValue subscript ∧ digitsValue subscript ≤ 10000) ∧
        index = digitsValue subscript - 1 := by
  simp only [readIndex, maximumSubscript]
  split_ifs with h <;> simp [h, eq_comm]

/-- The decimal of a literal. -/
theorem readLiteral_eq_ok_iff (literal : List Char) (d : Decimal) :
    readLiteral text literal = .ok d ↔ Decimal.IsLiteral literal ∧ d = Decimal.denoted literal := by
  rw [← Decimal.ofLiteral?_eq_some_iff, readLiteral]
  cases Decimal.ofLiteral? literal <;> simp

/-- A part of a term that may be absent. -/
theorem readPart_eq_ok_iff {α : Type} {read : List Char → Except ParseError α}
    {P : List Char → Prop} {value : List Char → α}
    (hread : ∀ cs a, read cs = .ok a ↔ P cs ∧ a = value cs) {part : Option (List Char)}
    {result : Option α} :
    readPart read part = .ok result ↔ (∀ cs ∈ part, P cs) ∧ result = part.map value := by
  cases part with
  | none => simp [readPart, eq_comm]
  | some cs =>
    rw [readPart, map_eq_ok_iff]
    simp [hread, and_assoc, eq_comm (b := result)]

/-- Reading a term: its sign, its shape, and then what its parts denote. -/
theorem read_eq_ok_iff {term : Term} :
    read text first tokens = .ok (term, rest) ↔
      ∃ sign position afterSign shape,
        readSign text first tokens = .ok (sign, position, afterSign) ∧
        readShape text position afterSign = .ok (shape, rest) ∧ shape.IsValid ∧
        term = (⟨shape, sign⟩ : WrittenTerm).term := by
  simp only [read, bind_eq_ok_iff, readPart_eq_ok_iff readIndex_eq_ok_iff,
    readPart_eq_ok_iff readLiteral_eq_ok_iff]
  constructor
  · rintro ⟨⟨sign, position, afterSign⟩, hsign, ⟨shape, rest⟩, hshape, _, ⟨hsubscript, rfl⟩, _,
      ⟨hnumber, rfl⟩, hterm⟩
    cases hterm
    exact ⟨sign, position, afterSign, shape, hsign, hshape, ⟨hnumber, hsubscript⟩, rfl⟩
  · rintro ⟨sign, position, afterSign, shape, hsign, hshape, hvalid, rfl⟩
    exact ⟨_, hsign, _, hshape, _, ⟨hvalid.subscript_mem, rfl⟩, _, ⟨hvalid.isLiteral, rfl⟩, rfl⟩

/-- A shape that is read is spelled by the tokens that it takes. -/
theorem spelledBy_of_readShape {position : Option Nat} {shape : TermShape}
    (h : readShape text position tokens = .ok (shape, rest)) :
    ∃ spelled, tokens = spelled ++ rest ∧ shape.SpelledBy (spelled.map Token.kind) := by
  unfold readShape at h
  split at h
  case h_1 => cases h; exact ⟨[_, _, _], rfl, .product _ _⟩
  case h_3 => cases h; exact ⟨[_, _], rfl, .scaled _ _⟩
  case h_4 => cases h; exact ⟨[_], rfl, .constant _⟩
  case h_5 => cases h; exact ⟨[_], rfl, .lone _⟩
  case h_6 => split at h <;> cases h
  all_goals cases h

/-- A sign that is read is there, or it is missing where it may be. -/
theorem readSign_cases {sign : Sign} {position : Option Nat} {afterSign : List Token}
    (h : readSign text first tokens = .ok (sign, position, afterSign)) :
    (∃ p, position = some p ∧ tokens = ⟨.sign sign, p⟩ :: afterSign) ∨
      position = none ∧ sign = .plus ∧ tokens = afterSign ∧
        (tokens = [] ∨ first = true ∧
          ∀ token ∈ tokens.head?, ∀ sign, token.kind ≠ .sign sign) := by
  unfold readSign at h
  split at h
  · cases h
    exact .inl ⟨_, rfl, rfl⟩
  · cases h
    exact .inr ⟨rfl, rfl, rfl, .inl rfl⟩
  · rename_i token rest hsign
    split_ifs at h with hfirst
    cases h
    refine .inr ⟨rfl, rfl, rfl, .inr ⟨hfirst, fun head hhead sign hkind => ?_⟩⟩
    obtain rfl := Option.some.inj hhead
    exact hsign sign token.position (by rw [← hkind])

/-- Tokens that begin with a sign, if there are any. No term goes on with them. -/
def BeginsWithSign (tokens : List Token) : Prop :=
  ∀ token ∈ tokens.head?, ∃ sign, token.kind = .sign sign

/-- The tokens of a shape are read as that shape when no term goes on after them. -/
theorem readShape_of_spelledBy {shape : TermShape} {spelled : List Token}
    (h : shape.SpelledBy (spelled.map Token.kind)) (hrest : BeginsWithSign rest)
    (position : Option Nat) : readShape text position (spelled ++ rest) = .ok (shape, rest) := by
  generalize hkinds : spelled.map Token.kind = kinds at h
  cases h with
  | scaled literal subscript =>
    simp only [List.map_eq_cons_iff, List.map_eq_nil_iff] at hkinds
    obtain ⟨⟨_, p⟩, _, rfl, rfl, ⟨_, q⟩, _, rfl, rfl, rfl⟩ := hkinds
    rfl
  | product literal subscript =>
    simp only [List.map_eq_cons_iff, List.map_eq_nil_iff] at hkinds
    obtain ⟨⟨_, p⟩, _, rfl, rfl, ⟨_, q⟩, _, rfl, rfl, ⟨_, r⟩, _, rfl, rfl, rfl⟩ := hkinds
    rfl
  | lone subscript =>
    simp only [List.map_eq_cons_iff, List.map_eq_nil_iff] at hkinds
    obtain ⟨⟨_, p⟩, _, rfl, rfl, rfl⟩ := hkinds
    rfl
  | constant literal =>
    simp only [List.map_eq_cons_iff, List.map_eq_nil_iff] at hkinds
    obtain ⟨⟨_, p⟩, _, rfl, rfl, rfl⟩ := hkinds
    -- a number takes a multiplication sign or a variable that follows it, but not a sign
    cases rest with
    | nil => rfl
    | cons token rest =>
      obtain ⟨sign, hsign⟩ := hrest token rfl
      obtain ⟨kind, q⟩ := token
      obtain rfl : kind = .sign sign := hsign
      rfl

/-- The tokens of a term do not begin with a sign, so its sign is read as missing. -/
theorem readSign_of_spelledBy {shape : TermShape} {spelled : List Token}
    (h : shape.SpelledBy (spelled.map Token.kind)) :
    readSign text true (spelled ++ rest) = .ok (.plus, none, spelled ++ rest) := by
  generalize hkinds : spelled.map Token.kind = kinds at h
  cases h <;>
  · simp only [List.map_eq_cons_iff] at hkinds
    obtain ⟨⟨_, p⟩, more, rfl, rfl, -⟩ := hkinds
    rfl

/-! ## All terms -/

theorem readAll_nil : readAll text first [] = .ok [] := by
  rw [readAll]
  rfl

/-- Where there are tokens a term is read, and then more without the leave to omit a sign. -/
theorem readAll_of_ne_nil (hne : tokens ≠ []) :
    readAll text first tokens =
      read text first tokens >>= fun result =>
        (readAll text false result.2).map (result.1 :: ·) := by
  obtain ⟨token, tokens, rfl⟩ := List.exists_cons_of_ne_nil hne
  rw [readAll]
  simp only [List.isEmpty_cons, Bool.false_eq_true, if_false]
  split
  · rename_i hread
    rw [hread]
    rfl
  · rename_i hread
    rw [hread]
    rfl

/-- Reading terms: there are no tokens, or there is a term and what is left is read as more. -/
theorem readAll_eq_ok_iff {terms : List Term} :
    readAll text first tokens = .ok terms ↔
      tokens = [] ∧ terms = [] ∨
        ∃ term rest more, read text first tokens = .ok (term, rest) ∧
          readAll text false rest = .ok more ∧ terms = term :: more := by
  rcases eq_or_ne tokens [] with rfl | hne
  · rw [readAll_nil]
    constructor
    · intro h
      cases h
      exact .inl ⟨rfl, rfl⟩
    · rintro (⟨-, rfl⟩ | ⟨term, rest, more, hread, -⟩)
      · rfl
      · exact absurd (length_lt_of_read hread) (Nat.not_lt_zero _)
  · simp only [readAll_of_ne_nil hne, bind_eq_ok_iff, map_eq_ok_iff]
    constructor
    · rintro ⟨⟨term, rest⟩, hread, more, hmore, rfl⟩
      exact .inr ⟨term, rest, more, hread, hmore, rfl⟩
    · rintro (⟨hnil, -⟩ | ⟨term, rest, more, hread, hmore, rfl⟩)
      · exact absurd hnil hne
      · exact ⟨(term, rest), hread, more, hmore, rfl⟩

/-- A term that is read is spelled by the tokens that it takes, its sign included. -/
theorem spells_of_read {term : Term} (h : read text first tokens = .ok (term, rest)) :
    ∃ written : WrittenTerm, ∃ spelled : List TokenKind, term = written.term ∧ written.IsValid ∧
      written.SpelledBy spelled ∧
      (tokens.map Token.kind = .sign written.sign :: (spelled ++ rest.map Token.kind) ∨
        first = true ∧ written.sign = .plus ∧
          tokens.map Token.kind = spelled ++ rest.map Token.kind) := by
  obtain ⟨sign, position, afterSign, shape, hsign, hshape, hvalid, rfl⟩ := read_eq_ok_iff.mp h
  obtain ⟨spelled, rfl, hspelled⟩ := spelledBy_of_readShape hshape
  refine ⟨⟨shape, sign⟩, spelled.map Token.kind, rfl, hvalid, hspelled, ?_⟩
  rcases readSign_cases hsign with ⟨p, -, rfl⟩ | ⟨-, rfl, rfl, hempty | ⟨hfirst, -⟩⟩
  · left
    rw [List.map_cons, List.map_append]
  · -- a term has a token
    rw [(List.append_eq_nil_iff.mp hempty).1] at hspelled
    cases hspelled
  · right
    exact ⟨hfirst, rfl, List.map_append⟩

/-- The terms that are read after the first one are spelled by the tokens. -/
theorem spellsSigned_of_readAll {terms : List Term} (h : readAll text false tokens = .ok terms) :
    ∃ written : List WrittenTerm, terms = written.map WrittenTerm.term ∧
      (∀ term ∈ written, term.IsValid) ∧ SpellsSigned written (tokens.map Token.kind) := by
  -- each term takes a token at least, so the induction is on their number
  induction hlength : tokens.length using Nat.strong_induction_on generalizing tokens terms with
  | _ n ih =>
    subst hlength
    rcases readAll_eq_ok_iff.mp h with ⟨rfl, rfl⟩ | ⟨term, rest, more, hread, hmore, rfl⟩
    · exact ⟨[], rfl, by simp, .nil⟩
    · obtain ⟨written, rfl, hvalid, hspells⟩ := ih _ (length_lt_of_read hread) hmore rfl
      obtain ⟨head, spelled, rfl, hhead, hspelled, hkinds | ⟨hfirst, -⟩⟩ := spells_of_read hread
      · refine ⟨head :: written, rfl, List.forall_mem_cons.mpr ⟨hhead, hvalid⟩, ?_⟩
        rw [hkinds]
        exact .cons hspelled hspells
      · cases hfirst

/-- The terms that are read are spelled by the tokens. -/
theorem spellsExpression_of_readAll {terms : List Term} (hne : tokens ≠ [])
    (h : readAll text true tokens = .ok terms) :
    ∃ written : List WrittenTerm, terms = written.map WrittenTerm.term ∧
      (∀ term ∈ written, term.IsValid) ∧ SpellsExpression written (tokens.map Token.kind) := by
  rcases readAll_eq_ok_iff.mp h with ⟨hnil, -⟩ | ⟨term, rest, more, hread, hmore, rfl⟩
  · exact absurd hnil hne
  · obtain ⟨written, rfl, hvalid, hspells⟩ := spellsSigned_of_readAll hmore
    obtain ⟨⟨shape, sign⟩, spelled, rfl, hhead, hspelled, hkinds | ⟨-, rfl, hkinds⟩⟩ :=
      spells_of_read hread
    · refine ⟨⟨shape, sign⟩ :: written, rfl, List.forall_mem_cons.mpr ⟨hhead, hvalid⟩, ?_⟩
      rw [hkinds]
      exact .signed (.cons hspelled hspells)
    · refine ⟨⟨shape, .plus⟩ :: written, rfl, List.forall_mem_cons.mpr ⟨hhead, hvalid⟩, ?_⟩
      rw [hkinds]
      exact .unsigned hspelled hspells

theorem beginsWithSign_of_spellsSigned {written : List WrittenTerm}
    (h : SpellsSigned written (tokens.map Token.kind)) : BeginsWithSign tokens := by
  intro token htoken
  cases tokens with
  | nil => cases htoken
  | cons head tokens =>
    obtain rfl : head = token := Option.some.inj htoken
    cases hkinds : head.kind with
    | sign sign => exact ⟨sign, rfl⟩
    | number | times | var =>
      rw [List.map_cons, hkinds] at h
      cases h

/-- Terms with a sign in front of each are read. -/
theorem readAll_of_spellsSigned {written : List WrittenTerm}
    (h : SpellsSigned written (tokens.map Token.kind)) (hvalid : ∀ term ∈ written, term.IsValid) :
    readAll text first tokens = .ok (written.map WrittenTerm.term) := by
  generalize hkinds : tokens.map Token.kind = kinds at h
  induction h generalizing tokens first with
  | nil =>
    rw [List.map_eq_nil_iff.mp hkinds]
    exact readAll_eq_ok_iff.mpr (.inl ⟨rfl, rfl⟩)
  | @cons term kinds terms rest hspelled hspells ih =>
    obtain ⟨⟨_, p⟩, more, rfl, rfl, hmore⟩ := List.map_eq_cons_iff.mp hkinds
    obtain ⟨spelled, rest, rfl, rfl, rfl⟩ := List.map_eq_append_iff.mp hmore
    obtain ⟨hterm, hterms⟩ := List.forall_mem_cons.mp hvalid
    refine readAll_eq_ok_iff.mpr (.inr ⟨_, rest, _, read_eq_ok_iff.mpr ⟨term.sign, some p,
      spelled ++ rest, term.toTermShape, rfl, ?_, hterm, rfl⟩, ih hterms rfl, rfl⟩)
    exact readShape_of_spelledBy hspelled (beginsWithSign_of_spellsSigned hspells) _

/-- The terms of an expression are read. -/
theorem readAll_of_spellsExpression {written : List WrittenTerm}
    (h : SpellsExpression written (tokens.map Token.kind))
    (hvalid : ∀ term ∈ written, term.IsValid) :
    readAll text true tokens = .ok (written.map WrittenTerm.term) := by
  generalize hkinds : tokens.map Token.kind = kinds at h
  cases h with
  | signed hspells =>
    subst hkinds
    exact readAll_of_spellsSigned hspells hvalid
  | @unsigned shape kinds terms rest hspelled hspells =>
    obtain ⟨spelled, rest, rfl, rfl, rfl⟩ := List.map_eq_append_iff.mp hkinds
    obtain ⟨hterm, hterms⟩ := List.forall_mem_cons.mp hvalid
    refine readAll_eq_ok_iff.mpr (.inr ⟨_, rest, _, read_eq_ok_iff.mpr ⟨.plus, none,
      spelled ++ rest, shape, readSign_of_spelledBy hspelled, ?_, hterm, rfl⟩,
      readAll_of_spellsSigned hspells hterms, rfl⟩)
    exact readShape_of_spelledBy hspelled (beginsWithSign_of_spellsSigned hspells) _

/-! ## Texts -/

theorem ne_nil_of_spellsExpression {written : List WrittenTerm} {kinds : List TokenKind}
    (h : SpellsExpression written kinds) : kinds ≠ [] := by
  rintro rfl
  generalize hkinds : ([] : List TokenKind) = kinds at h
  cases h with
  | signed hspells =>
    subst hkinds
    cases hspells
  | unsigned hspelled _ =>
    rw [(List.append_eq_nil_iff.mp hkinds.symm).1] at hspelled
    cases hspelled

/-- **A text is read exactly when it is an expression**, and its terms are what is read. -/
theorem ofText_eq_ok_iff {terms : List Term} :
    ofText text = .ok terms ↔
      ∃ written, IsExpression text.toList written ∧ terms = written.map WrittenTerm.term := by
  constructor
  · intro h
    unfold ofText at h
    split at h
    · cases h
    · cases h
    · rename_i tokens hne hscan
      obtain ⟨written, rfl, hvalid, hspells⟩ := spellsExpression_of_readAll hne h
      exact ⟨written, ⟨⟨_, Token.scan_eq_ok_iff.mp ⟨tokens, hscan, rfl⟩, hspells⟩, hvalid⟩, rfl⟩
  · rintro ⟨written, ⟨⟨kinds, hsplits, hspells⟩, hvalid⟩, rfl⟩
    obtain ⟨tokens, hscan, rfl⟩ := Token.scan_eq_ok_iff.mpr hsplits
    have hne : tokens ≠ [] := fun hnil => ne_nil_of_spellsExpression hspells (by rw [hnil]; rfl)
    obtain ⟨token, tokens, rfl⟩ := List.exists_cons_of_ne_nil hne
    rw [ofText, hscan]
    exact readAll_of_spellsExpression hspells hvalid

end Term

/-! ## What an expression means -/

section Meaning

variable {F : Type} [Zero F] [One F] [Add F] [Neg F] [Numeral F]

/-- The expression adds up the terms: one coefficient for each variable up to the largest subscript,
each the sum of the terms in its variable, and the sum of the terms without a variable. The sums run
from left to right and start from zero. -/
structure LinearExpression.IsSumOf (e : LinearExpression F) (terms : List WrittenTerm) : Prop where
  /-- the largest subscript is the number of variables, which is zero if there are none -/
  length_eq : e.coefficients.length = (terms.filterMap WrittenTerm.subscriptValue).foldl max 0
  /-- the coefficients -/
  coefficient_eq : ∀ (j : Nat) (hj : j < e.coefficients.length), e.coefficients.get ⟨j, hj⟩ =
    leftSum ((terms.filter (·.subscriptValue = some (j + 1))).map WrittenTerm.value)
  /-- the constant -/
  constant_eq : e.constant =
    leftSum ((terms.filter (·.subscriptValue = none)).map WrittenTerm.value)

omit [Zero F] [Add F] in
/-- The values of the terms that a test selects, before and after reading. -/
theorem map_value_filter_term {terms : List WrittenTerm} {isRead : Term → Bool}
    {isWritten : WrittenTerm → Bool}
    (h : ∀ written ∈ terms, isRead written.term = isWritten written) :
    (((terms.map WrittenTerm.term).filter isRead).map Term.value : List F) =
      (terms.filter isWritten).map WrittenTerm.value := by
  have hfilter : terms.filter (isRead ∘ WrittenTerm.term) = terms.filter isWritten :=
    List.filter_congr h
  rw [List.filter_map, List.map_map, hfilter]
  exact List.map_congr_left fun written _ => written.value_term

/-- The expression that is read from written terms. -/
def expressionOf (terms : List WrittenTerm) : LinearExpression F :=
  .ofTerms (terms.map WrittenTerm.term)

/-- Adding up the terms that are read adds up the terms that are written. -/
theorem LinearExpression.isSumOf_expressionOf {terms : List WrittenTerm}
    (hvalid : ∀ term ∈ terms, term.IsValid) :
    (expressionOf terms : LinearExpression F).IsSumOf terms where
  length_eq := by
    rw [expressionOf, length_ofTerms, List.filterMap_map]
    refine congrArg (List.foldl max 0) (List.filterMap_congr fun term hterm => ?_)
    exact WrittenTerm.index_term_add_one (hvalid term hterm)
  coefficient_eq := by
    intro j hj
    rw [List.get_eq_getElem, ← List.getD_eq_getElem _ 0 hj, expressionOf, getD_ofTerms]
    refine congrArg leftSum (map_value_filter_term fun term hterm => ?_)
    exact decide_eq_decide.mpr (WrittenTerm.index_term_eq_iff (hvalid term hterm) j)
  constant_eq := by
    rw [expressionOf, constant_ofTerms]
    refine congrArg leftSum (map_value_filter_term fun term _ => ?_)
    exact decide_eq_decide.mpr term.index_term_eq_none_iff

theorem LinearExpression.read_eq_ok_iff {text : String} {e : LinearExpression F} :
    LinearExpression.read text = .ok e ↔
      ∃ terms, IsExpression text.toList terms ∧ e = expressionOf terms := by
  rw [LinearExpression.read, map_eq_ok_iff]
  constructor
  · rintro ⟨_, hterms, rfl⟩
    obtain ⟨terms, hexpression, rfl⟩ := Term.ofText_eq_ok_iff.mp hterms
    exact ⟨terms, hexpression, rfl⟩
  · rintro ⟨terms, hexpression, rfl⟩
    exact ⟨_, Term.ofText_eq_ok_iff.mpr ⟨terms, hexpression, rfl⟩, rfl⟩

/-- Whichever terms a text is taken to have, they add up to the same expression. -/
theorem IsExpression.expressionOf_eq {cs : List Char} {terms terms' : List WrittenTerm}
    (h : IsExpression cs terms) (h' : IsExpression cs terms') :
    (expressionOf terms : LinearExpression F) = expressionOf terms' := by
  rw [← String.toList_ofList (l := cs)] at h h'
  have hread := LinearExpression.read_eq_ok_iff (F := F).mpr ⟨terms, h, rfl⟩
  have hread' := LinearExpression.read_eq_ok_iff (F := F).mpr ⟨terms', h', rfl⟩
  exact Except.ok.inj (hread.symm.trans hread')

/-- **The reader of expressions accepts its grammar and computes its meaning.** A text can be read
exactly when it is an expression, and what is read is then the sum of its terms. -/
theorem expression_read_iff_grammar (text : String) :
    ((∃ e : LinearExpression F, LinearExpression.read text = .ok e) ↔
      ∃ terms, IsExpression text.toList terms) ∧
    ∀ e : LinearExpression F, LinearExpression.read text = .ok e →
      ∀ terms, IsExpression text.toList terms → e.IsSumOf terms := by
  refine ⟨⟨?_, ?_⟩, ?_⟩
  · rintro ⟨e, he⟩
    obtain ⟨terms, hterms, -⟩ := LinearExpression.read_eq_ok_iff.mp he
    exact ⟨terms, hterms⟩
  · rintro ⟨terms, hterms⟩
    exact ⟨_, LinearExpression.read_eq_ok_iff.mpr ⟨terms, hterms, rfl⟩⟩
  · intro e he terms hterms
    obtain ⟨terms', hterms', rfl⟩ := LinearExpression.read_eq_ok_iff.mp he
    rw [hterms'.expressionOf_eq hterms]
    exact LinearExpression.isSumOf_expressionOf hterms.isValid

end Meaning

/-- An expression that has every form of a term, a variable twice, and a constant. -/
theorem expression_read_iff_grammar_mixed :
    ∃ terms : List WrittenTerm,
      LinearExpression.read "2.5 * X2 + .5x1 - x2 + 3" =
        .ok (⟨[1 / 2, 3 / 2], 3⟩ : LinearExpression ℚ) ∧
      IsExpression "2.5 * X2 + .5x1 - x2 + 3".toList terms ∧
      (⟨[1 / 2, 3 / 2], 3⟩ : LinearExpression ℚ).IsSumOf terms := by
  have hterms : Term.ofText "2.5 * X2 + .5x1 - x2 + 3" =
      .ok [⟨.plus, some ⟨25, -1⟩, some 1⟩, ⟨.plus, some ⟨5, -1⟩, some 0⟩, ⟨.minus, none, some 1⟩,
        ⟨.plus, some ⟨3, 0⟩, none⟩] := by cbv
  have hread : LinearExpression.read "2.5 * X2 + .5x1 - x2 + 3" =
      .ok (⟨[1 / 2, 3 / 2], 3⟩ : LinearExpression ℚ) := by
    rw [LinearExpression.read, hterms]
    decide +kernel
  obtain ⟨terms, hwritten⟩ := (expression_read_iff_grammar _).1.mp ⟨_, hread⟩
  exact ⟨terms, hread, hwritten, (expression_read_iff_grammar _).2 _ hread terms hwritten⟩

end PrimalSimplex
