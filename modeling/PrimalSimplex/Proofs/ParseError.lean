import PrimalSimplex.Proofs.Grammar
import PrimalSimplex.Proofs.Position

/-!
# What the errors of expressions point at

Terms are read one after the other, so an error is the fault of the first term that has one
(`Term.exists_fault`). What a term is read as depends on the tokens that it takes and on the sort of
the one after them. Therefore a beginning of the text is read in the same way up to the same place:
if it ends before the faulty term, it is read without error, and if it goes on, it has the same
fault. This is why a sign that is missing or has no term after it marks the end of the longest
beginning of the text that is an expression (`sign_error_ends_longest_expression`).

The character that an error names is the one at its position, with one exception: a misplaced
multiplication sign is always called `*`, also where the text has a middle dot
(`unexpected_character_is_there_or_times`).
-/

namespace PrimalSimplex

namespace Term

variable {text : String} {first : Bool} {tokens rest : List Token}

/-! ## The fault of a term -/

/-- The tokens do not begin with a number or a variable: there are none, or a sign or a
multiplication sign comes first. -/
def LacksTerm (tokens : List Token) : Prop :=
  ∀ token ∈ tokens.head?, token.kind = .times ∨ ∃ sign, token.kind = .sign sign

/-- What can be wrong with the term that the tokens begin with. The first term of an expression may
go without a sign. -/
inductive IsFault (text : String) (first : Bool) : List Token → ParseError → Prop where
  /-- the term has no sign -/
  | missingSign {token : Token} {rest : List Token} :
      first = false → (∀ sign, token.kind ≠ .sign sign) →
        IsFault text first (token :: rest) (.missingSign token.position text)
  /-- the sign has no term after it -/
  | danglingSign {sign : Sign} {position : Nat} {rest : List Token} : LacksTerm rest →
      IsFault text first (⟨.sign sign, position⟩ :: rest) (.danglingSign position text)
  /-- a multiplication sign stands where none may, or has no variable after it -/
  | misplacedTimes (lead : List Token) {rest : List Token} {position : Nat} :
      IsFault text first (lead ++ ⟨.times, position⟩ :: rest)
        (.unexpectedCharacter '*' position text)
  /-- the subscript is out of range -/
  | invalidSubscript {tokens : List Token} (subscript : String) :
      IsFault text first tokens (.invalidSubscript subscript text)
  /-- the number is not a literal -/
  | invalidNumber {tokens : List Token} (literal : String) :
      IsFault text first tokens (.invalidNumber literal text)

theorem readSign_of_ne_sign {token : Token} (h : ∀ sign, token.kind ≠ .sign sign) :
    readSign text first (token :: rest) =
      if first then .ok (.plus, none, token :: rest)
      else .error (.missingSign token.position text) := by
  obtain ⟨kind, position⟩ := token
  cases kind with
  | sign sign => exact absurd rfl (h sign)
  | number | times | var => rfl

/-- A shape that cannot be read: a multiplication sign is misplaced, or there is no term. -/
theorem readShape_eq_error {position : Option Nat} {e : ParseError}
    (h : readShape text position tokens = .error e) :
    (∃ lead p rest, tokens = lead ++ ⟨.times, p⟩ :: rest ∧
      e = .unexpectedCharacter '*' p text) ∨
    LacksTerm tokens ∧ ((∃ p, position = some p ∧ e = .danglingSign p text) ∨
      position = none ∧ ∀ token ∈ tokens.head?, ∃ sign, token.kind = .sign sign) := by
  unfold readShape at h
  split at h
  case h_2 =>
    cases h
    exact .inl ⟨[_], _, _, rfl, rfl⟩
  case h_6 p rest =>
    split at h
    · rename_i signPosition
      cases h
      exact .inr ⟨fun token htoken => .inl (by cases htoken; rfl), .inl ⟨signPosition, rfl, rfl⟩⟩
    · cases h
      exact .inl ⟨[], p, rest, rfl, rfl⟩
  case h_7 sign p rest =>
    have hsign : ∀ token ∈ (⟨.sign sign, p⟩ :: rest : List Token).head?,
        ∃ sign, token.kind = .sign sign := fun token htoken => ⟨sign, by cases htoken; rfl⟩
    refine .inr ⟨fun token htoken => .inr (hsign token htoken), ?_⟩
    cases position with
    | none => exact .inr ⟨rfl, hsign⟩
    | some signPosition =>
      cases h
      exact .inl ⟨signPosition, rfl, rfl⟩
  case h_8 =>
    refine .inr ⟨nofun, ?_⟩
    cases position with
    | none => exact .inr ⟨rfl, nofun⟩
    | some signPosition =>
      cases h
      exact .inl ⟨signPosition, rfl, rfl⟩
  all_goals cases h

theorem readPart_eq_error {α : Type} {read : List Char → Except ParseError α}
    {part : Option (List Char)} {e : ParseError} (h : readPart read part = .error e) :
    ∃ cs, read cs = .error e := by
  cases part with
  | none => cases h
  | some cs => exact ⟨cs, map_eq_error_iff.mp h⟩

theorem readIndex_eq_error {subscript : List Char} {e : ParseError}
    (h : readIndex text subscript = .error e) :
    e = .invalidSubscript (String.ofList subscript) text := by
  simp only [readIndex] at h
  split_ifs at h
  cases h
  rfl

theorem readLiteral_eq_error {literal : List Char} {e : ParseError}
    (h : readLiteral text literal = .error e) :
    e = .invalidNumber (String.ofList literal) text := by
  unfold readLiteral at h
  split at h
  · cases h
  · cases h
    rfl

/-- Reading a sign fails where there is none. -/
theorem isFault_of_readSign {e : ParseError} (hne : tokens ≠ [])
    (h : readSign text first tokens = .error e) : IsFault text first tokens e := by
  obtain ⟨token, rest, rfl⟩ := List.exists_cons_of_ne_nil hne
  by_cases hkind : ∃ sign, token.kind = .sign sign
  · obtain ⟨kind, p⟩ := token
    obtain ⟨sign, rfl⟩ := hkind
    cases h
  · rw [not_exists] at hkind
    rw [readSign_of_ne_sign hkind] at h
    split_ifs at h with hfirst
    cases h
    exact .missingSign (eq_false_of_ne_true hfirst) hkind

/-- Reading a shape fails at a multiplication sign, or where no term follows a sign. -/
theorem isFault_of_readShape {e : ParseError} {sign : Sign} {position : Option Nat}
    (hne : tokens ≠ []) (hsign : readSign text first tokens = .ok (sign, position, rest))
    (h : readShape text position rest = .error e) : IsFault text first tokens e := by
  rcases readSign_cases hsign with ⟨p, rfl, rfl⟩ | ⟨rfl, -, rfl, hnil | ⟨-, hkind⟩⟩
  · rcases readShape_eq_error h with
      ⟨lead, q, rest, rfl, rfl⟩ | ⟨hlacks, ⟨q, hq, rfl⟩ | ⟨hnone, -⟩⟩
    · exact .misplacedTimes (⟨.sign sign, p⟩ :: lead)
    · cases hq
      exact .danglingSign hlacks
    · cases hnone
  · exact absurd hnil hne
  · rcases readShape_eq_error h with
      ⟨lead, q, rest, rfl, rfl⟩ | ⟨-, ⟨q, hq, -⟩ | ⟨-, hsigned⟩⟩
    · exact .misplacedTimes lead
    · cases hq
    · obtain ⟨token, rest, rfl⟩ := List.exists_cons_of_ne_nil hne
      obtain ⟨sign, heq⟩ := hsigned token rfl
      exact absurd heq (hkind token rfl sign)

/-- **An error of a term is one of its faults.** -/
theorem isFault_of_read {e : ParseError} (hne : tokens ≠ [])
    (h : read text first tokens = .error e) : IsFault text first tokens e := by
  simp only [read, bind_eq_error_iff] at h
  rcases h with
    hsign | ⟨⟨sign, position, rest⟩, hsign, hshape | ⟨_, -, hindex | ⟨_, -, h⟩⟩⟩
  · exact isFault_of_readSign hne hsign
  · exact isFault_of_readShape hne hsign hshape
  · obtain ⟨subscript, hsubscript⟩ := readPart_eq_error hindex
    rw [readIndex_eq_error hsubscript]
    exact .invalidSubscript _
  · rcases h with hliteral | ⟨_, -, hpure⟩
    · obtain ⟨literal, hliteral⟩ := readPart_eq_error hliteral
      rw [readLiteral_eq_error hliteral]
      exact .invalidNumber _
    · cases hpure

/-! ## Beginnings -/

/-- A shape depends on the tokens that it takes and on the sort of the next one. -/
theorem readShape_append {position : Option Nat} {shape : TermShape}
    (h : readShape text position tokens = .ok (shape, rest)) :
    ∃ taken, taken ≠ [] ∧ tokens = taken ++ rest ∧
      ∀ (text' : String) (rest' : List Token), Token.AreStartOf rest' rest →
        readShape text' position (taken ++ rest') = .ok (shape, rest') := by
  unfold readShape at h
  split at h
  case h_1 =>
    cases h
    exact ⟨[_, _, _], List.cons_ne_nil _ _, rfl, fun _ _ _ => rfl⟩
  case h_3 =>
    cases h
    exact ⟨[_, _], List.cons_ne_nil _ _, rfl, fun _ _ _ => rfl⟩
  case h_4 literal p rest _ htimes hvar =>
    cases h
    refine ⟨[⟨.number literal, p⟩], List.cons_ne_nil _ _, rfl, fun text' rest' hstart => ?_⟩
    cases rest' with
    | nil => rfl
    | cons token rest' =>
      -- a multiplication sign or a variable would have been there before
      obtain ⟨⟨kind, q⟩, after, rfl, hsort, -, -⟩ := hstart.exists_cons
      obtain ⟨kind', q'⟩ := token
      cases kind' with
      | number | sign => rfl
      | times =>
        obtain rfl := Token.sort_eq_times_iff.mp hsort
        exact (htimes q after rfl).elim
      | var =>
        obtain ⟨subscript, rfl⟩ := Token.sort_eq_var_iff.mp hsort
        exact (hvar subscript q after rfl).elim
  case h_5 =>
    cases h
    exact ⟨[_], List.cons_ne_nil _ _, rfl, fun _ _ _ => rfl⟩
  case h_6 => split at h <;> cases h
  all_goals cases h

/-- **A term depends on the tokens that it takes and on the sort of the next one.** -/
theorem read_append {term : Term} (h : read text first tokens = .ok (term, rest)) :
    ∃ taken, taken ≠ [] ∧ tokens = taken ++ rest ∧
      ∀ (text' : String) (rest' : List Token), Token.AreStartOf rest' rest →
        read text' first (taken ++ rest') = .ok (term, rest') := by
  obtain ⟨sign, position, afterSign, shape, hsign, hshape, hvalid, rfl⟩ := read_eq_ok_iff.mp h
  obtain ⟨taken, hne, rfl, hagain⟩ := readShape_append hshape
  rcases readSign_cases hsign with ⟨p, rfl, rfl⟩ | ⟨rfl, rfl, rfl, hnil | ⟨rfl, hkind⟩⟩
  · refine ⟨⟨.sign sign, p⟩ :: taken, List.cons_ne_nil _ _, rfl, fun text' rest' hrest' => ?_⟩
    exact read_eq_ok_iff.mpr ⟨sign, some p, taken ++ rest', shape, rfl, hagain text' rest' hrest',
      hvalid, rfl⟩
  · exact absurd (List.append_eq_nil_iff.mp hnil).1 hne
  · refine ⟨taken, hne, rfl, fun text' rest' hrest' => ?_⟩
    obtain ⟨token, taken, rfl⟩ := List.exists_cons_of_ne_nil hne
    refine read_eq_ok_iff.mpr ⟨.plus, none, token :: taken ++ rest', shape, ?_,
      hagain text' rest' hrest', hvalid, rfl⟩
    exact (readSign_of_ne_sign (hkind token rfl)).trans rfl

theorem readAll_of_read {term : Term} (h : read text first tokens = .ok (term, rest)) :
    readAll text first tokens = (readAll text false rest).map (term :: ·) := by
  have hpos := Nat.zero_lt_of_lt (length_lt_of_read h)
  rw [readAll_of_ne_nil (List.length_pos_iff.mp hpos), h]
  rfl

theorem readAll_of_read_eq_error {e : ParseError} (hne : tokens ≠ [])
    (h : read text first tokens = .error e) : readAll text first tokens = .error e := by
  rw [readAll_of_ne_nil hne, h]
  rfl

/-- The terms are read before some tokens, whatever comes there in their place, as long as it begins
like them. -/
def ReadsBefore (first : Bool) (before rest : List Token) (terms : List Term) : Prop :=
  ∀ (text : String) (start : List Token), Token.AreStartOf start rest →
    readAll text first (before ++ start) =
      (readAll text (first && before.isEmpty) start).map (terms ++ ·)

/-- **The error of an expression is the fault of a term.** The terms before it are read, whatever
comes after them, as long as it begins like the faulty term. -/
theorem exists_fault {e : ParseError} (h : readAll text first tokens = .error e) :
    ∃ before rest terms, tokens = before ++ rest ∧
      IsFault text (first && before.isEmpty) rest e ∧ ReadsBefore first before rest terms := by
  -- each term takes a token at least, so the induction is on their number
  induction hlength : tokens.length using Nat.strong_induction_on generalizing tokens first with
  | _ n ih =>
    subst hlength
    have hne : tokens ≠ [] := by
      rintro rfl
      rw [readAll_nil] at h
      cases h
    cases hread : read text first tokens with
    | error e' =>
      rw [readAll_of_read_eq_error hne hread] at h
      cases h
      refine ⟨[], tokens, [], rfl, ?_, fun text' rest' _ => ?_⟩
      · rw [List.isEmpty_nil, Bool.and_true]
        exact isFault_of_read hne hread
      · rw [List.isEmpty_nil, Bool.and_true, List.nil_append]
        cases readAll text' first rest' <;> rfl
    | ok result =>
      obtain ⟨term, rest⟩ := result
      rw [readAll_of_read hread, map_eq_error_iff] at h
      obtain ⟨taken, htaken, rfl, hagain⟩ := read_append hread
      obtain ⟨before, rest, terms, rfl, hfault, hbefore⟩ := ih _ (length_lt_of_read hread) h rfl
      have hempty : (first && (taken ++ before).isEmpty) = false := by simp [htaken]
      refine ⟨taken ++ before, rest, term :: terms, (List.append_assoc _ _ _).symm, ?_,
        fun text' rest' hrest' => ?_⟩
      · rwa [hempty]
      · rw [hempty, List.append_assoc, readAll_of_read (hagain text' _ (hrest'.append before)),
          hbefore text' rest' hrest', Bool.false_and]
        cases readAll text' false rest' <;> rfl

/-! ## The same fault in a beginning -/

theorem LacksTerm.of_areStartOf {start : List Token} (h : LacksTerm rest)
    (hstart : Token.AreStartOf start rest) : LacksTerm start := by
  cases start with
  | nil => exact nofun
  | cons token start =>
    obtain ⟨head, after, rfl, hsort, -, -⟩ := hstart.exists_cons
    rintro _ ⟨⟩
    rcases h head rfl with htimes | ⟨sign, hsign⟩
    · rw [htimes] at hsort
      exact .inl (Token.sort_eq_times_iff.mp hsort.symm)
    · rw [hsign] at hsort
      exact .inr ⟨sign, Token.sort_eq_sign_iff.mp hsort.symm⟩

/-- A missing sign is missing in every start of the tokens. -/
theorem readAll_missingSign {token token' : Token} {start : List Token}
    (hkind : ∀ sign, token.kind ≠ .sign sign)
    (h : Token.AreStartOf (token' :: start) (token :: rest)) :
    readAll text false (token' :: start) = .error (.missingSign token.position text) := by
  obtain ⟨_, _, heq, hsort, hposition, -⟩ := h.exists_cons
  cases heq
  have hkind' : ∀ sign, token'.kind ≠ .sign sign := by
    intro sign hsign
    rw [hsign] at hsort
    exact hkind sign (Token.sort_eq_sign_iff.mp hsort)
  refine readAll_of_read_eq_error (List.cons_ne_nil _ _) ?_
  rw [read, readSign_of_ne_sign hkind', hposition]
  rfl

/-- A sign without a term lacks it in every start of the tokens. -/
theorem readAll_danglingSign {sign : Sign} {position : Nat} {token' : Token} {start : List Token}
    (hlacks : LacksTerm rest)
    (h : Token.AreStartOf (token' :: start) (⟨.sign sign, position⟩ :: rest)) :
    readAll text first (token' :: start) = .error (.danglingSign position text) := by
  obtain ⟨_, _, heq, hsort, hposition, hstart⟩ := h.exists_cons
  cases heq
  obtain ⟨kind, p⟩ := token'
  obtain rfl : kind = .sign sign := Token.sort_eq_sign_iff.mp hsort.symm
  obtain rfl : position = p := hposition
  refine readAll_of_read_eq_error (List.cons_ne_nil _ _) ?_
  cases start with
  | nil => rfl
  | cons token start =>
    obtain ⟨kind, q⟩ := token
    rcases hlacks.of_areStartOf hstart _ rfl with hkind | ⟨sign', hkind⟩ <;>
    · obtain rfl := hkind
      rfl

/-! ## Texts -/

/-- A text with tokens is read as its tokens are. -/
theorem ofText_eq_readAll (hscan : Token.scan text.toList = .ok tokens) (hne : tokens ≠ []) :
    ofText text = readAll text true tokens := by
  obtain ⟨token, tokens, rfl⟩ := List.exists_cons_of_ne_nil hne
  rw [ofText, hscan]

/-- **An error of a text** is a character that belongs to no token, or the lack of any tokens, or
the fault of a term. -/
theorem ofText_eq_error_cases {e : ParseError} (h : ofText text = .error e) :
    (∃ stray, Token.scan text.toList = .error stray ∧
      e = .unexpectedCharacter stray.character stray.position text) ∨ e = .empty ∨
    ∃ before rest terms, Token.scan text.toList = .ok (before ++ rest) ∧
      IsFault text before.isEmpty rest e ∧ ReadsBefore true before rest terms := by
  unfold ofText at h
  split at h
  · rename_i stray hscan
    cases h
    exact .inl ⟨stray, hscan, rfl⟩
  · cases h
    exact .inr (.inl rfl)
  · rename_i tokens _ hscan
    obtain ⟨before, rest, terms, rfl, hfault, hreads⟩ := exists_fault h
    exact .inr (.inr ⟨before, rest, terms, hscan, hfault, hreads⟩)

end Term

/-- The first characters of a text. -/
def beginning (text : String) (q : Nat) : String := String.ofList (text.toList.take q)

theorem toList_beginning (text : String) (q : Nat) :
    (beginning text q).toList = text.toList.take q :=
  String.toList_ofList

namespace Term.ReadsBefore

variable {text : String} {before after : List Token} {token : Token} {terms : List Term}

/-- Up to the place of a fault the text is read. -/
theorem ofText_beginning_eq_ok (h : ReadsBefore true before (token :: after) terms)
    (hscan : Token.scan text.toList = .ok (before ++ token :: after)) (hne : before ≠ []) :
    ofText (beginning text token.position) = .ok terms := by
  obtain ⟨-, htake, -⟩ := Token.scan_cut hscan
  have hread := h (beginning text token.position) [] List.nil_prefix
  rw [List.append_nil, readAll_nil] at hread
  rw [ofText_eq_readAll (by rwa [toList_beginning]) hne, hread, Except.map, List.append_nil]

/-- Beyond it there is the same fault. -/
theorem ofText_beginning_eq_error {fault : String → ParseError}
    (h : ReadsBefore true before (token :: after) terms)
    (hscan : Token.scan text.toList = .ok (before ++ token :: after))
    (hfault : ∀ (text : String) (token' : Token) (start : List Token),
      Token.AreStartOf (token' :: start) (token :: after) →
        readAll text before.isEmpty (token' :: start) = .error (fault text))
    {q : Nat} (hq : token.position < q) :
    ofText (beginning text q) = .error (fault (beginning text q)) := by
  obtain ⟨-, -, hbeyond⟩ := Token.scan_cut hscan
  obtain ⟨token', start, htake, hstart⟩ := hbeyond q hq
  have hne : before ++ token' :: start ≠ [] := List.append_ne_nil_of_right_ne_nil _ nofun
  rw [ofText_eq_readAll (by rwa [toList_beginning]) hne, h _ _ hstart, Bool.true_and,
    hfault _ _ _ hstart]
  rfl

end Term.ReadsBefore

/-! ## Where the errors point -/

/-- A character at the front of the rest of a text. -/
theorem getElem?_of_cons_isPrefixOf_drop {cs more : List Char} {c : Char} {p : Nat}
    (h : c :: more <+: cs.drop p) : cs[p]? = some c := by
  obtain ⟨back, hback⟩ := h
  rw [← List.head?_drop, ← hback]
  rfl

/-- The first character of a token other than a sign. -/
theorem Token.IsSpelling.exists_of_ne_sign {kind : TokenKind} {spelling : List Char}
    (h : Token.IsSpelling kind spelling) (hkind : ∀ sign, kind ≠ .sign sign) :
    ∃ c more, spelling = c :: more ∧
      (c.isDigit = true ∨ c ∈ ['.', 'x', 'X', '*', '\u00b7']) := by
  cases h with
  | plus | minus => exact absurd rfl (hkind _)
  | times hc => exact ⟨_, _, rfl, .inr (by simp [hc])⟩
  | var hc => exact ⟨_, _, rfl, .inr (by rcases hc with rfl | rfl <;> decide)⟩
  | @number c _ hrun =>
    refine ⟨_, _, rfl, ?_⟩
    rcases Bool.or_eq_true_iff.mp (hrun c List.mem_cons_self) with hdigit | hpoint
    · exact .inl hdigit
    · exact .inr (by rw [beq_iff_eq.mp hpoint]; decide)

section Errors

variable {F : Type} [Zero F] [One F] [Add F] [Neg F] [Numeral F]

/-- **An error about a sign marks the end of the longest beginning that is an expression.** A sign
without a term is there, and before it the text is blank or an expression. A term without a sign is
there, and before it the text is an expression. Every longer beginning has the same error. -/
theorem sign_error_ends_longest_expression (text t : String) (p : Nat) :
    (LinearExpression.read (F := F) text = .error (.danglingSign p t) →
      (∃ c, text.toList[p]? = some c ∧ (c = '+' ∨ c = '-' ∨ c = '\u2212')) ∧
      ((∀ c ∈ (beginning text p).toList, Text.isBlank c = true) ∨
        ∃ e : LinearExpression F, LinearExpression.read (beginning text p) = .ok e) ∧
      ∀ q, p < q → LinearExpression.read (F := F) (beginning text q) =
        .error (.danglingSign p (beginning text q))) ∧
    (LinearExpression.read (F := F) text = .error (.missingSign p t) →
      (∃ c, text.toList[p]? = some c ∧
        (c.isDigit = true ∨ c ∈ ['.', 'x', 'X', '*', '\u00b7'])) ∧
      (∃ tokens, Token.scan text.toList = .ok tokens ∧ ∃ token ∈ tokens, token.position = p) ∧
      (∃ e : LinearExpression F, LinearExpression.read (beginning text p) = .ok e) ∧
      ∀ q, p < q → LinearExpression.read (F := F) (beginning text q) =
        .error (.missingSign p (beginning text q))) := by
  simp only [LinearExpression.read, map_eq_error_iff]
  refine ⟨fun h => ?_, fun h => ?_⟩
  · obtain ⟨_, -, he⟩ | he | ⟨before, rest, terms, hscan, hfault, hreads⟩ :=
      Term.ofText_eq_error_cases h
    · cases he
    · cases he
    cases hfault with
    | @danglingSign sign _ after hlacks =>
      obtain ⟨⟨spelling, hspelled, hspelling⟩, htake, -⟩ := Token.scan_cut hscan
      refine ⟨?_, ?_, fun q hq => ?_⟩
      · cases hspelling with
        | plus => exact ⟨_, getElem?_of_cons_isPrefixOf_drop hspelled, .inl rfl⟩
        | minus hc => exact ⟨_, getElem?_of_cons_isPrefixOf_drop hspelled, .inr hc⟩
      · rcases eq_or_ne before [] with rfl | hne
        · left
          rw [toList_beginning]
          exact fun c => (Token.splits_of_scanFrom htake).isBlank rfl
        · right
          rw [hreads.ofText_beginning_eq_ok hscan hne]
          exact ⟨_, rfl⟩
      · rw [hreads.ofText_beginning_eq_error hscan
          (fun _ _ _ => Term.readAll_danglingSign hlacks) hq]
  · obtain ⟨_, -, he⟩ | he | ⟨before, rest, terms, hscan, hfault, hreads⟩ :=
      Term.ofText_eq_error_cases h
    · cases he
    · cases he
    cases hfault with
    | @missingSign token after hfirst hkind =>
      obtain ⟨⟨spelling, hspelled, hspelling⟩, -, -⟩ := Token.scan_cut hscan
      have hne : before ≠ [] := by
        rintro rfl
        cases hfirst
      refine ⟨?_, ⟨_, hscan, token, by simp, rfl⟩, ?_, fun q hq => ?_⟩
      · obtain ⟨c, more, rfl, hc⟩ := hspelling.exists_of_ne_sign hkind
        exact ⟨c, getElem?_of_cons_isPrefixOf_drop hspelled, hc⟩
      · rw [hreads.ofText_beginning_eq_ok hscan hne]
        exact ⟨_, rfl⟩
      · rw [hreads.ofText_beginning_eq_error hscan (fun _ _ _ hstart => ?_) hq]
        rw [hfirst]
        exact Term.readAll_missingSign hkind hstart

end Errors

/-- Both kinds of an error about a sign, in texts with typeset minus and multiplication signs. -/
theorem sign_error_ends_longest_expression_typeset :
    (LinearExpression.read (F := Float) "3\u00b7x1 \u2212 \u2212 x2" =
        .error (.danglingSign 5 "3\u00b7x1 \u2212 \u2212 x2") ∧
      (∃ e : LinearExpression Float,
        LinearExpression.read (beginning "3\u00b7x1 \u2212 \u2212 x2" 5) = .ok e) ∧
      LinearExpression.read (F := Float) (beginning "3\u00b7x1 \u2212 \u2212 x2" 6) =
        .error (.danglingSign 5 (beginning "3\u00b7x1 \u2212 \u2212 x2" 6))) ∧
    LinearExpression.read (F := Float) "\u22122x1 \u00b7x2" =
        .error (.missingSign 5 "\u22122x1 \u00b7x2") ∧
      ∃ e : LinearExpression Float,
        LinearExpression.read (beginning "\u22122x1 \u00b7x2" 5) = .ok e := by
  have hdangling : LinearExpression.read (F := Float) "3\u00b7x1 \u2212 \u2212 x2" =
      .error (.danglingSign 5 "3\u00b7x1 \u2212 \u2212 x2") := by
    rw [LinearExpression.read, map_eq_error_iff]
    cbv
  have hmissing : LinearExpression.read (F := Float) "\u22122x1 \u00b7x2" =
      .error (.missingSign 5 "\u22122x1 \u00b7x2") := by
    rw [LinearExpression.read, map_eq_error_iff]
    cbv
  obtain ⟨-, hbefore, hbeyond⟩ := (sign_error_ends_longest_expression _ _ _).1 hdangling
  obtain ⟨-, -, hread, -⟩ := (sign_error_ends_longest_expression _ _ _).2 hmissing
  have hnotBlank : ¬∀ c ∈ (beginning "3\u00b7x1 \u2212 \u2212 x2" 5).toList,
      Text.isBlank c = true := by
    rw [toList_beginning]
    exact fun hblank => absurd (hblank '3' (by decide)) (by decide)
  exact ⟨⟨hdangling, hbefore.resolve_left hnotBlank, hbeyond 6 (by decide)⟩, hmissing, hread⟩

/-! ## Characters that errors name -/

section Characters

variable {F : Type} [Zero F] [One F] [Add F] [Neg F] [Numeral F]

/-- Asking for a variable adds one error, which names no character. -/
theorem readWithVariable_eq_error_cases {text : String} {e : ParseError}
    (h : LinearExpression.readWithVariable (F := F) text = .error e) :
    LinearExpression.read (F := F) text = .error e ∨ e = .noVariable text := by
  unfold LinearExpression.readWithVariable at h
  split at h
  · rename_i hread
    cases h
    exact .inl hread
  · split_ifs at h
    cases h
    exact .inr rfl

/-- **The character that an error names is there**, or it is a middle dot that is called an
asterisk. -/
theorem unexpected_character_is_there_or_times (text t : String) (c : Char) (p : Nat)
    (h : LinearExpression.read (F := F) text = .error (.unexpectedCharacter c p t) ∨
      LinearExpression.readWithVariable (F := F) text = .error (.unexpectedCharacter c p t)) :
    t = text ∧ (text.toList[p]? = some c ∨ c = '*' ∧ text.toList[p]? = some '\u00b7') := by
  have hread : LinearExpression.read (F := F) text = .error (.unexpectedCharacter c p t) := by
    rcases h with h | h
    · exact h
    · exact (readWithVariable_eq_error_cases h).resolve_right nofun
  rw [LinearExpression.read, map_eq_error_iff] at hread
  obtain ⟨stray, hscan, he⟩ | he | ⟨before, rest, terms, hscan, hfault, -⟩ :=
    Term.ofText_eq_error_cases hread
  · cases he
    obtain ⟨front, back, hcut, hposition, -, -⟩ := Token.exists_stray hscan
    refine ⟨rfl, .inl ?_⟩
    rw [hcut, hposition, Nat.zero_add, List.getElem?_append_right le_rfl, Nat.sub_self]
    rfl
  · cases he
  cases hfault with
  | misplacedTimes lead =>
    rw [← List.append_assoc] at hscan
    obtain ⟨⟨spelling, hspelled, hspelling⟩, -, -⟩ := Token.scan_cut hscan
    cases hspelling with
    | times hc =>
      have hthere := getElem?_of_cons_isPrefixOf_drop hspelled
      rcases hc with rfl | rfl
      · exact ⟨rfl, .inl hthere⟩
      · exact ⟨rfl, .inr ⟨rfl, hthere⟩⟩

end Characters

/-- A multiplication sign with no variable after it, written as a middle dot. -/
theorem read_misplacedDot : LinearExpression.read (F := Float) "3 \u00b7 + x1" =
    .error (.unexpectedCharacter '*' 2 "3 \u00b7 + x1") := by
  rw [LinearExpression.read, map_eq_error_iff]
  cbv

/-- A middle dot that is called an asterisk. -/
theorem unexpected_character_is_there_or_times_dot :
    LinearExpression.read (F := Float) "3 \u00b7 + x1" =
        .error (.unexpectedCharacter '*' 2 "3 \u00b7 + x1") ∧
      ("3 \u00b7 + x1".toList[2]? = some '*' ∨
        '*' = '*' ∧ "3 \u00b7 + x1".toList[2]? = some '\u00b7') :=
  ⟨read_misplacedDot,
    (unexpected_character_is_there_or_times _ _ _ _ (.inl read_misplacedDot)).2⟩

/-- **Not every character that an error names is there.** A misplaced middle dot is reported as an
asterisk, although the text has none. -/
theorem not_forall_unexpected_character_is_there :
    ¬ ∀ (text t : String) (c : Char) (p : Nat),
        (LinearExpression.read (F := Float) text = .error (.unexpectedCharacter c p t) ∨
          LinearExpression.readWithVariable (F := Float) text =
            .error (.unexpectedCharacter c p t)) →
        t = text ∧ text.toList[p]? = some c := by
  intro hall
  exact absurd (hall _ _ _ _ (.inl read_misplacedDot)).2 (by decide)

end PrimalSimplex
