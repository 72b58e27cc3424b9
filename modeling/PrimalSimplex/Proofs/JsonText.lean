import Mathlib.Data.List.DropRight
import PrimalSimplex.Json.Reader
import PrimalSimplex.Proofs.Token

/-!
# What is written as JSON is read as JSON

The printers and the reader are connected through one predicate: `Reads cs json` says that the
reader takes the text `cs` for the value `json` wherever the text stands, and stops right after it.
Since a number has no closing bracket, "wherever" means in front of a text that does not continue a
number (`EndsNumber`); and since the reader has fuel, it means with two units for every character.

For every kind of value there is one lemma that makes `Reads` of the whole from `Reads` of its
parts. White space is a lemma of its own (`Reads.space`), so that the two printers, which differ in
nothing but white space, need no proofs of their own: a value of which both texts are read is
`IsPrinted`, and that is again a matter of the parts.
-/

namespace PrimalSimplex

namespace Json

/-! ## Numbers -/

/-- The text does not continue a number that stands in front of it. -/
def EndsNumber (rest : List Char) : Prop :=
  ∀ c ∈ rest.head?, c.isDigit = false ∧ c ≠ '.' ∧ c ≠ 'e' ∧ c ≠ 'E'

theorem endsNumber_nil : EndsNumber [] := by
  intro c hc
  cases hc

theorem endsNumber_cons {c : Char} {rest : List Char}
    (h : c.isDigit = false ∧ c ≠ '.' ∧ c ≠ 'e' ∧ c ≠ 'E') : EndsNumber (c :: rest) := by
  intro d hd
  cases hd
  exact h

namespace Number

/-- The lexeme is one of the grammar. -/
structure IsWellFormed (n : Number) : Prop where
  /-- there are digits before the point -/
  whole_ne_nil : n.whole ≠ []
  /-- and nothing else -/
  isDigit_whole : ∀ c ∈ n.whole, c.isDigit = true
  /-- only zero itself starts with a zero -/
  whole_eq : n.whole.head? = some '0' → n.whole = ['0']
  /-- there are only digits after the point -/
  isDigit_fraction : ∀ c ∈ n.fraction, c.isDigit = true
  /-- an exponent has digits -/
  exponent_ne_nil : ∀ e ∈ n.exponent, e.2 ≠ []
  /-- and nothing else -/
  isDigit_exponent : ∀ e ∈ n.exponent, ∀ c ∈ e.2, c.isDigit = true

end Number

section Numbers

variable {digits rest : List Char}

theorem readDigits_append (hrun : Token.IsMaximalRun Char.isDigit digits rest)
    (hne : digits ≠ []) : readDigits (digits ++ rest) = some (digits, rest) := by
  unfold readDigits
  rw [hrun.takeWhile_eq, hrun.dropWhile_eq]
  cases digits with
  | nil => exact absurd rfl hne
  | cons _ _ => rfl

theorem readWhole_append (hrun : Token.IsMaximalRun Char.isDigit digits rest)
    (hne : digits ≠ []) (hzero : digits.head? = some '0' → digits = ['0']) :
    readWhole (digits ++ rest) = some (digits, rest) := by
  unfold readWhole
  rw [readDigits_append hrun hne]
  split
  · next c more _ heq =>
    cases heq
    cases hzero rfl
  · rfl

theorem readFraction_append (hdigits : ∀ c ∈ digits, c.isDigit = true)
    (hrest : ∀ c ∈ rest.head?, c.isDigit = false ∧ c ≠ '.') :
    readFraction (Number.fractionChars digits ++ rest) = some (digits, rest) := by
  have hrun : Token.IsMaximalRun Char.isDigit digits rest :=
    ⟨hdigits, fun c hc => (hrest c hc).1⟩
  cases digits with
  | nil =>
    cases rest with
    | nil => rfl
    | cons c rest =>
      have hpoint : c ≠ '.' := (hrest c rfl).2
      simp [Number.fractionChars, readFraction, hpoint]
  | cons c digits => exact readDigits_append hrun (List.cons_ne_nil _ _)

theorem readExponent_append {exponent : Option (Bool × List Char)}
    (hne : ∀ e ∈ exponent, e.2 ≠ []) (hdigits : ∀ e ∈ exponent, ∀ c ∈ e.2, c.isDigit = true)
    (hrest : EndsNumber rest) :
    readExponent (Number.exponentChars exponent ++ rest) = some (exponent, rest) := by
  cases exponent with
  | none =>
    cases rest with
    | nil => rfl
    | cons c rest =>
      have hmark := hrest c rfl
      simp [Number.exponentChars, readExponent, hmark]
  | some e =>
    obtain ⟨negative, digits⟩ := e
    have hread : readDigits (digits ++ rest) = some (digits, rest) :=
      readDigits_append ⟨hdigits _ rfl, fun c hc => (hrest c hc).1⟩ (hne _ rfl)
    cases negative <;> simp [Number.exponentChars, readExponent, hread]

/-- **A well-formed lexeme is read back**, and nothing of what follows it. -/
theorem readNumber_append {n : Number} (h : n.IsWellFormed) (hrest : EndsNumber rest) :
    readNumber (n.chars ++ rest) = some (n, rest) := by
  obtain ⟨negative, whole, fraction, exponent⟩ := n
  have hexponent : ∀ c ∈ (Number.exponentChars exponent ++ rest).head?,
      c.isDigit = false ∧ c ≠ '.' := by
    cases exponent with
    | none => exact fun c hc => ⟨(hrest c hc).1, (hrest c hc).2.1⟩
    | some e =>
      rintro c ⟨⟩
      decide
  have hfraction : ∀ c ∈ (Number.fractionChars fraction ++
      (Number.exponentChars exponent ++ rest)).head?, c.isDigit = false := by
    cases fraction with
    | nil => exact fun c hc => (hexponent c hc).1
    | cons d fraction =>
      rintro c ⟨⟩
      decide
  have hwhole : readWhole (whole ++ (Number.fractionChars fraction ++
      (Number.exponentChars exponent ++ rest))) =
        some (whole, Number.fractionChars fraction ++ (Number.exponentChars exponent ++ rest)) :=
    readWhole_append ⟨h.isDigit_whole, hfraction⟩ h.whole_ne_nil h.whole_eq
  have hreadFraction := readFraction_append h.isDigit_fraction hexponent
  have hreadExponent := readExponent_append h.exponent_ne_nil h.isDigit_exponent hrest
  dsimp only at hreadFraction hreadExponent
  cases negative with
  | true =>
    simp [readNumber, Number.chars, hwhole, hreadFraction, hreadExponent]
  | false =>
    obtain ⟨c, more, rfl⟩ := List.exists_cons_of_ne_nil h.whole_ne_nil
    have hsign : c ≠ '-' := by
      rintro rfl
      exact absurd (h.isDigit_whole '-' List.mem_cons_self) (by decide)
    rw [List.cons_append] at hwhole
    simp [readNumber, Number.chars, hsign, hwhole, hreadFraction, hreadExponent]

end Numbers

/-! ## Strings -/

section Strings

/-- What an escaped character is read as: a control character without a letter of its own was
written as a code unit. -/
def pieceOf (c : Char) : Piece :=
  if c.toNat < 0x20 ∧ c ∉ ['\x08', '\x0c', '\n', '\r', '\t'] then .unit c.toNat else .char c

theorem codeUnit?_hexDigit : ∀ n < 0x20,
    codeUnit? '0' '0' (hexDigit (n / 16)) (hexDigit (n % 16)) = some n := by
  decide

theorem readPieces_unit {a b c d : Char} {code : Nat} (h : codeUnit? a b c d = some code)
    (cs : List Char) : readPieces ('\\' :: 'u' :: a :: b :: c :: d :: cs) =
      (readPieces cs).map fun (pieces, rest) => (.unit code :: pieces, rest) := by
  rw [readPieces, h]
  cases readPieces cs <;> rfl

theorem readPieces_letter {letter c : Char} (hletter : letter ≠ 'u')
    (h : unescape? letter = some c) (cs : List Char) : readPieces ('\\' :: letter :: cs) =
      (readPieces cs).map fun (pieces, rest) => (.char c :: pieces, rest) := by
  rw [readPieces, h]
  · cases readPieces cs <;> rfl
  · exact fun _ _ _ _ _ hu _ => hletter hu

theorem readPieces_char {c : Char} (hquote : c ≠ '"') (hbackslash : c ≠ '\\')
    (hcontrol : ¬ c.toNat < 0x20) (cs : List Char) : readPieces (c :: cs) =
      (readPieces cs).map fun (pieces, rest) => (.char c :: pieces, rest) := by
  rw [readPieces, if_neg hcontrol]
  · cases readPieces cs <;> rfl
  · exact hquote
  · exact fun _ _ _ _ _ hc _ => hbackslash hc
  · exact fun _ _ hc _ => hbackslash hc

/-- A character is read back from its escape. -/
theorem readPieces_escapeChar (c : Char) (cs : List Char) :
    readPieces (escapeChar c ++ cs) =
      (readPieces cs).map fun (pieces, rest) => (pieceOf c :: pieces, rest) := by
  by_cases hletter : c ∈ ['"', '\\', '\x08', '\x0c', '\n', '\r', '\t']
  · simp only [List.mem_cons, List.not_mem_nil, or_false] at hletter
    rcases hletter with rfl | rfl | rfl | rfl | rfl | rfl | rfl <;>
      exact readPieces_letter (by decide) rfl cs
  · simp only [List.mem_cons, List.not_mem_nil, or_false, not_or] at hletter
    by_cases hcontrol : c.toNat < 0x20
    · have hescape : escapeChar c =
          ['\\', 'u', '0', '0', hexDigit (c.toNat / 16), hexDigit (c.toNat % 16)] := by
        simp [escapeChar, hletter, hcontrol]
      have hpiece : pieceOf c = .unit c.toNat := by simp [pieceOf, hletter, hcontrol]
      rw [hescape, hpiece]
      exact readPieces_unit (codeUnit?_hexDigit c.toNat hcontrol) cs
    · have hescape : escapeChar c = [c] := by simp [escapeChar, hletter, hcontrol]
      have hpiece : pieceOf c = .char c := by simp [pieceOf, hcontrol]
      rw [hescape, hpiece]
      exact readPieces_char hletter.1 hletter.2.1 hcontrol cs

theorem readPieces_flatMap (text rest : List Char) :
    readPieces (text.flatMap escapeChar ++ '"' :: rest) = some (text.map pieceOf, rest) := by
  induction text with
  | nil => rfl
  | cons c text ih =>
    rw [List.flatMap_cons, List.append_assoc, readPieces_escapeChar, ih]
    rfl

/-- A code unit of a control character is half of no surrogate pair, so it stands for itself
whatever follows. -/
theorem assemble_unit {code : Nat} (h : code < 0x20) (pieces : List Piece) :
    assemble (.unit code :: pieces) = (assemble pieces).map (Char.ofNat code :: ·) := by
  have hlow : isLowSurrogate code = false := by
    simp only [isLowSurrogate, Bool.and_eq_false_iff, decide_eq_false_iff_not]
    omega
  have hhigh : isHighSurrogate code = false := by
    simp only [isHighSurrogate, Bool.and_eq_false_iff, decide_eq_false_iff_not]
    omega
  cases pieces <;> simp [assemble, hlow, hhigh]

theorem assemble_map_pieceOf (text : List Char) : assemble (text.map pieceOf) = some text := by
  induction text with
  | nil => rfl
  | cons c text ih =>
    rw [List.map_cons, pieceOf]
    split
    · next hunit => rw [assemble_unit hunit.1, ih, Char.ofNat_toNat, Option.map_some]
    · rw [assemble, ih, Option.map_some]

/-- **A text is read back from its string**, whatever characters it has. -/
theorem readString_append (text : String) (rest : List Char) :
    readString (text.toList.flatMap escapeChar ++ '"' :: rest) = some (some text, rest) := by
  simp only [readString, readPieces_flatMap, Option.map_some, assemble_map_pieceOf,
    String.ofList_toList]

end Strings

/-! ## White space -/

section Space

variable {cs blanks rest : List Char}

theorem skipSpace_append (h : ∀ c ∈ blanks, isSpace c = true) :
    skipSpace (blanks ++ cs) = skipSpace cs :=
  List.dropWhile_append_of_pos h

theorem skipSpace_cons {c : Char} (h : isSpace c = false) : skipSpace (c :: cs) = c :: cs := by
  simp [skipSpace, h]

theorem skipSpace_skipSpace (cs : List Char) : skipSpace (skipSpace cs) = skipSpace cs :=
  List.dropWhile_idempotent isSpace cs

theorem readValue_skipSpace (fuel : Nat) (cs : List Char) :
    readValue fuel (skipSpace cs) = readValue fuel cs := by
  cases fuel with
  | zero => rfl
  | succ fuel => rw [readValue, readValue, skipSpace_skipSpace]

theorem readItems_skipSpace (fuel : Nat) (cs : List Char) :
    readItems fuel (skipSpace cs) = readItems fuel cs := by
  cases fuel with
  | zero => rfl
  | succ fuel => rw [readItems, readItems, readValue_skipSpace]

theorem readMembers_skipSpace (fuel : Nat) (cs : List Char) :
    readMembers fuel (skipSpace cs) = readMembers fuel cs := by
  cases fuel with
  | zero => rfl
  | succ fuel => rw [readMembers, readMembers, skipSpace_skipSpace]

/-- White space continues no number. -/
theorem endsNumber_append (h : ∀ c ∈ blanks, isSpace c = true) (hrest : EndsNumber rest) :
    EndsNumber (blanks ++ rest) := by
  cases blanks with
  | nil => exact hrest
  | cons c blanks =>
    have hc : isSpace c = true := h c List.mem_cons_self
    simp only [isSpace, Bool.or_eq_true, beq_iff_eq] at hc
    refine endsNumber_cons ?_
    rcases hc with ((rfl | rfl) | rfl) | rfl <;> decide

end Space

/-! ## Values -/

/-- The reader takes the text for the value wherever it stands, and stops right after it. -/
def Reads (cs : List Char) (json : Json) : Prop :=
  ∀ fuel rest, 2 * cs.length ≤ fuel + 1 → EndsNumber rest →
    readValue fuel (cs ++ rest) = some (json, rest)

/-- The reader takes the text, up to a closing bracket, for the elements of an array. -/
def ReadsItems (cs : List Char) (items : List Json) : Prop :=
  ∀ fuel rest, 2 * cs.length + 2 ≤ fuel →
    readItems fuel (cs ++ ']' :: rest) = some (items, rest)

/-- The reader takes the text, up to a closing bracket, for the members of an object. -/
def ReadsMembers (cs : List Char) (members : List (Option String × Json)) : Prop :=
  ∀ fuel rest, 2 * cs.length + 2 ≤ fuel →
    readMembers fuel (cs ++ closeBrace :: rest) = some (members, rest)

section Reads

variable {cs more blanks : List Char} {json item value : Json} {items : List Json}
  {members : List (Option String × Json)}

/-- A text that is not empty comes with fuel. -/
theorem Reads.of_succ (hne : cs ≠ [])
    (h : ∀ fuel rest, 2 * cs.length ≤ fuel + 2 → EndsNumber rest →
      readValue (fuel + 1) (cs ++ rest) = some (json, rest)) : Reads cs json := by
  intro fuel rest hfuel hrest
  have hlength : 0 < cs.length := List.length_pos_iff.mpr hne
  obtain ⟨fuel, rfl⟩ : ∃ n, fuel = n + 1 := Nat.exists_eq_add_one.mpr (by omega)
  exact h fuel rest hfuel hrest

/-- White space in front of a value is skipped. -/
theorem Reads.space (hblanks : ∀ c ∈ blanks, isSpace c = true) (h : Reads cs json) :
    Reads (blanks ++ cs) json := by
  intro fuel rest hfuel hrest
  rw [List.append_assoc, ← readValue_skipSpace, skipSpace_append hblanks, readValue_skipSpace]
  refine h fuel rest ?_ hrest
  rw [List.length_append] at hfuel
  omega

theorem reads_null : Reads "null".toList null := by
  refine .of_succ (List.cons_ne_nil _ _) fun fuel rest _ _ => ?_
  rw [show "null".toList ++ rest = 'n' :: 'u' :: 'l' :: 'l' :: rest from rfl, readValue,
    skipSpace_cons (by decide)]
  rfl

theorem reads_bool (value : Bool) : Reads (boolChars value) (bool value) := by
  cases value with
  | false =>
    refine .of_succ (List.cons_ne_nil _ _) fun fuel rest _ _ => ?_
    rw [show boolChars false ++ rest = 'f' :: 'a' :: 'l' :: 's' :: 'e' :: rest from rfl,
      readValue, skipSpace_cons (by decide)]
    rfl
  | true =>
    refine .of_succ (List.cons_ne_nil _ _) fun fuel rest _ _ => ?_
    rw [show boolChars true ++ rest = 't' :: 'r' :: 'u' :: 'e' :: rest from rfl, readValue,
      skipSpace_cons (by decide)]
    rfl

/-- The head of a lexeme tells that it is one. -/
theorem readValue_number (fuel : Nat) {c : Char} (h : c = '-' ∨ c.isDigit = true)
    (cs : List Char) : readValue (fuel + 1) (c :: cs) =
      (readNumber (c :: cs)).map fun (lexeme, rest) => (number lexeme, rest) := by
  have hc : c ∉ [' ', '\n', '\t', '\r', '"', '[', openBrace, 'n', 't', 'f'] := by
    intro hmem
    have hheads : ([' ', '\n', '\t', '\r', '"', '[', openBrace, 'n', 't', 'f'].all fun d =>
        !(d == '-' || d.isDigit)) = true := rfl
    have hhead : c ≠ '-' ∧ c.isDigit = false := by
      simpa using List.all_eq_true.mp hheads c hmem
    rcases h with hminus | hdigit
    · exact hhead.1 hminus
    · rw [hhead.2] at hdigit
      cases hdigit
  simp only [List.mem_cons, List.not_mem_nil, or_false, not_or] at hc
  have hspace : isSpace c = false := by simp [isSpace, hc]
  rw [readValue, skipSpace_cons hspace]
  simp only [hc, if_false]

theorem readValue_quote (fuel : Nat) (cs : List Char) : readValue (fuel + 1) ('"' :: cs) =
    (readString cs).map fun (text, rest) => (string text, rest) := by
  rw [readValue, skipSpace_cons (by decide)]
  exact if_pos rfl

theorem stringChars_append (text : String) (rest : List Char) :
    stringChars (some text) ++ rest =
      '"' :: (text.toList.flatMap escapeChar ++ '"' :: rest) := by
  show '"' :: (text.toList.flatMap escapeChar ++ ['"']) ++ rest = _
  rw [List.cons_append, List.append_assoc, List.singleton_append]

theorem reads_string (text : String) : Reads (stringChars (some text)) (string (some text)) := by
  refine .of_succ (List.cons_ne_nil _ _) fun fuel rest _ _ => ?_
  rw [stringChars_append, readValue_quote, readString_append, Option.map_some]

theorem reads_number {lexeme : Number} (h : lexeme.IsWellFormed) :
    Reads lexeme.chars (number lexeme) := by
  have hhead : ∃ c cs, lexeme.chars = c :: cs ∧ (c = '-' ∨ c.isDigit = true) := by
    unfold Number.chars
    obtain ⟨c, more, hwhole⟩ := List.exists_cons_of_ne_nil h.whole_ne_nil
    have hc : c.isDigit = true := h.isDigit_whole c (hwhole ▸ List.mem_cons_self)
    rw [hwhole]
    cases lexeme.negative with
    | false => exact ⟨c, _, rfl, .inr hc⟩
    | true => exact ⟨'-', _, rfl, .inl rfl⟩
  obtain ⟨c, cs, hchars, hc⟩ := hhead
  refine .of_succ (hchars ▸ List.cons_ne_nil c cs) fun fuel rest _ hrest => ?_
  have hread := readNumber_append h hrest
  rw [hchars, List.cons_append] at hread ⊢
  rw [readValue_number fuel hc, hread, Option.map_some]

/-! ### Arrays -/

theorem readItems_close (fuel : Nat) (cs : List Char) : readItems fuel (']' :: cs) = none := by
  cases fuel with
  | zero => rfl
  | succ fuel =>
    have hvalue : readValue fuel (']' :: cs) = none := by
      cases fuel with
      | zero => rfl
      | succ fuel =>
        rw [readValue, skipSpace_cons (by decide)]
        rfl
    rw [readItems, hvalue]

theorem reads_emptyArray : Reads ['[', ']'] (array []) := by
  refine .of_succ (List.cons_ne_nil _ _) fun fuel rest _ _ => ?_
  rw [List.cons_append, readValue, skipSpace_cons (by decide)]
  rfl

/-- A text of elements in brackets is read as an array. The reader looks for the closing bracket
before it looks for an element, and no element starts with one. -/
theorem ReadsItems.reads (h : ReadsItems cs items) :
    Reads ('[' :: (cs ++ [']'])) (array items) := by
  refine .of_succ (List.cons_ne_nil _ _) fun fuel rest hfuel _ => ?_
  have hitems : readItems fuel (skipSpace (cs ++ ']' :: rest)) = some (items, rest) := by
    rw [readItems_skipSpace]
    refine h fuel rest ?_
    simp only [List.length_cons, List.length_append, List.length_nil] at hfuel
    omega
  rw [List.cons_append, List.append_assoc, List.singleton_append, readValue,
    skipSpace_cons (by decide)]
  simp only [Char.reduceEq, ↓reduceIte]
  split
  · next more hclose =>
    rw [hclose, readItems_close] at hitems
    cases hitems
  · rw [hitems, Option.map_some]

/-- The last element of an array. -/
theorem Reads.single (hblanks : ∀ c ∈ blanks, isSpace c = true) (h : Reads cs item) :
    ReadsItems (cs ++ blanks) [item] := by
  intro fuel rest hfuel
  obtain ⟨fuel, rfl⟩ : ∃ n, fuel = n + 1 := Nat.exists_eq_add_one.mpr (by omega)
  rw [List.length_append] at hfuel
  have hvalue := h fuel (blanks ++ ']' :: rest) (by omega)
    (endsNumber_append hblanks (endsNumber_cons (by decide)))
  rw [List.append_assoc, readItems, hvalue]
  simp only [skipSpace_append hblanks, skipSpace_cons (show isSpace ']' = false by decide)]

/-- An element of an array with more of them after it. -/
theorem Reads.cons_items (h : Reads cs item) (hmore : ReadsItems more items) :
    ReadsItems (cs ++ ',' :: more) (item :: items) := by
  intro fuel rest hfuel
  obtain ⟨fuel, rfl⟩ : ∃ n, fuel = n + 1 := Nat.exists_eq_add_one.mpr (by omega)
  rw [List.length_append, List.length_cons] at hfuel
  have hvalue := h fuel (',' :: (more ++ ']' :: rest)) (by omega) (endsNumber_cons (by decide))
  rw [List.append_assoc, List.cons_append, readItems, hvalue]
  simp only [skipSpace_cons (show isSpace ',' = false by decide), hmore fuel rest (by omega),
    Option.map_some]

/-! ### Objects -/

theorem readMembers_close (fuel : Nat) (cs : List Char) :
    readMembers fuel (closeBrace :: cs) = none := by
  cases fuel with
  | zero => rfl
  | succ fuel =>
    rw [readMembers, skipSpace_cons (by decide)]
    rfl

theorem reads_emptyObject : Reads [openBrace, closeBrace] (object []) := by
  refine .of_succ (List.cons_ne_nil _ _) fun fuel rest _ _ => ?_
  rw [List.cons_append, readValue, skipSpace_cons (by decide)]
  rfl

/-- A text of members in braces is read as an object. -/
theorem ReadsMembers.reads (h : ReadsMembers cs members) :
    Reads (openBrace :: (cs ++ [closeBrace])) (object members) := by
  refine .of_succ (List.cons_ne_nil _ _) fun fuel rest hfuel _ => ?_
  have hmembers :
      readMembers fuel (skipSpace (cs ++ closeBrace :: rest)) = some (members, rest) := by
    rw [readMembers_skipSpace]
    refine h fuel rest ?_
    simp only [List.length_cons, List.length_append, List.length_nil] at hfuel
    omega
  rw [List.cons_append, List.append_assoc, List.singleton_append, readValue,
    skipSpace_cons (by decide)]
  simp only [openBrace, Char.reduceEq, ↓reduceIte]
  split
  · next more hclose =>
    rw [hclose] at hmembers
    cases (readMembers_close fuel more).symm.trans hmembers
  · rw [hmembers, Option.map_some]

/-- White space in front of a member is skipped. -/
theorem ReadsMembers.space (hblanks : ∀ c ∈ blanks, isSpace c = true)
    (h : ReadsMembers cs members) : ReadsMembers (blanks ++ cs) members := by
  intro fuel rest hfuel
  rw [List.append_assoc, ← readMembers_skipSpace, skipSpace_append hblanks,
    readMembers_skipSpace]
  refine h fuel rest ?_
  rw [List.length_append] at hfuel
  omega

/-- The last member of an object. -/
theorem Reads.single_member (hblanks : ∀ c ∈ blanks, isSpace c = true) (key : String)
    (h : Reads cs value) :
    ReadsMembers (stringChars (some key) ++ ':' :: (cs ++ blanks)) [(some key, value)] := by
  intro fuel rest hfuel
  obtain ⟨fuel, rfl⟩ : ∃ n, fuel = n + 1 := Nat.exists_eq_add_one.mpr (by omega)
  rw [List.length_append, List.length_cons, List.length_append] at hfuel
  have hvalue := h fuel (blanks ++ closeBrace :: rest) (by omega)
    (endsNumber_append hblanks (endsNumber_cons (by decide)))
  rw [List.append_assoc, List.cons_append, List.append_assoc, stringChars_append, readMembers,
    skipSpace_cons (by decide)]
  simp only [readString_append, skipSpace_cons (show isSpace ':' = false by decide), hvalue,
    skipSpace_append hblanks, skipSpace_cons (show isSpace closeBrace = false by decide)]
  rfl

/-- A member of an object with more of them after it. -/
theorem Reads.cons_members (key : String) (h : Reads cs value)
    (hmore : ReadsMembers more members) :
    ReadsMembers (stringChars (some key) ++ ':' :: (cs ++ ',' :: more))
      ((some key, value) :: members) := by
  intro fuel rest hfuel
  obtain ⟨fuel, rfl⟩ : ∃ n, fuel = n + 1 := Nat.exists_eq_add_one.mpr (by omega)
  rw [List.length_append, List.length_cons, List.length_append, List.length_cons] at hfuel
  have hvalue := h fuel (',' :: (more ++ closeBrace :: rest)) (by omega)
    (endsNumber_cons (by decide))
  rw [List.append_assoc, List.cons_append, List.append_assoc, List.cons_append,
    stringChars_append, readMembers, skipSpace_cons (by decide)]
  simp only [readString_append, skipSpace_cons (show isSpace ':' = false by decide), hvalue,
    skipSpace_cons (show isSpace ',' = false by decide), hmore fuel rest (by omega),
    Option.map_some]

end Reads

/-! ## Printed values -/

/-- Both texts of the value are read as the value. -/
structure IsPrinted (json : Json) : Prop where
  /-- the one without white space -/
  compact : Reads json.compactChars json
  /-- the one with indentation, at any depth -/
  pretty : ∀ depth, Reads (prettyChars depth json) json

section Printed

theorem isSpace_newLine {depth : Nat} {c : Char} (hc : c ∈ newLine depth) :
    isSpace c = true := by
  rcases List.mem_cons.mp hc with rfl | hc
  · decide
  · rw [List.eq_of_mem_replicate hc]
    decide

theorem isPrinted_null : IsPrinted null := ⟨reads_null, fun _ => reads_null⟩

theorem isPrinted_bool (value : Bool) : IsPrinted (bool value) :=
  ⟨reads_bool value, fun _ => reads_bool value⟩

theorem isPrinted_number {lexeme : Number} (h : lexeme.IsWellFormed) :
    IsPrinted (number lexeme) :=
  ⟨reads_number h, fun _ => reads_number h⟩

theorem isPrinted_ofString (text : String) : IsPrinted (ofString text) :=
  ⟨reads_string text, fun _ => reads_string text⟩

theorem readsItems_compactItems {item : Json} {items : List Json}
    (h : ∀ json ∈ item :: items, IsPrinted json) :
    ReadsItems (compactItems (item :: items)) (item :: items) := by
  induction items generalizing item with
  | nil =>
    have hitem : ReadsItems (compactChars item ++ []) [item] :=
      (h item List.mem_cons_self).compact.single (List.forall_mem_nil _)
    rwa [List.append_nil] at hitem
  | cons next items ih =>
    exact (h item List.mem_cons_self).compact.cons_items
      (ih fun next hnext => h next (List.mem_cons_of_mem _ hnext))

/-- The elements of an array with indentation, and the white space after the last of them. -/
theorem readsItems_prettyItems {item : Json} {items : List Json} (depth : Nat)
    {blanks : List Char} (hblanks : ∀ c ∈ blanks, isSpace c = true)
    (h : ∀ json ∈ item :: items, IsPrinted json) :
    ReadsItems (prettyItems depth (item :: items) ++ blanks) (item :: items) := by
  induction items generalizing item with
  | nil =>
    exact (((h item List.mem_cons_self).pretty depth).space fun _ => isSpace_newLine).single
      hblanks
  | cons next items ih =>
    rw [prettyItems, List.append_assoc]
    · exact (((h item List.mem_cons_self).pretty depth).space
        fun _ => isSpace_newLine).cons_items
          (ih fun next hnext => h next (List.mem_cons_of_mem _ hnext))
    · exact List.cons_ne_nil next items

theorem isPrinted_array {items : List Json} (h : ∀ item ∈ items, IsPrinted item) :
    IsPrinted (array items) := by
  cases items with
  | nil => exact ⟨reads_emptyArray, fun _ => reads_emptyArray⟩
  | cons item items =>
    refine ⟨(readsItems_compactItems h).reads, fun depth => ?_⟩
    exact (readsItems_prettyItems (depth + 1) (fun _ => isSpace_newLine) h).reads

theorem readsMembers_compactMembers {field : String × Json} {fields : List (String × Json)}
    (h : ∀ member ∈ field :: fields, IsPrinted member.2) :
    ReadsMembers
      (compactMembers ((field :: fields).map fun (key, value) => (some key, value)))
      ((field :: fields).map fun (key, value) => (some key, value)) := by
  induction fields generalizing field with
  | nil =>
    have hfield : ReadsMembers
        (stringChars (some field.1) ++ ':' :: (compactChars field.2 ++ []))
        [(some field.1, field.2)] :=
      (h field List.mem_cons_self).compact.single_member (List.forall_mem_nil _) field.1
    rwa [List.append_nil] at hfield
  | cons next fields ih =>
    exact (h field List.mem_cons_self).compact.cons_members field.1
      (ih fun member hmember => h member (List.mem_cons_of_mem _ hmember))

/-- The members of an object with indentation, and the white space after the last of them. -/
theorem readsMembers_prettyMembers {field : String × Json} {fields : List (String × Json)}
    (depth : Nat) {blanks : List Char} (hblanks : ∀ c ∈ blanks, isSpace c = true)
    (h : ∀ member ∈ field :: fields, IsPrinted member.2) :
    ReadsMembers
      (prettyMembers depth ((field :: fields).map fun (key, value) => (some key, value)) ++
        blanks)
      ((field :: fields).map fun (key, value) => (some key, value)) := by
  have hblank : ∀ c ∈ [' '], isSpace c = true := List.forall_mem_singleton.mpr (by decide)
  have hline : ∀ c ∈ newLine depth, isSpace c = true := fun _ => isSpace_newLine
  induction fields generalizing field with
  | nil =>
    have hfield := (((h field List.mem_cons_self).pretty depth).space hblank).single_member
      hblanks field.1
    have hindented := hfield.space hline
    simpa [prettyMembers] using hindented
  | cons next fields ih =>
    have hfield := (((h field List.mem_cons_self).pretty depth).space hblank).cons_members
      field.1 (ih fun member hmember => h member (List.mem_cons_of_mem _ hmember))
    have hindented := hfield.space hline
    simpa [prettyMembers] using hindented

theorem isPrinted_record {fields : List (String × Json)}
    (h : ∀ field ∈ fields, IsPrinted field.2) : IsPrinted (record fields) := by
  cases fields with
  | nil => exact ⟨reads_emptyObject, fun _ => reads_emptyObject⟩
  | cons field fields =>
    refine ⟨(readsMembers_compactMembers h).reads, fun depth => ?_⟩
    exact (readsMembers_prettyMembers (depth + 1) (fun _ => isSpace_newLine) h).reads

theorem isPrinted_ofList {α : Type} {encode : α → Json} {items : List α}
    (h : ∀ item ∈ items, IsPrinted (encode item)) : IsPrinted (ofList encode items) := by
  refine isPrinted_array fun json hjson => ?_
  obtain ⟨item, hitem, rfl⟩ := List.mem_map.mp hjson
  exact h item hitem

theorem isPrinted_ofOption {α : Type} {encode : α → Json} {value : Option α}
    (h : ∀ item ∈ value, IsPrinted (encode item)) : IsPrinted (ofOption encode value) := by
  cases value with
  | none => exact isPrinted_null
  | some item => exact h item rfl

/-! ## Texts -/

/-- A text that holds a value and nothing else is read as the value. -/
theorem Reads.read? {cs : List Char} {json : Json} (h : Reads cs json) :
    read? (String.ofList cs) = some json := by
  have hvalue := h (2 * cs.length + 2) [] (by omega) endsNumber_nil
  rw [List.append_nil] at hvalue
  simp only [Json.read?, String.toList_ofList, hvalue]
  rfl

theorem IsPrinted.read?_compact {json : Json} (h : IsPrinted json) :
    Json.read? json.compact = some json :=
  h.compact.read?

theorem IsPrinted.read?_pretty {json : Json} (h : IsPrinted json) :
    Json.read? json.pretty = some json :=
  (h.pretty 0).read?

end Printed

end Json

end PrimalSimplex
