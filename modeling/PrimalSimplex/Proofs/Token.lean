import Mathlib.Data.List.TakeWhile
import PrimalSimplex.Expression.Token

/-!
# Splitting a text into tokens

`Token.scan` is a loop over characters. What it is to compute can be said without one: a text
*splits* into tokens (`Token.Splits`) when it is put together from their spellings and from white
space, where

* a sign or a multiplication sign is one character,
* a number is a run of digits and points, and no such character follows it,
* a variable is an `x` with a run of digits, and no digit follows it.

That nothing follows which could be taken into the run is what maximal munch means, and it makes the
split unique. The loop finds it wherever there is one: `Token.scan_eq_ok_iff` is an equivalence.
Positions play no role here, so tokens are compared by their kinds. What holds of the loop is proved
along the tokens of a text (`Token.munch_induction`) and not along the branches of the loop, which
takes the three sorts of tokens apart.
-/

namespace PrimalSimplex

/-! ## Results of readers -/

section Results

variable {ε α β : Type}

theorem map_eq_ok_iff {f : α → β} {result : Except ε α} {b : β} :
    result.map f = .ok b ↔ ∃ a, result = .ok a ∧ f a = b := by
  cases result <;> simp [Except.map]

theorem map_eq_error_iff {f : α → β} {result : Except ε α} {e : ε} :
    result.map f = .error e ↔ result = .error e := by
  cases result <;> simp [Except.map]

theorem bind_eq_ok_iff {f : α → Except ε β} {result : Except ε α} {b : β} :
    (result >>= f) = .ok b ↔ ∃ a, result = .ok a ∧ f a = .ok b := by
  cases result <;> simp [bind, Except.bind]

theorem bind_eq_error_iff {f : α → Except ε β} {result : Except ε α} {e : ε} :
    (result >>= f) = .error e ↔
      result = .error e ∨ ∃ a, result = .ok a ∧ f a = .error e := by
  cases result <;> simp [bind, Except.bind]

end Results

namespace Token

/-! ## Classes of characters

The classes are tested one after the other. They do not overlap, so the order makes no
difference. -/

/-- What holds of the ten digits holds of every digit. -/
theorem forall_isDigit {P : Char → Prop} (h : ∀ code ∈ List.range' 48 10, P (Char.ofNat code))
    {c : Char} (hc : c.isDigit = true) : P c := by
  obtain ⟨hlow, hhigh⟩ := Char.isDigit_iff_toNat.mp hc
  have hcode := h c.toNat (List.mem_range'_1.mpr ⟨hlow, Nat.lt_succ_of_le hhigh⟩)
  rwa [Char.ofNat_toNat] at hcode

/-- A digit is of no other class. -/
theorem classes_of_isDigit {c : Char} (h : c.isDigit = true) :
    Text.isBlank c = false ∧ symbol? c = none ∧ isLetter c = false :=
  forall_isDigit
    (P := fun c => Text.isBlank c = false ∧ symbol? c = none ∧ isLetter c = false) (by decide) h

/-- A character of a number is of no other class. -/
theorem classes_of_isNumeric {c : Char} (h : isNumeric c = true) :
    Text.isBlank c = false ∧ symbol? c = none ∧ isLetter c = false := by
  rcases Bool.or_eq_true_iff.mp h with hdigit | hpoint
  · exact classes_of_isDigit hdigit
  · rw [beq_iff_eq.mp hpoint]
    decide

/-- White space ends a number. -/
theorem isNumeric_of_isBlank {c : Char} (h : Text.isBlank c = true) : isNumeric c = false := by
  by_contra hnumeric
  rw [(classes_of_isNumeric (eq_true_of_ne_false hnumeric)).1] at h
  cases h

/-- White space ends a subscript. -/
theorem isDigit_of_isBlank {c : Char} (h : Text.isBlank c = true) : c.isDigit = false :=
  (Bool.or_eq_false_iff.mp (isNumeric_of_isBlank h)).1

theorem isLetter_iff {c : Char} : isLetter c = true ↔ c = 'x' ∨ c = 'X' := by
  simp [isLetter]

theorem classes_of_isLetter {c : Char} (h : isLetter c = true) :
    Text.isBlank c = false ∧ symbol? c = none := by
  rcases isLetter_iff.mp h with rfl | rfl <;> decide

/-- The tokens of one character and their spellings. -/
theorem symbol?_eq_some_iff {c : Char} {kind : TokenKind} :
    symbol? c = some kind ↔
      c = '+' ∧ kind = .sign .plus ∨ (c = '-' ∨ c = '\u2212') ∧ kind = .sign .minus ∨
        (c = '*' ∨ c = '\u00b7') ∧ kind = .times := by
  constructor
  · intro h
    unfold symbol? at h
    split_ifs at h with hplus hminus htimes
    · exact .inl ⟨hplus, (Option.some.inj h).symm⟩
    · exact .inr (.inl ⟨by simpa [isMinus] using hminus, (Option.some.inj h).symm⟩)
    · exact .inr (.inr ⟨by simpa [isTimes] using htimes, (Option.some.inj h).symm⟩)
  · rintro (⟨rfl, rfl⟩ | ⟨rfl | rfl, rfl⟩ | ⟨rfl | rfl, rfl⟩) <;> rfl

/-! ## Maximal munch -/

/-- The text is a run of characters of a class, and nothing that follows belongs to the class. -/
structure IsMaximalRun (isMember : Char → Bool) (run rest : List Char) : Prop where
  /-- the characters of the run are of the class -/
  mem : ∀ c ∈ run, isMember c = true
  /-- the next character, if there is one, is not -/
  stops : ∀ c ∈ rest.head?, isMember c = false

/-- The text splits into tokens by maximal munch. -/
inductive Splits : List Char → List TokenKind → Prop where
  /-- an empty text has no tokens -/
  | done : Splits [] []
  /-- white space is dropped -/
  | blank {c : Char} {rest : List Char} {kinds : List TokenKind} :
      Text.isBlank c = true → Splits rest kinds → Splits (c :: rest) kinds
  /-- a plus -/
  | plus {rest : List Char} {kinds : List TokenKind} :
      Splits rest kinds → Splits ('+' :: rest) (.sign .plus :: kinds)
  /-- a minus, in either spelling -/
  | minus {c : Char} {rest : List Char} {kinds : List TokenKind} :
      c = '-' ∨ c = '\u2212' → Splits rest kinds → Splits (c :: rest) (.sign .minus :: kinds)
  /-- a multiplication sign, in either spelling -/
  | times {c : Char} {rest : List Char} {kinds : List TokenKind} :
      c = '*' ∨ c = '\u00b7' → Splits rest kinds → Splits (c :: rest) (.times :: kinds)
  /-- a number: digits and points -/
  | number {run rest : List Char} {kinds : List TokenKind} :
      run ≠ [] → IsMaximalRun isNumeric run rest → Splits rest kinds →
        Splits (run ++ rest) (.number run :: kinds)
  /-- a variable: a letter and the digits right after it -/
  | var {c : Char} {run rest : List Char} {kinds : List TokenKind} :
      c = 'x' ∨ c = 'X' → IsMaximalRun Char.isDigit run rest → Splits rest kinds →
        Splits (c :: (run ++ rest)) (.var run :: kinds)

/-- The spellings of a token. -/
inductive IsSpelling : TokenKind → List Char → Prop where
  /-- a plus -/
  | plus : IsSpelling (.sign .plus) ['+']
  /-- a minus, in either spelling -/
  | minus {c : Char} : c = '-' ∨ c = '\u2212' → IsSpelling (.sign .minus) [c]
  /-- a multiplication sign, in either spelling -/
  | times {c : Char} : c = '*' ∨ c = '\u00b7' → IsSpelling .times [c]
  /-- digits and points -/
  | number {c : Char} {run : List Char} : (∀ d ∈ c :: run, isNumeric d = true) →
      IsSpelling (.number (c :: run)) (c :: run)
  /-- a letter and the digits of the subscript -/
  | var {c : Char} {run : List Char} : c = 'x' ∨ c = 'X' → (∀ d ∈ run, d.isDigit = true) →
      IsSpelling (.var run) (c :: run)

/-- Whether a token would take a character that follows it as well. -/
def goesOnWith : TokenKind → Char → Bool
  | .number _, c => isNumeric c
  | .var _, c => c.isDigit
  | .sign _, _ | .times, _ => false

/-- Whether a character may stand in a text that splits into tokens. -/
def isTokenChar (c : Char) : Bool :=
  Text.isBlank c || (symbol? c).isSome || isLetter c || isNumeric c

/-- A text that splits into tokens has no other characters. -/
theorem Splits.isTokenChar {cs : List Char} {kinds : List TokenKind} (h : Splits cs kinds)
    {c : Char} (hc : c ∈ cs) : isTokenChar c = true := by
  -- the character is in front of the text, in the run there, or further back
  induction h with
  | done => cases hc
  | blank hd _ ih =>
    rcases List.mem_cons.mp hc with rfl | hc
    · simp [Token.isTokenChar, hd]
    · exact ih hc
  | plus _ ih =>
    rcases List.mem_cons.mp hc with rfl | hc
    · decide
    · exact ih hc
  | minus hd _ ih | times hd _ ih =>
    rcases List.mem_cons.mp hc with rfl | hc
    · rcases hd with rfl | rfl <;> decide
    · exact ih hc
  | number _ hrun _ ih =>
    rcases List.mem_append.mp hc with hc | hc
    · simp [Token.isTokenChar, hrun.mem c hc]
    · exact ih hc
  | var hd hrun _ ih =>
    rcases List.mem_cons.mp hc with rfl | hc
    · rcases hd with rfl | rfl <;> decide
    · rcases List.mem_append.mp hc with hc | hc
      · simp [Token.isTokenChar, isNumeric, hrun.mem c hc]
      · exact ih hc

namespace IsMaximalRun

variable {isMember : Char → Bool} {run rest : List Char}

/-- Every text starts with a maximal run, which may be empty. -/
theorem of_takeWhile (isMember : Char → Bool) (cs : List Char) :
    IsMaximalRun isMember (cs.takeWhile isMember) (cs.dropWhile isMember) where
  mem := fun _ => List.mem_takeWhile_imp
  stops := by
    intro c hc
    have hstops := List.head?_dropWhile_not isMember cs
    rw [hc] at hstops
    exact hstops

/-- There is only one way to cut a text after its maximal run. -/
theorem takeWhile_eq (h : IsMaximalRun isMember run rest) :
    (run ++ rest).takeWhile isMember = run := by
  rw [List.takeWhile_append_of_pos h.mem]
  cases rest with
  | nil => simp
  | cons c rest => simp [h.stops c rfl]

theorem dropWhile_eq (h : IsMaximalRun isMember run rest) :
    (run ++ rest).dropWhile isMember = rest := by
  rw [List.dropWhile_append_of_pos h.mem]
  cases rest with
  | nil => simp
  | cons c rest => simp [h.stops c rfl]

end IsMaximalRun

/-! ## Induction along the tokens of a text -/

theorem IsSpelling.of_symbol? {c : Char} {kind : TokenKind} (h : symbol? c = some kind) :
    IsSpelling kind [c] := by
  rcases symbol?_eq_some_iff.mp h with ⟨rfl, rfl⟩ | ⟨hc, rfl⟩ | ⟨hc, rfl⟩
  · exact .plus
  · exact .minus hc
  · exact .times hc

theorem goesOnWith_of_symbol? {c : Char} {kind : TokenKind} (h : symbol? c = some kind) (d : Char) :
    goesOnWith kind d = false := by
  rcases symbol?_eq_some_iff.mp h with ⟨-, rfl⟩ | ⟨-, rfl⟩ | ⟨-, rfl⟩ <;> rfl

/-- The longest spelling at the front of a text that a token begins. -/
theorem exists_longest_spelling {c : Char} (rest : List Char) (hblank : Text.isBlank c = false)
    (hc : isTokenChar c = true) :
    ∃ kind spelling back, c :: rest = spelling ++ back ∧ IsSpelling kind spelling ∧
      ∀ d ∈ back.head?, goesOnWith kind d = false := by
  simp only [isTokenChar, hblank, Bool.false_or, Bool.or_eq_true] at hc
  rcases hc with (hsymbol | hletter) | hnumeric
  · obtain ⟨kind, hkind⟩ := Option.isSome_iff_exists.mp hsymbol
    exact ⟨kind, [c], rest, rfl, .of_symbol? hkind, fun d _ => goesOnWith_of_symbol? hkind d⟩
  · have hrun := IsMaximalRun.of_takeWhile Char.isDigit rest
    exact ⟨_, c :: rest.takeWhile Char.isDigit, rest.dropWhile Char.isDigit, by simp,
      .var (isLetter_iff.mp hletter) hrun.mem, hrun.stops⟩
  · have hrun := IsMaximalRun.of_takeWhile isNumeric rest
    exact ⟨_, c :: rest.takeWhile isNumeric, rest.dropWhile isNumeric, by simp,
      .number (List.forall_mem_cons.mpr ⟨hnumeric, hrun.mem⟩), hrun.stops⟩

theorem IsSpelling.ne_nil {kind : TokenKind} {spelling : List Char}
    (h : IsSpelling kind spelling) : spelling ≠ [] := by
  cases h <;> exact List.cons_ne_nil _ _

/-- **Induction along the tokens of a text.** A text is empty, or it begins with white space, or
with the longest spelling of a token, or with a character that belongs to no token. -/
theorem munch_induction {P : List Char → Prop} (done : P [])
    (blank : ∀ c rest, Text.isBlank c = true → P rest → P (c :: rest))
    (token : ∀ kind spelling rest, IsSpelling kind spelling →
      (∀ c ∈ rest.head?, goesOnWith kind c = false) → P rest → P (spelling ++ rest))
    (stray : ∀ c rest, isTokenChar c = false → P (c :: rest)) (cs : List Char) : P cs := by
  induction hlength : cs.length using Nat.strong_induction_on generalizing cs with
  | _ n ih =>
    subst hlength
    cases cs with
    | nil => exact done
    | cons c rest =>
      cases hblank : Text.isBlank c with
      | true => exact blank c rest hblank (ih _ (Nat.lt_succ_self _) rest rfl)
      | false =>
        cases hc : isTokenChar c with
        | false => exact stray c rest hc
        | true =>
          obtain ⟨kind, spelling, back, hcut, hspelling, hstops⟩ :=
            exists_longest_spelling rest hblank hc
          rw [hcut] at ih ⊢
          refine token kind spelling back hspelling hstops (ih _ ?_ back rfl)
          rw [List.length_append]
          exact Nat.lt_add_of_pos_left (List.length_pos_iff.mpr hspelling.ne_nil)

/-! ## The loop finds the split -/

/-- **The loop at a spelling** takes the spelling and nothing more. -/
theorem scanFrom_spelling {kind : TokenKind} {spelling rest : List Char}
    (h : IsSpelling kind spelling) (hrest : ∀ c ∈ rest.head?, goesOnWith kind c = false)
    (position : Nat) :
    scanFrom position (spelling ++ rest) =
      (scanFrom (position + spelling.length) rest).map (⟨kind, position⟩ :: ·) := by
  cases h with
  | plus =>
    rw [List.singleton_append, scanFrom]
    rfl
  | minus hc | times hc =>
    rw [List.singleton_append, scanFrom]
    rcases hc with rfl | rfl <;> rfl
  | @number c run hrun =>
    obtain ⟨hblank, hsymbol, hletter⟩ := classes_of_isNumeric (hrun c List.mem_cons_self)
    have hmore : IsMaximalRun isNumeric run rest :=
      ⟨fun d hd => hrun d (List.mem_cons_of_mem c hd), hrest⟩
    rw [List.cons_append, scanFrom, hblank]
    simp [hsymbol, hletter, hrun c List.mem_cons_self, hmore.takeWhile_eq, hmore.dropWhile_eq,
      Nat.add_assoc, Nat.add_comm 1]
  | @var c run hc hrun =>
    obtain ⟨hblank, hsymbol⟩ := classes_of_isLetter (isLetter_iff.mpr hc)
    have hmore : IsMaximalRun Char.isDigit run rest := ⟨hrun, hrest⟩
    rw [List.cons_append, scanFrom, hblank]
    simp [hsymbol, isLetter_iff.mpr hc, hmore.takeWhile_eq, hmore.dropWhile_eq, Nat.add_assoc,
      Nat.add_comm 1]

/-- The loop at a character that belongs to no token. -/
theorem scanFrom_stray {c : Char} (h : isTokenChar c = false) (position : Nat)
    (rest : List Char) : scanFrom position (c :: rest) = .error ⟨c, position⟩ := by
  simp only [isTokenChar, Bool.or_eq_false_iff, Option.isSome_eq_false_iff,
    Option.isNone_iff_eq_none] at h
  obtain ⟨⟨⟨hblank, hsymbol⟩, hletter⟩, hnumeric⟩ := h
  rw [scanFrom, hblank, hsymbol]
  simp [hletter, hnumeric]

/-- A token in front of a text that splits. -/
theorem IsSpelling.splits {kind : TokenKind} {spelling rest : List Char}
    {kinds : List TokenKind} (h : IsSpelling kind spelling)
    (hstops : ∀ c ∈ rest.head?, goesOnWith kind c = false) (hrest : Splits rest kinds) :
    Splits (spelling ++ rest) (kind :: kinds) := by
  cases h with
  | plus => exact .plus hrest
  | minus hc => exact .minus hc hrest
  | times hc => exact .times hc hrest
  | number hrun => exact .number (List.cons_ne_nil _ _) ⟨hrun, hstops⟩ hrest
  | var hc hrun => exact .var hc ⟨hrun, hstops⟩ hrest

/-- What the loop returns is a split of the text. -/
theorem splits_of_scanFrom {position : Nat} {cs : List Char} {tokens : List Token}
    (h : scanFrom position cs = .ok tokens) : Splits cs (tokens.map kind) := by
  induction cs using munch_induction generalizing position tokens with
  | done =>
    rw [scanFrom] at h
    cases h
    exact .done
  | blank c rest hblank ih =>
    rw [scanFrom, if_pos hblank] at h
    exact .blank hblank (ih h)
  | token kind spelling rest hspelling hstops ih =>
    rw [scanFrom_spelling hspelling hstops] at h
    obtain ⟨more, hmore, rfl⟩ := map_eq_ok_iff.mp h
    exact hspelling.splits hstops (ih hmore)
  | stray c rest hc =>
    rw [scanFrom_stray hc] at h
    cases h

/-- A token and the tokens of the text after it are found. -/
theorem IsSpelling.scanFrom {kind : TokenKind} {spelling rest : List Char}
    {kinds : List TokenKind} (h : IsSpelling kind spelling)
    (hstops : ∀ c ∈ rest.head?, goesOnWith kind c = false)
    (hrest : ∀ position, ∃ tokens,
      Token.scanFrom position rest = .ok tokens ∧ tokens.map Token.kind = kinds)
    (position : Nat) :
    ∃ tokens, Token.scanFrom position (spelling ++ rest) = .ok tokens ∧
      tokens.map Token.kind = kind :: kinds := by
  obtain ⟨tokens, htokens, rfl⟩ := hrest (position + spelling.length)
  refine ⟨⟨kind, position⟩ :: tokens, ?_, rfl⟩
  rw [scanFrom_spelling h hstops, htokens]
  rfl

/-- A text that splits into tokens is read, and its tokens are found. -/
theorem Splits.scanFrom {cs : List Char} {kinds : List TokenKind} (h : Splits cs kinds)
    (position : Nat) :
    ∃ tokens, Token.scanFrom position cs = .ok tokens ∧ tokens.map kind = kinds := by
  induction h generalizing position with
  | done => exact ⟨[], by rw [Token.scanFrom], rfl⟩
  | blank hblank _ ih =>
    obtain ⟨tokens, htokens, hkinds⟩ := ih (position + 1)
    refine ⟨tokens, ?_, hkinds⟩
    rw [Token.scanFrom, if_pos hblank, htokens]
  | plus _ ih => exact IsSpelling.plus.scanFrom (fun _ _ => rfl) ih position
  | minus hc _ ih => exact (IsSpelling.minus hc).scanFrom (fun _ _ => rfl) ih position
  | times hc _ ih => exact (IsSpelling.times hc).scanFrom (fun _ _ => rfl) ih position
  | number hne hrun _ ih =>
    obtain ⟨c, run, rfl⟩ := List.exists_cons_of_ne_nil hne
    exact (IsSpelling.number hrun.mem).scanFrom hrun.stops ih position
  | var hc hrun _ ih => exact (IsSpelling.var hc hrun.mem).scanFrom hrun.stops ih position

/-- **A text is read exactly when it splits into tokens**, and these are its tokens. -/
theorem scan_eq_ok_iff {cs : List Char} {kinds : List TokenKind} :
    (∃ tokens, scan cs = .ok tokens ∧ tokens.map kind = kinds) ↔ Splits cs kinds := by
  constructor
  · rintro ⟨tokens, htokens, rfl⟩
    exact splits_of_scanFrom htokens
  · intro h
    exact h.scanFrom 0

end Token

end PrimalSimplex
