import Mathlib
import PrimalSimplex.Proofs.Position

/-!
# Tokens cover a text

What the tokens of a text are can be said by indices alone, without following the text from left to
right (`Token.Covers`): each token is spelled where it stands, none starts before the one in front
of it has stopped, no run could be longer, and a character is white space exactly when no token
takes it. Nothing of the text is lost then, and nothing is added.

Only one list of tokens covers a text. It is the one that is found, and it is found whenever there
is one (`Token.scan_eq_ok_iff_covers`). Otherwise the first character that belongs to no token is
found (`Token.scan_eq_error_iff`).

Both are proved along the tokens of the text: a cover of a text from an index on is a token there
and a cover from where the token stops (`Token.covers_iff_of_spelling`).
-/

namespace PrimalSimplex

/-- How many characters a token is spelled with. -/
def TokenKind.size : TokenKind → Nat
  | .sign _ | .times => 1
  | .number literal => literal.length
  | .var subscript => subscript.length + 1

namespace Token

/-- The index of the first character after a token. -/
def stop (token : Token) : Nat := token.position + token.kind.size

/-- Whether a token takes the character at an index. -/
def Takes (token : Token) (i : Nat) : Prop := token.position ≤ i ∧ i < token.stop

/-- The tokens cover a text from an index on. -/
structure Covers (start : Nat) (text : List Char) (tokens : List Token) : Prop where
  /-- no token stands before the start -/
  start_le : ∀ token ∈ tokens, start ≤ token.position
  /-- a token starts where the one before it has stopped, or further back -/
  apart : tokens.Pairwise fun token later => token.stop ≤ later.position
  /-- the characters that a token takes spell it -/
  spelled : ∀ token ∈ tokens,
    IsSpelling token.kind ((text.drop token.position).take token.kind.size)
  /-- the next character, if there is one, does not continue the run of a token -/
  maximal : ∀ token ∈ tokens, ∀ c ∈ text[token.stop]?, goesOnWith token.kind c = false
  /-- the characters that no token takes are the white space -/
  isBlank_iff : ∀ i c, start ≤ i → text[i]? = some c →
    (Text.isBlank c = true ↔ ∀ token ∈ tokens, ¬token.Takes i)

/-! ## Spellings -/

/-- The characters that may stand in a text that splits into tokens. -/
theorem isTokenChar_iff {c : Char} :
    isTokenChar c = true ↔ Text.isBlank c = true ∨
      c ∈ ['+', '-', '\u2212', '*', '\u00b7', 'x', 'X', '.'] ∨ c.isDigit = true := by
  have hsymbol : (symbol? c).isSome = true ↔ c ∈ ['+', '-', '\u2212', '*', '\u00b7'] := by
    simp [Option.isSome_iff_exists, symbol?_eq_some_iff, exists_or, or_assoc]
  simp only [isTokenChar, Bool.or_eq_true, hsymbol, isLetter_iff, isNumeric, beq_iff_eq,
    List.mem_cons, List.not_mem_nil, or_false]
  tauto

namespace IsSpelling

variable {kind kind' : TokenKind} {spelling spelling' rest rest' : List Char}

theorem length_eq (h : IsSpelling kind spelling) : spelling.length = kind.size := by
  cases h <;> rfl

/-- A spelling has none but the characters of tokens, and no white space. -/
theorem classes_of_mem (h : IsSpelling kind spelling) {c : Char} (hc : c ∈ spelling) :
    Text.isBlank c = false ∧ isTokenChar c = true := by
  have hsplits : Splits (spelling ++ []) [kind] := h.splits (by simp) .done
  refine ⟨?_, hsplits.isTokenChar (List.mem_append_left _ hc)⟩
  cases h with
  | plus =>
    obtain rfl := List.mem_singleton.mp hc
    decide
  | minus hd | times hd =>
    obtain rfl := List.mem_singleton.mp hc
    rcases hd with rfl | rfl <;> decide
  | number hrun => exact (classes_of_isNumeric (hrun c hc)).1
  | var hd hrun =>
    rcases List.mem_cons.mp hc with rfl | hc
    · exact (classes_of_isLetter (isLetter_iff.mpr hd)).1
    · exact (classes_of_isDigit (hrun c hc)).1

/-- **The text tells which token stands in front of it.** -/
theorem kind_eq (h : IsSpelling kind spelling) (hrest : ∀ c ∈ rest.head?, goesOnWith kind c = false)
    (h' : IsSpelling kind' spelling') (hrest' : ∀ c ∈ rest'.head?, goesOnWith kind' c = false)
    (htext : spelling ++ rest = spelling' ++ rest') : kind = kind' := by
  -- the first character tells the sort of the token, and a run ends where it has to
  obtain ⟨c, more, rfl, -, hsort⟩ := h.exists_head
  obtain ⟨c', more', rfl, -, hsort'⟩ := h'.exists_head
  obtain ⟨rfl, hmore⟩ : c = c' ∧ more ++ rest = more' ++ rest' := List.cons.inj htext
  rw [← hsort'] at hsort
  cases h with
  | plus | minus => exact (sort_eq_sign_iff.mp hsort.symm).symm
  | times => exact (sort_eq_times_iff.mp hsort.symm).symm
  | number hrun =>
    cases h' with
    | plus | minus | times | var => cases hsort
    | number hrun' =>
      have htake := IsMaximalRun.takeWhile_eq ⟨hrun, hrest⟩
      rw [htext, IsMaximalRun.takeWhile_eq ⟨hrun', hrest'⟩] at htake
      rw [htake]
  | var _ hrun =>
    cases h' with
    | plus | minus | times | number => cases hsort
    | var _ hrun' =>
      have htake := IsMaximalRun.takeWhile_eq ⟨hrun, hrest⟩
      rw [hmore, IsMaximalRun.takeWhile_eq ⟨hrun', hrest'⟩] at htake
      rw [htake]

end IsSpelling

/-! ## Covers -/

variable {start i : Nat} {text : List Char} {tokens : List Token} {token : Token} {c : Char}

namespace Covers

/-- A token takes a character. -/
theorem lt_stop (h : Covers start text tokens) (htoken : token ∈ tokens) :
    token.position < token.stop := by
  have hspelling := h.spelled token htoken
  rw [stop, ← hspelling.length_eq]
  exact Nat.lt_add_of_pos_right (List.length_pos_iff.mpr hspelling.ne_nil)

/-- The characters that a token takes. -/
theorem classes_of_takes (h : Covers start text tokens) (htoken : token ∈ tokens)
    (hi : token.Takes i) (hc : text[i]? = some c) :
    Text.isBlank c = false ∧ isTokenChar c = true := by
  obtain ⟨n, rfl⟩ := Nat.exists_eq_add_of_le hi.1
  refine (h.spelled token htoken).classes_of_mem (List.mem_of_getElem? (i := n) ?_)
  rw [List.getElem?_take_of_lt (Nat.lt_of_add_lt_add_left hi.2), List.getElem?_drop, hc]

/-- A token takes characters of the text only. -/
theorem position_lt_length (h : Covers start text tokens) (htoken : token ∈ tokens) :
    token.position < text.length := by
  by_contra! hle
  have hspelling := h.spelled token htoken
  rw [List.drop_eq_nil_of_le hle, List.take_nil] at hspelling
  exact hspelling.ne_nil rfl

/-- The positions of tokens increase. -/
theorem increasing (h : Covers start text tokens) :
    tokens.Pairwise fun token later => token.position < later.position :=
  h.apart.imp_of_mem fun htoken _ hle => (h.lt_stop htoken).trans_le hle

/-- There are no tokens where the text has ended. -/
theorem eq_nil (h : Covers start text tokens) (hstart : text.length ≤ start) : tokens = [] := by
  rw [List.eq_nil_iff_forall_not_mem]
  intro token htoken
  exact absurd (hstart.trans (h.start_le token htoken)) (h.position_lt_length htoken).not_ge

/-- A token takes the first character if that is no white space. -/
theorem exists_first (h : Covers start text tokens) (hc : text[start]? = some c)
    (hblank : Text.isBlank c = false) :
    ∃ kind more, tokens = ⟨kind, start⟩ :: more := by
  have htaken : ¬∀ token ∈ tokens, ¬token.Takes start := by
    rw [← h.isBlank_iff start c le_rfl hc, hblank]
    exact Bool.false_ne_true
  push Not at htaken
  obtain ⟨token, htoken, htakes⟩ := htaken
  -- no token stands before this one, because it would stop before the start
  obtain ⟨first, more, rfl⟩ := List.exists_cons_of_ne_nil (List.ne_nil_of_mem htoken)
  have hposition : first.position = start := by
    refine Nat.le_antisymm ?_ (h.start_le first List.mem_cons_self)
    rcases List.mem_cons.mp htoken with rfl | hmore
    · exact htakes.1
    · have hstop := List.rel_of_pairwise_cons h.apart hmore
      exact (h.lt_stop List.mem_cons_self).le.trans (hstop.trans htakes.1)
  exact ⟨first.kind, more, by rw [← hposition]⟩

end Covers

/-! ## Covers along the tokens of a text -/

/-- The character at an index is the first of what is left from there. -/
theorem getElem?_of_drop_eq_cons {rest : List Char} (h : text.drop start = c :: rest) :
    text[start]? = some c := by
  rw [← List.head?_drop, h]
  rfl

/-- Nothing covers what is left of a text that has ended. -/
theorem covers_iff_of_length_le (hstart : text.length ≤ start) :
    Covers start text tokens ↔ tokens = [] := by
  refine ⟨fun h => h.eq_nil hstart, ?_⟩
  rintro rfl
  refine ⟨List.forall_mem_nil _, .nil, List.forall_mem_nil _, List.forall_mem_nil _, ?_⟩
  intro i c hi hc
  rw [List.getElem?_eq_none (hstart.trans hi)] at hc
  cases hc

/-- A cover does not change when it starts after a blank. -/
theorem covers_iff_of_isBlank (hc : text[start]? = some c) (hblank : Text.isBlank c = true) :
    Covers start text tokens ↔ Covers (start + 1) text tokens := by
  constructor
  · intro h
    refine ⟨fun token htoken => ?_, h.apart, h.spelled, h.maximal,
      fun i d hi => h.isBlank_iff i d (Nat.le_of_succ_le hi)⟩
    refine Nat.lt_of_le_of_ne (h.start_le token htoken) fun heq => ?_
    exact (h.isBlank_iff start c le_rfl hc).mp hblank token htoken
      ⟨heq.ge, heq ▸ h.lt_stop htoken⟩
  · intro h
    refine ⟨fun token htoken => Nat.le_of_succ_le (h.start_le token htoken), h.apart, h.spelled,
      h.maximal, fun i d hi hd => ?_⟩
    rcases hi.eq_or_lt with rfl | hlt
    · obtain rfl : c = d := Option.some.inj (hc.symm.trans hd)
      refine ⟨fun _ token htoken htakes => ?_, fun _ => hblank⟩
      exact absurd (htakes.1.trans_lt (Nat.lt_succ_self _)) (h.start_le token htoken).not_gt
    · exact h.isBlank_iff i d hlt hd

/-- Nothing covers a text with a character that belongs to no token. -/
theorem not_covers_of_stray (hc : text[start]? = some c) (hstray : isTokenChar c = false) :
    ¬Covers start text tokens := by
  intro h
  have hblank : Text.isBlank c = false := by
    simp only [isTokenChar, Bool.or_eq_false_iff] at hstray
    exact hstray.1.1.1
  obtain ⟨kind, more, rfl⟩ := h.exists_first hc hblank
  have htakes : Takes ⟨kind, start⟩ start := ⟨le_rfl, h.lt_stop List.mem_cons_self⟩
  rw [(h.classes_of_takes List.mem_cons_self htakes hc).2] at hstray
  cases hstray

/-- **A cover takes a spelling as one token**, and goes on after it. -/
theorem covers_iff_of_spelling {kind : TokenKind} {spelling rest : List Char}
    (htext : text.drop start = spelling ++ rest) (hspelling : IsSpelling kind spelling)
    (hstops : ∀ c ∈ rest.head?, goesOnWith kind c = false) :
    Covers start text tokens ↔
      ∃ more, tokens = ⟨kind, start⟩ :: more ∧ Covers (start + spelling.length) text more := by
  have hstop : stop ⟨kind, start⟩ = start + spelling.length := by rw [hspelling.length_eq, stop]
  have hrest : text.drop (start + spelling.length) = rest := by
    rw [← List.drop_drop, htext, List.drop_left]
  have hnext : ∀ c ∈ text[start + spelling.length]?, goesOnWith kind c = false := by
    rw [← List.head?_drop, hrest]
    exact hstops
  -- a token in front takes what is before the start of the others
  have hskip : ∀ i more, start + spelling.length ≤ i →
      ((∀ token ∈ Token.mk kind start :: more, ¬token.Takes i) ↔
        ∀ token ∈ more, ¬token.Takes i) := by
    intro i more hi
    rw [List.forall_mem_cons, and_iff_right]
    exact fun htakes => absurd htakes.2 (by rw [hstop]; exact hi.not_gt)
  constructor
  · intro h
    obtain ⟨c, tail, rfl, hblank, -⟩ := hspelling.exists_head
    obtain ⟨kind', more, rfl⟩ := h.exists_first (getElem?_of_drop_eq_cons htext) hblank
    obtain rfl : kind = kind' := by
      have hmaximal : ∀ c ∈ (text.drop (stop ⟨kind', start⟩)).head?,
          goesOnWith kind' c = false := by
        rw [List.head?_drop]
        exact h.maximal _ List.mem_cons_self
      refine hspelling.kind_eq hstops (h.spelled _ List.mem_cons_self) hmaximal ?_
      rw [← htext, stop, ← List.drop_drop, List.take_append_drop]
    refine ⟨more, rfl, ?_, h.apart.of_cons, fun token htoken =>
      h.spelled token (List.mem_cons_of_mem _ htoken), fun token htoken =>
      h.maximal token (List.mem_cons_of_mem _ htoken), fun i d hi hd => ?_⟩
    · rw [← hstop]
      exact fun token => List.rel_of_pairwise_cons h.apart
    · rw [h.isBlank_iff i d (Nat.le_of_add_right_le hi) hd]
      exact hskip i more hi
  · rintro ⟨more, rfl, h⟩
    have hspelled : (text.drop start).take kind.size = spelling := by
      rw [htext, ← hspelling.length_eq, List.take_left]
    refine ⟨List.forall_mem_cons.mpr ⟨le_rfl, fun token htoken =>
      Nat.le_of_add_right_le (h.start_le token htoken)⟩, ?_,
      List.forall_mem_cons.mpr ⟨by rwa [hspelled], h.spelled⟩,
      List.forall_mem_cons.mpr ⟨by rwa [hstop], h.maximal⟩, fun i d hi hd => ?_⟩
    · refine List.pairwise_cons.mpr ⟨?_, h.apart⟩
      rw [hstop]
      exact h.start_le
    · rcases Nat.lt_or_ge i (start + spelling.length) with hlt | hge
      · -- the character is one of the spelling
        have hmem : d ∈ spelling := by
          obtain ⟨n, rfl⟩ := Nat.exists_eq_add_of_le hi
          have hn : n < spelling.length := Nat.lt_of_add_lt_add_left hlt
          rw [← List.getElem?_drop, htext, List.getElem?_append_left hn] at hd
          exact List.mem_of_getElem? hd
        rw [(hspelling.classes_of_mem hmem).1]
        refine iff_of_false Bool.false_ne_true fun hall => ?_
        exact hall _ List.mem_cons_self ⟨hi, by rwa [hstop]⟩
      · rw [h.isBlank_iff i d hge hd]
        exact (hskip i more hge).symm

/-- The loop finds the cover of what is left of the text. -/
theorem scanFrom_eq_ok_iff_covers {cs : List Char} (hcs : text.drop start = cs) :
    scanFrom start cs = .ok tokens ↔ Covers start text tokens := by
  induction cs using munch_induction generalizing start tokens with
  | done =>
    rw [scanFrom, covers_iff_of_length_le (List.drop_eq_nil_iff.mp hcs), Except.ok.injEq, eq_comm]
  | blank c rest hblank ih =>
    rw [scanFrom, if_pos hblank, covers_iff_of_isBlank (getElem?_of_drop_eq_cons hcs) hblank]
    refine ih ?_
    rw [← List.drop_drop, hcs]
    rfl
  | token kind spelling rest hspelling hstops ih =>
    have hrest : text.drop (start + spelling.length) = rest := by
      rw [← List.drop_drop, hcs, List.drop_left]
    rw [scanFrom_spelling hspelling hstops, map_eq_ok_iff,
      covers_iff_of_spelling hcs hspelling hstops]
    refine exists_congr fun more => ?_
    rw [ih hrest, and_comm, eq_comm]
  | stray c rest hstray =>
    rw [scanFrom_stray hstray]
    exact iff_of_false (by simp) (not_covers_of_stray (getElem?_of_drop_eq_cons hcs) hstray)

/-- **The tokens that are found are those that cover the text.** -/
theorem scan_eq_ok_iff_covers : scan text = .ok tokens ↔ Covers 0 text tokens :=
  scanFrom_eq_ok_iff_covers List.drop_zero

/-! ## Stray characters -/

/-- A text has no tokens if it has a character that belongs to none. -/
theorem exists_error_iff :
    (∃ stray, scan text = .error stray) ↔ ∃ c ∈ text, isTokenChar c = false := by
  constructor
  · rintro ⟨stray, h⟩
    obtain ⟨front, back, rfl, -, hstray, -⟩ := exists_stray h
    exact ⟨stray.character, by simp, hstray⟩
  · rintro ⟨c, hc, hstray⟩
    cases h : scan text with
    | ok tokens =>
      rw [(splits_of_scanFrom h).isTokenChar hc] at hstray
      cases hstray
    | error stray => exact ⟨stray, rfl⟩

/-- A character of a text that belongs to no token, with no other of the kind before it. -/
structure IsFirstStray (text : List Char) (stray : StrayCharacter) : Prop where
  /-- the character stands at its position -/
  getElem?_eq : text[stray.position]? = some stray.character
  /-- it belongs to no token -/
  isTokenChar_eq : isTokenChar stray.character = false
  /-- each character before it may belong to one -/
  before : ∀ i < stray.position, ∀ c ∈ text[i]?, isTokenChar c = true

variable {stray stray' : StrayCharacter}

/-- No character stands before the first one. -/
theorem IsFirstStray.position_le (h : IsFirstStray text stray) (h' : IsFirstStray text stray') :
    stray.position ≤ stray'.position := by
  by_contra! hlt
  have htoken := h.before _ hlt _ h'.getElem?_eq
  rw [h'.isTokenChar_eq] at htoken
  cases htoken

theorem IsFirstStray.eq (h : IsFirstStray text stray) (h' : IsFirstStray text stray') :
    stray = stray' := by
  have hposition : stray.position = stray'.position :=
    Nat.le_antisymm (h.position_le h') (h'.position_le h)
  have hcharacter : some stray.character = some stray'.character := by
    rw [← h.getElem?_eq, ← h'.getElem?_eq, hposition]
  cases stray
  cases stray'
  simp_all

/-- **The character that is found is the first that belongs to no token.** -/
theorem scan_eq_error_iff : scan text = .error stray ↔ IsFirstStray text stray := by
  have hfirst : ∀ {stray}, scan text = .error stray → IsFirstStray text stray := by
    intro stray h
    obtain ⟨front, back, hcut, hposition, hstray, hfront⟩ := exists_stray h
    rw [Nat.zero_add] at hposition
    refine ⟨?_, hstray, fun i hi c hc => ?_⟩
    · rw [hcut, hposition, List.getElem?_append_right le_rfl, Nat.sub_self]
      rfl
    · rw [hposition] at hi
      rw [hcut, List.getElem?_append_left hi] at hc
      exact hfront c (List.mem_of_getElem? hc)
  refine ⟨hfirst, fun h => ?_⟩
  obtain ⟨stray', hscan⟩ := exists_error_iff.mpr
    ⟨stray.character, List.mem_of_getElem? h.getElem?_eq, h.isTokenChar_eq⟩
  rw [hscan, (hfirst hscan).eq h]

/-! ## Whole texts -/

/-- **Nothing is lost when a text is split into tokens, and runs are as long as they can be.** A
text has no tokens exactly if one of its characters belongs to none, and then the first of these is
found, with its index. Otherwise the tokens are the ones that cover the text: their positions are
increasing indices of characters, they are spelled where they stand, no number and no subscript
could be longer, and a character is white space exactly when no token takes it. -/
theorem tokens_cover_text (text : String) :
    (∀ c, isTokenChar c = true ↔ Text.isBlank c = true ∨
      c ∈ ['+', '-', '\u2212', '*', '\u00b7', 'x', 'X', '.'] ∨ c.isDigit = true) ∧
    ((∃ stray, scan text.toList = .error stray) ↔ ∃ c ∈ text.toList, isTokenChar c = false) ∧
    (∀ stray, scan text.toList = .error stray ↔ IsFirstStray text.toList stray) ∧
    ∀ tokens, (scan text.toList = .ok tokens ↔ Covers 0 text.toList tokens) ∧
      (scan text.toList = .ok tokens →
        tokens.Pairwise (fun token later => token.position < later.position) ∧
          ∀ token ∈ tokens, token.position < text.length) := by
  refine ⟨fun c => isTokenChar_iff, exists_error_iff, fun stray => scan_eq_error_iff,
    fun tokens => ⟨scan_eq_ok_iff_covers, fun h => ?_⟩⟩
  have hcovers := scan_eq_ok_iff_covers.mp h
  refine ⟨hcovers.increasing, fun token htoken => ?_⟩
  rw [← String.length_toList]
  exact hcovers.position_lt_length htoken

/-- A text with two signs of more than one byte, and a run that two points do not end. -/
theorem tokens_cover_text_typeset :
    scan "\u2212 1.2.3\u00b7X12".toList =
        .ok [⟨.sign .minus, 0⟩, ⟨.number "1.2.3".toList, 2⟩, ⟨.times, 7⟩, ⟨.var "12".toList, 8⟩] ∧
      Covers 0 "\u2212 1.2.3\u00b7X12".toList
        [⟨.sign .minus, 0⟩, ⟨.number "1.2.3".toList, 2⟩, ⟨.times, 7⟩, ⟨.var "12".toList, 8⟩] ∧
      8 < "\u2212 1.2.3\u00b7X12".length ∧
      scan "\u2212x1 \u2264 3y".toList = .error ⟨'\u2264', 4⟩ ∧
      IsFirstStray "\u2212x1 \u2264 3y".toList ⟨'\u2264', 4⟩ := by
  have hscan : scan "\u2212 1.2.3\u00b7X12".toList =
      .ok [⟨.sign .minus, 0⟩, ⟨.number "1.2.3".toList, 2⟩, ⟨.times, 7⟩, ⟨.var "12".toList, 8⟩] := by
    cbv
  have hstray : scan "\u2212x1 \u2264 3y".toList = .error ⟨'\u2264', 4⟩ := by
    cbv
  obtain ⟨hcovers, hplaces⟩ := (tokens_cover_text _).2.2.2 _
  have hlast := (hplaces hscan).2 ⟨.var "12".toList, 8⟩ (by simp)
  exact ⟨hscan, hcovers.mp hscan, hlast, hstray, ((tokens_cover_text _).2.2.1 _).mp hstray⟩

end Token

end PrimalSimplex
