import PrimalSimplex.Proofs.Token

/-!
# Where tokens stand

The position of a token is the number of characters before it, so a text can be cut in front of each
of its tokens. The part before the cut splits into the tokens before it, and whatever is put after
it is split on its own, as long as it begins with the same character: a run of digits that ended at
the cut ends there again (`Token.exists_cut`). So a beginning of a text has the tokens of the text,
only that the last one may be cut short (`Token.areStartOf_of_scanFrom`).

A text that does not split has a character that belongs to no token, and the first of these is the
one that is found (`Token.exists_stray`).
-/

namespace PrimalSimplex

namespace Token

/-! ## Spellings -/

/-- What can be told of a kind of token from its first character: all but the text of a number or a
subscript. -/
def sort : TokenKind → TokenKind
  | .number _ => .number []
  | .var _ => .var []
  | .sign sign => .sign sign
  | .times => .times

theorem sort_eq_sign_iff {kind : TokenKind} {sign : Sign} :
    sort kind = .sign sign ↔ kind = .sign sign := by
  cases kind <;> simp [sort]

theorem sort_eq_times_iff {kind : TokenKind} : sort kind = .times ↔ kind = .times := by
  cases kind <;> simp [sort]

theorem sort_eq_var_iff {kind : TokenKind} :
    sort kind = .var [] ↔ ∃ subscript, kind = .var subscript := by
  cases kind <;> simp [sort]

/-- A token without its text. -/
def bare (token : Token) : Token := ⟨sort token.kind, token.position⟩

/-- Some tokens are the first of others, but for their texts. -/
def AreStartOf (start tokens : List Token) : Prop := start.map bare <+: tokens.map bare

/-- The sort of the token that a character begins. -/
def sortOf (c : Char) : TokenKind :=
  (symbol? c).getD (if isLetter c then .var [] else .number [])

/-- A spelling begins with a character that tells the sort of the token. -/
theorem IsSpelling.exists_head {kind : TokenKind} {spelling : List Char}
    (h : IsSpelling kind spelling) :
    ∃ c more, spelling = c :: more ∧ Text.isBlank c = false ∧ sort kind = sortOf c := by
  cases h with
  | plus => exact ⟨_, _, rfl, by decide, rfl⟩
  | minus hc | times hc =>
    refine ⟨_, _, rfl, ?_⟩
    rcases hc with rfl | rfl <;> decide
  | number hrun =>
    obtain ⟨hblank, hsymbol, hletter⟩ := classes_of_isNumeric (hrun _ List.mem_cons_self)
    exact ⟨_, _, rfl, hblank, by simp [sort, sortOf, hsymbol, hletter]⟩
  | var hc _ =>
    obtain ⟨hblank, hsymbol⟩ := classes_of_isLetter (isLetter_iff.mpr hc)
    exact ⟨_, _, rfl, hblank, by simp [sort, sortOf, hsymbol, isLetter_iff.mpr hc]⟩

/-! ## The loop at the front of a text -/

variable {position : Nat} {cs : List Char}

/-- White space in front of a text moves it on. -/
theorem scanFrom_blanks {lead : List Char} (hlead : ∀ c ∈ lead, Text.isBlank c = true)
    (position : Nat) (rest : List Char) :
    scanFrom position (lead ++ rest) = scanFrom (position + lead.length) rest := by
  induction lead generalizing position with
  | nil => rfl
  | cons c lead ih =>
    obtain ⟨hc, hlead⟩ := List.forall_mem_cons.mp hlead
    rw [List.cons_append, scanFrom, if_pos hc, ih hlead, List.length_cons, Nat.add_assoc,
      Nat.add_comm 1]

/-- What the loop finds first, and where. -/
theorem exists_spelling {token : Token} {after : List Token}
    (h : scanFrom position cs = .ok (token :: after)) :
    ∃ lead spelling back, cs = lead ++ (spelling ++ back) ∧
      (∀ c ∈ lead, Text.isBlank c = true) ∧ token.position = position + lead.length ∧
      IsSpelling token.kind spelling ∧ (∀ c ∈ back.head?, goesOnWith token.kind c = false) ∧
      scanFrom (position + lead.length + spelling.length) back = .ok after := by
  induction cs using munch_induction generalizing position with
  | done =>
    rw [scanFrom] at h
    cases h
  | blank c rest hblank ih =>
    rw [scanFrom, if_pos hblank] at h
    obtain ⟨lead, spelling, back, rfl, hlead, hposition, hspelling, hback, hafter⟩ := ih h
    refine ⟨c :: lead, spelling, back, rfl, List.forall_mem_cons.mpr ⟨hblank, hlead⟩, ?_,
      hspelling, hback, ?_⟩
    · rw [hposition, List.length_cons, Nat.add_assoc, Nat.add_comm 1]
    · rwa [List.length_cons, Nat.add_comm lead.length, ← Nat.add_assoc]
  | token kind spelling rest hspelling hstops ih =>
    rw [scanFrom_spelling hspelling hstops] at h
    obtain ⟨more, hmore, heq⟩ := map_eq_ok_iff.mp h
    cases heq
    exact ⟨[], spelling, rest, rfl, List.forall_mem_nil _, rfl, hspelling, hstops, hmore⟩
  | stray c rest hc =>
    rw [scanFrom_stray hc] at h
    cases h

/-! ## Cuts -/

/-- **A text can be cut in front of each of its tokens.** What is put after the cut is split on its
own if it begins as before. -/
theorem exists_cut {before after : List Token} {token : Token}
    (h : scanFrom position cs = .ok (before ++ token :: after)) :
    ∃ front spelling back, cs = front ++ (spelling ++ back) ∧
      token.position = position + front.length ∧ IsSpelling token.kind spelling ∧
      ∀ more : List Char, (∀ c ∈ more.head?, c ∈ spelling.head?) →
        scanFrom position (front ++ more) =
          (scanFrom (position + front.length) more).map (before ++ ·) := by
  induction before generalizing position cs with
  | nil =>
    obtain ⟨lead, spelling, back, rfl, hlead, hposition, hspelling, -, -⟩ := exists_spelling h
    refine ⟨lead, spelling, back, rfl, hposition, hspelling, fun more _ => ?_⟩
    rw [scanFrom_blanks hlead]
    cases scanFrom (position + lead.length) more <;> rfl
  | cons first before ih =>
    obtain ⟨lead, spelling₁, rest, rfl, hlead, hposition₁, hspelling₁, hrest, hafter⟩ :=
      exists_spelling h
    obtain ⟨front, spelling, back, rfl, hposition, hspelling, hmore⟩ := ih hafter
    refine ⟨lead ++ (spelling₁ ++ front), spelling, back, by simp, ?_, hspelling, ?_⟩
    · rw [hposition]
      simp only [List.length_append, Nat.add_assoc]
    · intro more hhead
      -- the first token ends where it did, be it at the cut
      have hstops : ∀ c ∈ (front ++ more).head?, goesOnWith first.kind c = false := by
        obtain ⟨c, spelling, rfl, -, -⟩ := hspelling.exists_head
        intro d hd
        refine hrest d ?_
        cases front with
        | nil => exact hhead d hd
        | cons => exact hd
      obtain ⟨kind, p⟩ := first
      obtain rfl : p = position + lead.length := hposition₁
      rw [List.append_assoc, List.append_assoc, scanFrom_blanks hlead,
        scanFrom_spelling hspelling₁ hstops, hmore more hhead]
      simp only [List.length_append, Nat.add_assoc]
      cases scanFrom (position + (lead.length + (spelling₁.length + front.length))) more <;> rfl

theorem AreStartOf.append {start tokens : List Token} (h : AreStartOf start tokens)
    (before : List Token) : AreStartOf (before ++ start) (before ++ tokens) := by
  rw [AreStartOf, List.map_append, List.map_append]
  exact (List.prefix_append_right_inj _).mpr h

/-- The first token of a start that is not empty. -/
theorem AreStartOf.exists_cons {token : Token} {start tokens : List Token}
    (h : AreStartOf (token :: start) tokens) :
    ∃ head after, tokens = head :: after ∧ sort head.kind = sort token.kind ∧
      head.position = token.position ∧ AreStartOf start after := by
  cases tokens with
  | nil => exact absurd (List.prefix_nil.mp h) (List.cons_ne_nil _ _)
  | cons head after =>
    obtain ⟨hbare, hafter⟩ := List.cons_prefix_cons.mp h
    injection hbare with hsort hposition
    exact ⟨head, after, rfl, hsort.symm, hposition.symm, hafter⟩

/-- A text without tokens is blank. -/
theorem Splits.isBlank {kinds : List TokenKind} (h : Splits cs kinds) (hkinds : kinds = [])
    {c : Char} (hc : c ∈ cs) : Text.isBlank c = true := by
  induction h with
  | done => cases hc
  | blank hd _ ih =>
    rcases List.mem_cons.mp hc with rfl | hc
    · exact hd
    · exact ih hkinds hc
  | plus | minus | times | number | var => cases hkinds

/-- A token begins at a character that is not blank. -/
theorem exists_first {c : Char} {rest : List Char} {tokens : List Token}
    (hc : Text.isBlank c = false) (h : scanFrom position (c :: rest) = .ok tokens) :
    ∃ token after, tokens = token :: after ∧ bare token = ⟨sortOf c, position⟩ := by
  cases tokens with
  | nil =>
    have hblank := (splits_of_scanFrom h).isBlank rfl List.mem_cons_self
    rw [hc] at hblank
    cases hblank
  | cons token after =>
    obtain ⟨lead, spelling, back, hcut, hlead, hposition, hspelling, -, -⟩ := exists_spelling h
    refine ⟨token, after, rfl, ?_⟩
    cases lead with
    | nil =>
      obtain ⟨d, more, rfl, -, hsort⟩ := hspelling.exists_head
      obtain rfl : c = d := (List.cons.inj hcut).1
      rw [bare, hsort, hposition]
      rfl
    | cons d lead =>
      obtain rfl : c = d := (List.cons.inj hcut).1
      rw [hlead c List.mem_cons_self] at hc
      cases hc

/-- **A beginning of a text has the first tokens of the text**, but for the text of the last one,
which may be cut short. -/
theorem areStartOf_of_scanFrom {lead rest : List Char} {tokens start : List Token}
    (h : scanFrom position (lead ++ rest) = .ok tokens)
    (hlead : scanFrom position lead = .ok start) : AreStartOf start tokens := by
  induction start generalizing position lead tokens with
  | nil => exact List.nil_prefix
  | cons first start ih =>
    obtain ⟨blanks, spelling, back, rfl, hblanks, hposition, hspelling, hback, hafter⟩ :=
      exists_spelling hlead
    obtain ⟨kind, p⟩ := first
    obtain rfl : p = position + blanks.length := hposition
    rw [List.append_assoc, List.append_assoc, scanFrom_blanks hblanks] at h
    cases back with
    | nil =>
      -- the token may go on after the beginning
      rw [scanFrom] at hafter
      cases hafter
      obtain ⟨c, more, rfl, hc, hsort⟩ := hspelling.exists_head
      obtain ⟨token, after, rfl, hbare⟩ := exists_first hc h
      refine ⟨after.map bare, ?_⟩
      rw [List.map_cons, List.map_cons, hbare, ← hsort]
      rfl
    | cons d back =>
      have hstops : ∀ c ∈ (d :: back ++ rest).head?, goesOnWith kind c = false :=
        fun c hc => hback c hc
      rw [scanFrom_spelling hspelling hstops] at h
      obtain ⟨tokens, htokens, rfl⟩ := map_eq_ok_iff.mp h
      exact (List.prefix_cons_inj _).mpr (ih htokens hafter)

/-! ## Characters that belong to no token -/

/-- **The character that is found is the first that belongs to no token.** -/
theorem exists_stray {stray : StrayCharacter} (h : scanFrom position cs = .error stray) :
    ∃ front back, cs = front ++ stray.character :: back ∧
      stray.position = position + front.length ∧ isTokenChar stray.character = false ∧
      ∀ c ∈ front, isTokenChar c = true := by
  induction cs using munch_induction generalizing position with
  | done =>
    rw [scanFrom] at h
    cases h
  | blank c rest hblank ih =>
    rw [scanFrom, if_pos hblank] at h
    obtain ⟨front, back, rfl, hposition, hstray, hfront⟩ := ih h
    refine ⟨c :: front, back, rfl, ?_, hstray, List.forall_mem_cons.mpr ⟨?_, hfront⟩⟩
    · rw [hposition, List.length_cons, Nat.add_assoc, Nat.add_comm 1]
    · simp [isTokenChar, hblank]
  | token kind spelling rest hspelling hstops ih =>
    rw [scanFrom_spelling hspelling hstops, map_eq_error_iff] at h
    obtain ⟨front, back, rfl, hposition, hstray, hfront⟩ := ih h
    have hsplits : Splits (spelling ++ []) [kind] := hspelling.splits (by simp) .done
    refine ⟨spelling ++ front, back, (List.append_assoc _ _ _).symm, ?_, hstray,
      List.forall_mem_append.mpr ⟨fun c hc => ?_, hfront⟩⟩
    · rw [hposition, List.length_append, Nat.add_assoc]
    · exact hsplits.isTokenChar (List.mem_append_left _ hc)
  | stray c rest hc =>
    rw [scanFrom_stray hc] at h
    cases h
    exact ⟨[], rest, rfl, rfl, hc, List.forall_mem_nil _⟩

/-- A beginning of a text that splits splits as well. -/
theorem exists_scanFrom_lead {lead rest : List Char} {tokens : List Token} (position' : Nat)
    (h : scanFrom position (lead ++ rest) = .ok tokens) :
    ∃ tokens', scanFrom position' lead = .ok tokens' := by
  cases hlead : scanFrom position' lead with
  | ok tokens' => exact ⟨tokens', rfl⟩
  | error stray =>
    obtain ⟨front, back, rfl, -, hstray, -⟩ := exists_stray hlead
    have hmem : stray.character ∈ front ++ stray.character :: back ++ rest := by simp
    rw [(splits_of_scanFrom h).isTokenChar hmem] at hstray
    cases hstray

/-! ## Whole texts -/

/-- **A text at one of its tokens**: the token stands at its position, the beginning before it has
the tokens before it, and a longer beginning has these and goes on as the text does. -/
theorem scan_cut {before after : List Token} {token : Token}
    (h : scan cs = .ok (before ++ token :: after)) :
    (∃ spelling, spelling <+: cs.drop token.position ∧ IsSpelling token.kind spelling) ∧
      scan (cs.take token.position) = .ok before ∧
      ∀ q, token.position < q → ∃ token' after',
        scan (cs.take q) = .ok (before ++ token' :: after') ∧
        AreStartOf (token' :: after') (token :: after) := by
  obtain ⟨front, spelling, back, rfl, hposition, hspelling, hcut⟩ := exists_cut h
  rw [Nat.zero_add] at hposition hcut
  rw [hposition, List.take_left, List.drop_left]
  refine ⟨⟨spelling, List.prefix_append _ _, hspelling⟩, ?_, fun q hq => ?_⟩
  · have hfront := hcut [] (by simp)
    rw [List.append_nil, scanFrom] at hfront
    rw [scan, hfront]
    simp [Except.map]
  · obtain ⟨c, more, rfl, hc, -⟩ := hspelling.exists_head
    obtain ⟨n, rfl⟩ := Nat.exists_eq_add_of_lt hq
    have hrest : scanFrom front.length (c :: more ++ back) = .ok (token :: after) := by
      rw [scan, hcut (c :: more ++ back) fun _ => id] at h
      obtain ⟨tokens, htokens, heq⟩ := map_eq_ok_iff.mp h
      rw [htokens, List.append_cancel_left heq]
    have hbeginning : (front ++ (c :: more ++ back)).take (front.length + n + 1) =
        front ++ c :: (more ++ back).take n := by
      rw [Nat.add_assoc, List.take_length_add_append, List.cons_append, List.take_succ_cons]
    have hsplit : (c :: (more ++ back).take n) ++ (more ++ back).drop n = c :: more ++ back := by
      rw [List.cons_append, List.take_append_drop, List.cons_append]
    rw [← hsplit] at hrest
    obtain ⟨tokens', htokens'⟩ := exists_scanFrom_lead front.length hrest
    have hstart := areStartOf_of_scanFrom hrest htokens'
    obtain ⟨token', after', rfl, -⟩ := exists_first hc htokens'
    refine ⟨token', after', ?_, hstart⟩
    rw [scan, hbeginning, hcut (c :: (more ++ back).take n) fun _ => id, htokens']
    rfl

end Token

end PrimalSimplex
