import PrimalSimplex.Proofs.LowerCase
import PrimalSimplex.Proofs.Constraint
import PrimalSimplex.Proofs.Reading

/-!
# What stands in front of an objective function

An expression may be introduced in several ways (`Objective.IsHeader`): not at all, by a keyword of
maximisation in any letter case, or by anything that ends with a `z` and an equals sign. Each of
them leads to the same objective function, that of the expression on its own.

What makes this work is that an expression has few characters. There is no equals sign in it, so
the one that is found is that of the header; there is no `m`, so it does not start with a keyword;
there is no `n`, so a minimisation can be mentioned in the header only. Blanks in front of an
expression do not matter (`isExpression_trimStart_iff`), so it does not matter either how many of
them are taken for a part of the header.
-/

namespace PrimalSimplex

namespace Text

theorem trimStart_blanks_append {lead : List Char} (hlead : ∀ c ∈ lead, isBlank c = true)
    (cs : List Char) : trimStart (lead ++ cs) = trimStart cs :=
  List.dropWhile_append_of_pos hlead

theorem trimStart_append_cons {c : Char} (hc : isBlank c = false) (front rest : List Char) :
    trimStart (front ++ c :: rest) = trimStart front ++ c :: rest := by
  rw [trimStart, List.dropWhile_append, trimStart]
  split
  · rename_i hempty
    rw [List.isEmpty_iff.mp hempty, List.dropWhile_cons_of_neg (by simp [hc]), List.nil_append]
  · rfl

theorem trimStart_trimStart (cs : List Char) : trimStart (trimStart cs) = trimStart cs :=
  List.dropWhile_idempotent isBlank cs

theorem mem_of_mem_trimStart {cs : List Char} {c : Char} (h : c ∈ trimStart cs) : c ∈ cs :=
  (List.dropWhile_sublist isBlank).mem h

end Text

/-! ## Blanks in front of an expression -/

theorem Token.splits_trimStart_iff {cs : List Char} {kinds : List TokenKind} :
    Splits (Text.trimStart cs) kinds ↔ Splits cs kinds := by
  induction cs with
  | nil => rfl
  | cons c cs ih =>
    cases hc : Text.isBlank c with
    | false => rw [Text.trimStart, List.dropWhile_cons_of_neg (by simp [hc])]
    | true =>
      rw [Text.trimStart, List.dropWhile_cons_of_pos hc, ← Text.trimStart, ih]
      refine ⟨.blank hc, fun h => ?_⟩
      obtain ⟨tokens, htokens, rfl⟩ := h.scanFrom 0
      rw [Token.scanFrom, if_pos hc] at htokens
      exact splits_of_scanFrom htokens

theorem isExpression_trimStart_iff {cs : List Char} {terms : List WrittenTerm} :
    IsExpression (Text.trimStart cs) terms ↔ IsExpression cs terms := by
  constructor
  · rintro ⟨⟨kinds, hsplits, hspells⟩, hvalid⟩
    exact ⟨⟨kinds, Token.splits_trimStart_iff.mp hsplits, hspells⟩, hvalid⟩
  · rintro ⟨⟨kinds, hsplits, hspells⟩, hvalid⟩
    exact ⟨⟨kinds, Token.splits_trimStart_iff.mpr hsplits, hspells⟩, hvalid⟩

namespace Objective

/-! ## Characters -/

/-- A character that no header is recognised by. -/
@[mk_iff]
structure IsPlain (c : Char) : Prop where
  /-- it cannot be the `n` of a minimisation -/
  n_not_mem : 'n' ∉ Text.lowerOne c
  /-- it cannot be the `m` of a keyword -/
  m_not_mem : 'm' ∉ Text.lowerOne c
  /-- it does not end a name -/
  ne_equals : c ≠ '='
  /-- it does not end a keyword -/
  ne_colon : c ≠ ':'

instance (c : Char) : Decidable (IsPlain c) := decidable_of_iff' _ (isPlain_iff c)

theorem isPlain_of_isTokenChar {c : Char} (h : Token.isTokenChar c = true) : IsPlain c := by
  simp only [Token.isTokenChar, Token.isNumeric, Bool.or_eq_true, beq_iff_eq] at h
  rcases h with ((hblank | hsymbol) | hletter) | hdigit | rfl
  · have hlower := (Text.classes_of_isBlank hblank).1
    rw [isPlain_iff, hlower, List.mem_singleton, List.mem_singleton]
    refine ⟨?_, ?_, ?_, ?_⟩ <;> rintro rfl <;> exact absurd hblank (by decide)
  · obtain ⟨kind, hkind⟩ := Option.isSome_iff_exists.mp hsymbol
    rcases Token.symbol?_eq_some_iff.mp hkind with ⟨rfl, -⟩ | ⟨rfl | rfl, -⟩ | ⟨rfl | rfl, -⟩ <;>
      decide
  · rcases Token.isLetter_iff.mp hletter with rfl | rfl <;> decide
  · exact Token.forall_isDigit (by decide) hdigit
  · decide

theorem isPlain_of_isBlank {c : Char} (h : Text.isBlank c = true) : IsPlain c :=
  isPlain_of_isTokenChar (by simp [Token.isTokenChar, h])

/-- A word is not found in a text in which no character has a certain letter of it. -/
theorem occursIn_lower_eq_false {word cs : List Char} {letter : Char}
    (hsigma : '\u03c2' ∉ word ∧ '\u03c3' ∉ word) (hletter : letter ∈ word)
    (h : ∀ c ∈ cs, letter ∉ Text.lowerOne c) : Text.occursIn word (Text.lower cs) = false := by
  rw [Text.occursIn_lower hsigma]
  by_contra hoccurs
  obtain ⟨c, hc, hlower⟩ :=
    List.mem_flatMap.mp (Text.mem_of_occursIn (eq_true_of_ne_false hoccurs) hletter)
  exact h c hc hlower

theorem mentionsMinimum_iff {cs : List Char} :
    mentionsMinimum cs = true ↔ "min".toList <:+: Text.lower cs :=
  Text.occursIn_iff_infix

theorem mentionsMinimum_eq_false {cs : List Char} (h : ∀ c ∈ cs, 'n' ∉ Text.lowerOne c) :
    mentionsMinimum cs = false :=
  occursIn_lower_eq_false (by decide) (by decide) h

/-! ## Names -/

/-- Whether a text has a name in it: a `z` and an equals sign with nothing but blanks between. -/
def HasName (cs : List Char) : Prop :=
  ∃ front z gap back, (z = 'z' ∨ z = 'Z') ∧ (∀ c ∈ gap, Text.isBlank c = true) ∧
    cs = front ++ z :: (gap ++ '=' :: back)

variable {t : List Char}

/-- **A name that is found is the first one.** -/
theorem exists_name_of_afterName? {cs : List Char} (h : afterName? cs = some t) :
    ∃ front z gap, afterName? front = none ∧ (z = 'z' ∨ z = 'Z') ∧
      (∀ c ∈ gap, Text.isBlank c = true) ∧ cs = front ++ z :: (gap ++ '=' :: t) := by
  induction cs with
  | nil => cases h
  | cons c cs ih =>
    unfold afterName? at h
    split_ifs at h with hc
    · split at h
      · rename_i expression htrim
        obtain rfl := Option.some.inj h
        obtain ⟨gap, hgap, hcs⟩ := Text.exists_trimStart cs
        rw [htrim] at hcs
        exact ⟨[], c, gap, rfl, hc, hgap, congrArg (c :: ·) hcs⟩
      · rename_i hnot
        obtain ⟨front, z, gap, hfront, hz, hgap, rfl⟩ := ih h
        refine ⟨c :: front, z, gap, ?_, hz, hgap, rfl⟩
        -- an equals sign after the first character would be found in the longer text
        have hblank : Text.isBlank z = false := by rcases hz with rfl | rfl <;> decide
        rw [afterName?, if_pos hc]
        split
        · rename_i rest htrim
          refine absurd ?_ (hnot (rest ++ z :: (gap ++ '=' :: t)))
          rw [Text.trimStart_append_cons hblank, htrim, List.cons_append]
        · exact hfront
    · obtain ⟨front, z, gap, hfront, hz, hgap, rfl⟩ := ih h
      refine ⟨c :: front, z, gap, ?_, hz, hgap, rfl⟩
      rw [afterName?, if_neg hc]
      exact hfront

/-- The expression is what follows the first name. -/
theorem afterName?_append {front gap : List Char} {z : Char} (hfront : afterName? front = none)
    (hz : z = 'z' ∨ z = 'Z') (hgap : ∀ c ∈ gap, Text.isBlank c = true) (t : List Char) :
    afterName? (front ++ z :: (gap ++ '=' :: t)) = some t := by
  have hclasses : Text.isBlank z = false ∧ z ≠ '=' := by
    rcases hz with rfl | rfl <;> decide
  induction front with
  | nil =>
    have htrim : Text.trimStart (gap ++ '=' :: t) = '=' :: t :=
      Text.trimStart_append hgap fun c hc => by obtain rfl := Option.some.inj hc; decide
    simp only [List.nil_append, afterName?, if_pos hz, htrim]
  | cons c front ih =>
    rw [List.cons_append, afterName?]
    unfold afterName? at hfront
    split_ifs at hfront with hc
    · -- an equals sign after this `z` would stand in front of the other one
      rw [if_pos hc, Text.trimStart_append_cons hclasses.1]
      cases htrim : Text.trimStart front with
      | nil =>
        rw [htrim] at hfront
        rw [List.nil_append]
        split
        · rename_i heq
          exact absurd (List.cons.inj heq).1 hclasses.2
        · exact ih hfront
      | cons d rest =>
        rw [htrim] at hfront
        rw [List.cons_append]
        split
        · rename_i heq
          obtain ⟨rfl, -⟩ := List.cons.inj heq
          cases hfront
        · split at hfront
          · cases hfront
          · exact ih hfront
    · rw [if_neg hc]
      exact ih hfront

theorem afterName?_of_cons {cs : List Char} {c : Char} (h : afterName? (c :: cs) = none) :
    afterName? cs = none := by
  unfold afterName? at h
  split_ifs at h
  · split at h
    · cases h
    · exact h
  · exact h

/-- Nothing is found in a text without names, and only there. -/
theorem afterName?_eq_none_iff {cs : List Char} : afterName? cs = none ↔ ¬HasName cs := by
  constructor
  · rintro h ⟨front, z, gap, back, hz, hgap, rfl⟩
    induction front with
    | nil => exact Option.some_ne_none _ ((afterName?_append rfl hz hgap back).symm.trans h)
    | cons c front ih => exact ih (afterName?_of_cons h)
  · intro h
    refine Option.eq_none_iff_forall_ne_some.mpr fun t hsome => h ?_
    obtain ⟨front, z, gap, -, hz, hgap, hcs⟩ := exists_name_of_afterName? hsome
    exact ⟨front, z, gap, t, hz, hgap, hcs⟩

theorem not_hasName {cs : List Char} (h : '=' ∉ cs) : ¬HasName cs := by
  rintro ⟨front, z, gap, back, -, -, rfl⟩
  exact h (by simp)

/-! ## Keywords -/

/-- A keyword is recognised where it ends. -/
theorem find?_startsWithKeyword {keyword : String} (hkeyword : keyword ∈ keywords) {c : Char}
    (hc : Text.isAlphanumeric c = false) (rest : List Char) :
    keywords.find? (startsWithKeyword (keyword.toList ++ c :: rest)) = some keyword := by
  have hletters : keywords.all (fun k => k.toList.all Text.isAlphanumeric) = true := by decide
  have hself : startsWithKeyword (keyword.toList ++ c :: rest) keyword = true := by
    have hstart : keyword.toList.isPrefixOf (keyword.toList ++ c :: rest) = true :=
      List.isPrefixOf_iff_prefix.mpr (List.prefix_append _ _)
    rw [startsWithKeyword, hstart, ← String.length_toList, List.drop_left]
    simp [hc]
  have hother : ∀ k ∈ keywords, k.toList.isPrefixOf keyword.toList = false →
      ¬startsWithKeyword (keyword.toList ++ c :: rest) k = true := by
    intro k hk hstart
    have hnot : c ∉ k.toList := fun hmem => by
      rw [List.all_eq_true.mp (List.all_eq_true.mp hletters k hk) c hmem] at hc
      cases hc
    rw [startsWithKeyword, Text.isPrefixOf_append_cons hnot, hstart]
    exact Bool.false_ne_true
  simp only [keywords, List.mem_cons, List.not_mem_nil, or_false] at hkeyword
  rcases hkeyword with rfl | rfl | rfl
  · exact List.find?_cons_of_pos hself
  · rw [keywords, List.find?_cons_of_neg (hother _ (by decide) (by decide))]
    exact List.find?_cons_of_pos hself
  · rw [keywords, List.find?_cons_of_neg (hother _ (by decide) (by decide)),
      List.find?_cons_of_neg (hother _ (by decide) (by decide))]
    exact List.find?_cons_of_pos hself

/-- What may stand between a keyword and an expression. -/
inductive IsMark : List Char → Prop where
  /-- blanks -/
  | blanks {gap : List Char} : gap ≠ [] → (∀ c ∈ gap, Text.isBlank c = true) → IsMark gap
  /-- a colon, with or without blanks around it -/
  | colon {gap gap' : List Char} : (∀ c ∈ gap, Text.isBlank c = true) →
      (∀ c ∈ gap', Text.isBlank c = true) → IsMark (gap ++ ':' :: gap')

theorem IsMark.ne_nil {mark : List Char} (h : IsMark mark) : mark ≠ [] := by
  cases h with
  | blanks hne _ => exact hne
  | colon => simp

theorem IsMark.isBlank_or_eq {mark : List Char} (h : IsMark mark) {c : Char} (hc : c ∈ mark) :
    Text.isBlank c = true ∨ c = ':' := by
  cases h with
  | blanks _ hgap => exact .inl (hgap c hc)
  | colon hgap hgap' =>
    rcases List.mem_append.mp hc with hc | hc
    · exact .inl (hgap c hc)
    · rcases List.mem_cons.mp hc with rfl | hc
      · exact .inr rfl
      · exact .inl (hgap' c hc)

/-- A mark has neither letters nor digits. -/
theorem IsMark.classes_of_mem {mark : List Char} (h : IsMark mark) {c : Char} (hc : c ∈ mark) :
    Text.lowerOne c = [c] ∧ Text.isAlphanumeric c = false ∧ c ≠ '=' := by
  rcases h.isBlank_or_eq hc with hblank | rfl
  · obtain ⟨hlower, halphanumeric⟩ := Text.classes_of_isBlank hblank
    exact ⟨hlower, halphanumeric, (isPlain_of_isBlank hblank).ne_equals⟩
  · decide +kernel

/-- There is no colon in front of an expression, so only blanks are taken off. -/
theorem trimStart_dropLeading (ht : ∀ c ∈ t, IsPlain c) :
    Text.trimStart (Text.dropLeading ':' (Text.trimStart t)) = Text.trimStart t := by
  have hdrop : Text.dropLeading ':' (Text.trimStart t) = Text.trimStart t := by
    rcases htrim : Text.trimStart t with - | ⟨c, rest⟩
    · rfl
    · have hc : c ∈ t := Text.mem_of_mem_trimStart (by rw [htrim]; exact List.mem_cons_self)
      exact if_neg (ht c hc).ne_colon
  rw [hdrop, Text.trimStart_trimStart]

/-- Behind a keyword and its mark there is the expression, but for blanks in front of it. -/
theorem IsMark.trimStart_dropLeading {mark : List Char} (h : IsMark mark)
    (ht : ∀ c ∈ t, IsPlain c) :
    Text.trimStart (Text.dropLeading ':' (Text.trimStart (mark ++ t))) = Text.trimStart t := by
  cases h with
  | blanks _ hgap => rw [Text.trimStart_blanks_append hgap, Objective.trimStart_dropLeading ht]
  | @colon gap gap' hgap hgap' =>
    have htrim : Text.trimStart (gap ++ ':' :: (gap' ++ t)) = ':' :: (gap' ++ t) :=
      Text.trimStart_append hgap fun c hc => by obtain rfl := Option.some.inj hc; decide
    rw [List.append_assoc, List.cons_append, htrim, Text.dropLeading, if_pos rfl,
      Text.trimStart_blanks_append hgap']

/-- A keyword, in any letter case. -/
structure IsKeyword (word : List Char) (keyword : String) : Prop where
  /-- the keyword is one of maximisation -/
  mem : keyword ∈ ["max", "maximize", "maximizar"]
  /-- the word differs in letter case only -/
  map_toLower : word.map Char.toLower = keyword.toList

namespace IsKeyword

variable {word : List Char} {keyword : String}

theorem mem_keywords (h : IsKeyword word keyword) : keyword ∈ keywords := by
  have hmem := h.mem
  simp only [List.mem_cons, List.not_mem_nil, or_false] at hmem
  rcases hmem with rfl | rfl | rfl <;> decide

theorem length_eq (h : IsKeyword word keyword) : word.length = keyword.length := by
  rw [← String.length_toList, ← h.map_toLower, List.length_map]

theorem ne_nil (h : IsKeyword word keyword) : word ≠ [] := by
  have hkeywords : ∀ k ∈ keywords, k.toList ≠ [] := by decide
  rintro rfl
  exact hkeywords keyword h.mem_keywords h.map_toLower.symm

/-- A letter of a keyword, in either case. -/
theorem classes_of_mem (h : IsKeyword word keyword) {c : Char} (hc : c ∈ word) :
    c.toNat < 128 ∧ 'n' ∉ Text.lowerOne c ∧ Text.isBlank c = false ∧ c ≠ '=' := by
  have hletters : keywords.all (fun k => k.toList.all fun d =>
      decide (d.toNat < 128 ∧ d ≠ 'n' ∧ Text.isBlank d = false ∧ d ≠ '=')) = true := by decide
  have hmem : c.toLower ∈ keyword.toList := h.map_toLower ▸ List.mem_map_of_mem hc
  obtain ⟨hlt, hn, hblank, hequals⟩ := of_decide_eq_true
    (List.all_eq_true.mp (List.all_eq_true.mp hletters keyword h.mem_keywords) _ hmem)
  have hlower := Text.lowerOne_of_lt (Text.lt_of_toLower_lt hlt)
  refine ⟨Text.lt_of_toLower_lt hlt, ?_, ?_, ?_⟩
  · rw [hlower, List.mem_singleton]
    exact Ne.symm hn
  · by_contra hc
    rw [(Text.classes_of_isBlank (eq_true_of_ne_false hc)).1] at hlower
    obtain ⟨heq, -⟩ := List.cons.inj hlower
    rw [← heq] at hblank
    exact hc hblank
  · rintro rfl
    exact hequals rfl

/-- What follows a keyword that ends where no letter and no digit follows. -/
theorem afterKeyword?_eq (h : IsKeyword word keyword) {c d : Char}
    (hlower : Text.lowerOne c = [d]) (hd : Text.isAlphanumeric d = false) (rest : List Char) :
    afterKeyword? (word ++ c :: rest) =
      some (Text.dropLeading ':' (Text.trimStart (c :: rest))) := by
  have hsigma : c ≠ Text.capitalSigma := by
    rintro rfl
    obtain rfl : '\u03c3' = d := (List.cons.inj hlower).1
    exact absurd hd (by decide +kernel)
  have htext : Text.lower (word ++ c :: rest) =
      keyword.toList ++ d :: Text.lowerAfter (c :: (word.reverse ++ [])) rest := by
    rw [Text.lower, Text.lowerAfter_append fun d hd => (h.classes_of_mem hd).1, h.map_toLower,
      Text.lowerAfter_cons hsigma, hlower, List.singleton_append]
  rw [afterKeyword?, htext, find?_startsWithKeyword h.mem_keywords hd, Option.map_some,
    ← h.length_eq, List.drop_left]

/-- **A keyword at the front of a text leads to what follows it**, if there are no names. -/
theorem expression?_eq (h : IsKeyword word keyword) {lead rest : List Char}
    (hlead : ∀ c ∈ lead, Text.isBlank c = true) {c d : Char} (hlower : Text.lowerOne c = [d])
    (hd : Text.isAlphanumeric d = false) (hequals : '=' ∉ c :: rest) :
    expression? (lead ++ (word ++ c :: rest)) =
      some (Text.dropLeading ':' (Text.trimStart (c :: rest))) := by
  have hnone : afterName? (lead ++ (word ++ c :: rest)) = none := by
    refine afterName?_eq_none_iff.mpr (not_hasName fun hmem => ?_)
    rcases List.mem_append.mp hmem with hmem | hmem
    · exact (isPlain_of_isBlank (hlead _ hmem)).ne_equals rfl
    · rcases List.mem_append.mp hmem with hmem | hmem
      · exact (h.classes_of_mem hmem).2.2.2 rfl
      · exact hequals hmem
  have htrim : Text.trimStart (lead ++ (word ++ c :: rest)) = word ++ c :: rest := by
    refine Text.trimStart_append hlead fun c hc => ?_
    rw [List.head?_append_of_ne_nil _ h.ne_nil] at hc
    exact (h.classes_of_mem (List.mem_of_mem_head? hc)).2.2.1
  simp only [expression?, hnone, htrim, h.afterKeyword?_eq hlower hd]

end IsKeyword

/-! ## Headers -/

/-- What may stand in front of an expression. -/
inductive IsHeader (t : List Char) : List Char → Prop where
  /-- nothing -/
  | bare : IsHeader t []
  /-- a keyword and its mark, after blanks perhaps -/
  | keyword {lead word mark : List Char} {keyword : String} :
      (∀ c ∈ lead, Text.isBlank c = true) → IsKeyword word keyword → IsMark mark →
        IsHeader t (lead ++ (word ++ mark))
  /-- anything that ends with a name and has no other in it, unless the line mentions a
  minimisation -/
  | name {front gap : List Char} {z : Char} : ¬HasName front → z = 'z' ∨ z = 'Z' →
      (∀ c ∈ gap, Text.isBlank c = true) →
      ¬"min".toList <:+: Text.lower (front ++ z :: (gap ++ '=' :: t)) →
        IsHeader t (front ++ z :: (gap ++ ['=']))

theorem afterKeyword?_eq_none {cs : List Char} (h : ∀ c ∈ cs, 'm' ∉ Text.lowerOne c) :
    afterKeyword? cs = none := by
  have hkeywords : ∀ k ∈ keywords,
      ('\u03c2' ∉ k.toList ∧ '\u03c3' ∉ k.toList) ∧ 'm' ∈ k.toList := by
    decide
  rw [afterKeyword?, Option.map_eq_none_iff, List.find?_eq_none]
  intro k hk hstarts
  have hstart := (Bool.and_eq_true_iff.mp hstarts).1
  have hoccurs : Text.occursIn k.toList (Text.lower cs) = true :=
    Text.occursIn_iff_infix.mpr (List.isPrefixOf_iff_prefix.mp hstart).isInfix
  obtain ⟨hsigma, hm⟩ := hkeywords k hk
  rw [occursIn_lower_eq_false hsigma hm h] at hoccurs
  cases hoccurs

/-- A header with a keyword does not mention a minimisation. -/
theorem n_not_mem_of_keyword {lead word mark : List Char} {keyword : String}
    (hlead : ∀ c ∈ lead, Text.isBlank c = true) (hword : IsKeyword word keyword)
    (hmark : IsMark mark) {c : Char} (hc : c ∈ lead ++ (word ++ mark)) :
    'n' ∉ Text.lowerOne c := by
  simp only [List.mem_append] at hc
  rcases hc with hc | hc | hc
  · exact (isPlain_of_isBlank (hlead c hc)).n_not_mem
  · exact (hword.classes_of_mem hc).2.1
  · obtain ⟨hlower, halphanumeric, -⟩ := hmark.classes_of_mem hc
    rw [hlower, List.mem_singleton]
    rintro rfl
    exact absurd halphanumeric (by decide)

variable {header : List Char}

/-- Only an arbitrary header can mention a minimisation. -/
theorem IsHeader.mentionsMinimum_eq (h : IsHeader t header) (ht : ∀ c ∈ t, IsPlain c) :
    mentionsMinimum (header ++ t) = false := by
  cases h with
  | bare => exact mentionsMinimum_eq_false fun c hc => (ht c hc).n_not_mem
  | @keyword lead word mark keyword hlead hword hmark =>
    refine mentionsMinimum_eq_false fun c hc => ?_
    rcases List.mem_append.mp hc with hc | hc
    · exact n_not_mem_of_keyword hlead hword hmark hc
    · exact (ht c hc).n_not_mem
  | @name front gap z hfront hz hgap hminimum =>
    rw [List.append_assoc, List.cons_append, List.append_assoc, List.singleton_append]
    exact Bool.eq_false_iff.mpr (mt mentionsMinimum_iff.mp hminimum)

/-- **Every header leads to the expression**, but for blanks in front of it. -/
theorem IsHeader.expression?_eq (h : IsHeader t header) (ht : ∀ c ∈ t, IsPlain c) :
    ∃ expression, expression? (header ++ t) = some expression ∧
      Text.trimStart expression = Text.trimStart t := by
  have hequals : '=' ∉ t := fun hmem => (ht _ hmem).ne_equals rfl
  cases h with
  | bare =>
    refine ⟨Text.trimStart t, ?_, Text.trimStart_trimStart t⟩
    have hcontains : (Text.trimStart t).contains '=' = false := by
      simpa using mt Text.mem_of_mem_trimStart hequals
    simp only [List.nil_append, expression?, afterName?_eq_none_iff.mpr (not_hasName hequals),
      afterKeyword?_eq_none fun c hc => (ht c (Text.mem_of_mem_trimStart hc)).m_not_mem,
      hcontains, Bool.false_eq_true, if_false]
  | @keyword lead word mark keyword hlead hword hmark =>
    refine ⟨_, ?_, hmark.trimStart_dropLeading ht⟩
    have hmark' : '=' ∉ mark ++ t := fun hmem =>
      (List.mem_append.mp hmem).elim (fun hmem => (hmark.classes_of_mem hmem).2.2 rfl) hequals
    obtain ⟨c, rest, rfl⟩ := List.exists_cons_of_ne_nil hmark.ne_nil
    obtain ⟨hlower, halphanumeric, -⟩ := hmark.classes_of_mem List.mem_cons_self
    rw [List.append_assoc, List.append_assoc]
    exact hword.expression?_eq hlead hlower halphanumeric hmark'
  | @name front gap z hfront hz hgap _ =>
    refine ⟨t, ?_, rfl⟩
    have hname := afterName?_append (afterName?_eq_none_iff.mpr hfront) hz hgap t
    rw [List.append_assoc, List.cons_append, List.append_assoc, List.singleton_append]
    simp only [expression?, hname]

end Objective

/-! ## Objective functions -/

section Reading

variable {F : Type} [Zero F] [One F] [Add F] [Neg F] [BEq F] [Numeral F]

/-- A minimisation is refused, and nothing else is refused for its direction. -/
theorem LinearExpression.readObjective_eq_unsupportedDirection_iff {text : String} {t : String} :
    readObjective (F := F) text = .error (.unsupportedDirection t) ↔
      Objective.mentionsMinimum text.toList = true ∧ t = String.ofList (Text.trim text.toList) := by
  constructor
  · intro h
    unfold readObjective at h
    split_ifs at h with hminimum
    · obtain rfl := ProblemError.unsupportedDirection.inj (Except.error.inj h)
      exact ⟨hminimum, rfl⟩
    · split at h
      · cases h
      · split at h
        · cases h
        · cases h
        · split at h <;> cases h
  · rintro ⟨hminimum, rfl⟩
    rw [readObjective, if_pos hminimum]

/-- **Every way of introducing an objective function leads to the same expression.** An expression
with a variable and without a constant is read as an objective function, whatever header is put in
front of it. A text that mentions a minimisation is refused. -/
theorem every_header_reads_the_same_expression :
    (∀ (header text : String) (e : LinearExpression F),
      LinearExpression.readWithVariable text = .ok e → (e.constant == 0) = true →
      Objective.IsHeader text.toList header.toList →
      LinearExpression.readObjective (header ++ text) = .ok e) ∧
    ∀ text : String, "min".toList <:+: Text.lower text.toList →
      LinearExpression.readObjective (F := F) text =
        .error (.unsupportedDirection (String.ofList (Text.trim text.toList))) := by
  constructor
  · intro header text e he hconstant hheader
    obtain ⟨hread, hne⟩ := LinearExpression.readWithVariable_eq_ok_iff.mp he
    obtain ⟨terms, hterms, heq⟩ := LinearExpression.read_eq_ok_iff.mp hread
    have hplain : ∀ c ∈ text.toList, Objective.IsPlain c := fun c hc =>
      Objective.isPlain_of_isTokenChar (hterms.isTokenChar hc)
    obtain ⟨expression, hexpression, htrim⟩ := hheader.expression?_eq hplain
    have hsame : IsExpression expression terms := by
      rwa [← isExpression_trimStart_iff, htrim, isExpression_trimStart_iff]
    refine LinearExpression.readObjective_eq_ok_iff.mpr
      ⟨?_, expression, terms, ?_, hsame, heq, hne, hconstant⟩
    · rw [String.toList_append]
      exact hheader.mentionsMinimum_eq hplain
    · rwa [String.toList_append]
  · intro text hminimum
    exact LinearExpression.readObjective_eq_unsupportedDirection_iff.mpr
      ⟨Objective.mentionsMinimum_iff.mpr hminimum, rfl⟩

/-- An expression with each sort of header, and a minimisation. -/
theorem every_header_reads_the_same_expression_two_terms :
    LinearExpression.readWithVariable "3x1 + 2x2" = .ok (⟨[3, 2], 0⟩ : LinearExpression ℚ) ∧
    (∀ header ∈ ["", " MAX :", "Zone Z ="], LinearExpression.readObjective (header ++ "3x1 + 2x2") =
      .ok (⟨[3, 2], 0⟩ : LinearExpression ℚ)) ∧
    "min".toList <:+: Text.lower " Minimize Z = x1".toList ∧
    LinearExpression.readObjective (F := ℚ) " Minimize Z = x1" =
      .error (.unsupportedDirection (String.ofList (Text.trim " Minimize Z = x1".toList))) := by
  have hread : LinearExpression.readWithVariable "3x1 + 2x2" =
      .ok (⟨[3, 2], 0⟩ : LinearExpression ℚ) := by decide +kernel
  have hblank : ∀ c ∈ [' '], Text.isBlank c = true := List.forall_mem_singleton.mpr (by decide)
  have hkeyword : Objective.IsHeader "3x1 + 2x2".toList
      ([' '] ++ (['M', 'A', 'X'] ++ ([' '] ++ ':' :: []))) :=
    .keyword hblank (⟨by decide, rfl⟩ : Objective.IsKeyword _ "max")
      (.colon hblank (List.forall_mem_nil _))
  have hname : Objective.IsHeader "3x1 + 2x2".toList ("Zone ".toList ++ 'Z' :: ([' '] ++ ['='])) :=
    .name (Objective.not_hasName (by decide)) (.inr rfl) hblank (by decide +kernel)
  have hminimum : "min".toList <:+: Text.lower " Minimize Z = x1".toList := by decide +kernel
  refine ⟨hread, ?_, hminimum, every_header_reads_the_same_expression.2 _ hminimum⟩
  intro header hheader
  refine every_header_reads_the_same_expression.1 header _ _ hread (by decide +kernel) ?_
  simp only [List.mem_cons, List.not_mem_nil, or_false] at hheader
  rcases hheader with rfl | rfl | rfl
  · exact .bare
  · exact hkeyword
  · exact hname

end Reading

end PrimalSimplex
