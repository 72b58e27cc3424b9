import PrimalSimplex.Proofs.Text
import PrimalSimplex.Text.Alphanumeric

/-!
# Words in any letter case

A word is looked for in the lower case of a text. Lower-casing looks at the neighbours of a capital
sigma, so the lower case of a text is not put together from those of its parts; but a sigma at the
end of a word differs from another only in its form, and a word without a sigma is not found because
of that (`Text.occursIn_lower`). So a word is found in a text whose parts a blank separates if and
only if it is found in one of the parts (`Text.occursIn_lower_append_cons`).

At the front of a text the letters of the Latin alphabet are lower-cased one by one
(`Text.lowerAfter_append`), and white space stays what it is. The other way round, a word of Latin
letters in front of the lower case of a text is spelled by Latin letters in the text itself
(`Text.exists_front_of_prefix`).
-/

namespace PrimalSimplex.Text

/-! ## Occurrences -/

variable {needle cs : List Char} {separator : Char}

theorem occursIn_iff_infix : occursIn needle cs = true ↔ needle <:+: cs := by
  induction cs with
  | nil => rw [occursIn, List.isEmpty_iff, List.infix_nil]
  | cons c cs ih =>
    rw [occursIn, Bool.or_eq_true, List.isPrefixOf_iff_prefix, ih, List.infix_cons_iff]

/-- What follows a separator does not matter to a word in front of it. -/
theorem isPrefixOf_append_cons (h : separator ∉ needle) (cs rest : List Char) :
    needle.isPrefixOf (cs ++ separator :: rest) = needle.isPrefixOf cs := by
  induction needle generalizing cs with
  | nil => simp
  | cons n needle ih =>
    obtain ⟨hn, hneedle⟩ := not_or.mp (mt List.mem_cons.mpr h)
    cases cs with
    | nil =>
      rw [List.nil_append, List.isPrefixOf_cons_cons, beq_eq_false_iff_ne.mpr (Ne.symm hn)]
      rfl
    | cons c cs =>
      rw [List.cons_append, List.isPrefixOf_cons_cons, List.isPrefixOf_cons_cons, ih hneedle]

/-- A word does not go across a separator. -/
theorem occursIn_append_cons (hne : needle ≠ []) (h : separator ∉ needle) (cs rest : List Char) :
    occursIn needle (cs ++ separator :: rest) = (occursIn needle cs || occursIn needle rest) := by
  induction cs with
  | nil =>
    have hstart := isPrefixOf_append_cons h [] rest
    rw [List.nil_append] at hstart ⊢
    rw [occursIn, occursIn, hstart]
    cases needle with
    | nil => exact absurd rfl hne
    | cons n needle => rfl
  | cons c cs ih =>
    have hstart := isPrefixOf_append_cons h (c :: cs) rest
    rw [List.cons_append] at hstart ⊢
    rw [occursIn, occursIn, hstart, ih, Bool.or_assoc]

theorem isPrefixOf_map {f : Char → Char} (h : ∀ n ∈ needle, ∀ c, f c = n ↔ c = n)
    (cs : List Char) : needle.isPrefixOf (cs.map f) = needle.isPrefixOf cs := by
  induction needle generalizing cs with
  | nil => simp
  | cons n needle ih =>
    obtain ⟨hn, hneedle⟩ := List.forall_mem_cons.mp h
    cases cs with
    | nil => rfl
    | cons c cs =>
      have hbeq : (n == f c) = (n == c) := by
        rw [Bool.eq_iff_iff, beq_iff_eq, beq_iff_eq, eq_comm, hn c, eq_comm]
      rw [List.map_cons, List.isPrefixOf_cons_cons, List.isPrefixOf_cons_cons, hbeq, ih hneedle]

/-- A change of letters that a word is made without does not hide the word. -/
theorem occursIn_map {f : Char → Char} (h : ∀ n ∈ needle, ∀ c, f c = n ↔ c = n) (cs : List Char) :
    occursIn needle (cs.map f) = occursIn needle cs := by
  induction cs with
  | nil => rfl
  | cons c cs ih => rw [List.map_cons, occursIn, occursIn, ← List.map_cons, isPrefixOf_map h, ih]

/-! ## Lower case -/

/-- The lower case of a character, whatever its neighbours. -/
def lowerOne (c : Char) : List Char := if c = capitalSigma then ['\u03c3'] else lowerChar c

/-- The ordinary form of a letter. -/
def ordinaryForm (c : Char) : Char := if c = '\u03c2' then '\u03c3' else c

/-- But for the forms of a sigma, characters are lower-cased one by one. -/
theorem map_ordinaryForm_lowerAfter (before cs : List Char) :
    (lowerAfter before cs).map ordinaryForm = (cs.flatMap lowerOne).map ordinaryForm := by
  induction cs generalizing before with
  | nil => rfl
  | cons c cs ih =>
    rw [lowerAfter, List.flatMap_cons, List.map_append, List.map_append, ih]
    congr 1
    unfold lowerOne
    split
    · split <;> rfl
    · rfl

/-- The letters of a word without a sigma have one form. -/
theorem ordinaryForm_eq_iff (h : '\u03c2' ∉ needle ∧ '\u03c3' ∉ needle) :
    ∀ n ∈ needle, ∀ c, ordinaryForm c = n ↔ c = n := by
  intro n hn c
  have hne : n ≠ '\u03c2' ∧ n ≠ '\u03c3' :=
    ⟨ne_of_mem_of_not_mem hn h.1, ne_of_mem_of_not_mem hn h.2⟩
  unfold ordinaryForm
  split
  · rename_i hc
    simp [hc, hne.1.symm, hne.2.symm]
  · rfl

/-- A word without a sigma is looked for in the lower case of single characters. -/
theorem occursIn_lower (h : '\u03c2' ∉ needle ∧ '\u03c3' ∉ needle) (cs : List Char) :
    occursIn needle (lower cs) = occursIn needle (cs.flatMap lowerOne) := by
  have hform := ordinaryForm_eq_iff h
  rw [lower, ← occursIn_map hform, map_ordinaryForm_lowerAfter, occursIn_map hform]

/-- The same holds of a word at the front of a text. -/
theorem isPrefixOf_lower (h : '\u03c2' ∉ needle ∧ '\u03c3' ∉ needle) (cs : List Char) :
    needle.isPrefixOf (lower cs) = needle.isPrefixOf (cs.flatMap lowerOne) := by
  have hform := ordinaryForm_eq_iff h
  rw [lower, ← isPrefixOf_map hform, map_ordinaryForm_lowerAfter, isPrefixOf_map hform]

/-- **A word is found on either side of a separator** that has no lower case and is not in it. -/
theorem occursIn_lower_append_cons (hne : needle ≠ [])
    (hsigma : '\u03c2' ∉ needle ∧ '\u03c3' ∉ needle) (hseparator : separator ∉ needle)
    (hlower : lowerOne separator = [separator]) (cs rest : List Char) :
    occursIn needle (lower (cs ++ separator :: rest)) =
      (occursIn needle (lower cs) || occursIn needle (lower rest)) := by
  rw [occursIn_lower hsigma, occursIn_lower hsigma, occursIn_lower hsigma, List.flatMap_append,
    List.flatMap_cons, hlower, List.singleton_append, occursIn_append_cons hne hseparator]

/-! ## Latin letters and white space -/

theorem LowerRun.covers_eq_false {run : LowerRun} {code : Nat}
    (h : code < run.first ∨ run.last < code) : run.covers code = false := by
  rcases h with h | h <;> simp [covers, Nat.not_le.mpr h]

/-- A character outside the capitals is its own lower case. -/
theorem lowerOne_of_not_covers {c : Char} (hsigma : c ≠ capitalSigma) (hdotted : c ≠ dottedCapitalI)
    (h : ∀ run ∈ lowerRuns, c.toNat < run.first ∨ run.last < c.toNat) : lowerOne c = [c] := by
  have hnone : (lowerRuns.find? fun run => run.covers c.toNat) = none :=
    List.find?_eq_none.mpr fun run hrun => by simp [LowerRun.covers_eq_false (h run hrun)]
  rw [lowerOne, if_neg hsigma, lowerChar, if_neg hdotted, hnone]

/-- White space has no lower case and is neither a letter nor a digit. -/
theorem classes_of_isBlank {c : Char} (h : isBlank c = true) :
    lowerOne c = [c] ∧ isAlphanumeric c = false := by
  have hsigma : c ≠ capitalSigma := by
    rintro rfl
    exact absurd h (by decide)
  have hdotted : c ≠ dottedCapitalI := by
    rintro rfl
    exact absurd h (by decide)
  have houtside : ∀ range ∈ blankRanges,
      (∀ run ∈ lowerRuns, range.2 < run.first ∨ run.last < range.1) ∧
        ∀ other ∈ alphanumericRanges, range.2 < other.1 ∨ other.2 < range.1 := by
    decide +kernel
  obtain ⟨range, hrange, hmem⟩ := List.any_eq_true.mp h
  simp only [Bool.and_eq_true, decide_eq_true_eq] at hmem
  obtain ⟨hruns, halphanumeric⟩ := houtside range hrange
  constructor
  · refine lowerOne_of_not_covers hsigma hdotted fun run hrun => ?_
    exact (hruns run hrun).imp hmem.2.trans_lt fun hlast => hlast.trans_le hmem.1
  · refine List.any_eq_false.mpr fun other hother => ?_
    have hother' := halphanumeric other hother
    simp only [Bool.and_eq_true, decide_eq_true_eq]
    omega

/-- A character other than the Latin capitals is not changed. -/
theorem toLower_eq_self {c : Char} (h : ¬(65 ≤ c.toNat ∧ c.toNat ≤ 90)) : c.toLower = c :=
  dif_neg h

theorem lt_of_toLower_lt {c : Char} (h : c.toLower.toNat < 128) : c.toNat < 128 := by
  by_contra hge
  rw [toLower_eq_self (by omega)] at h
  exact hge h

/-- Among the first characters only the Latin capitals have a lower case. -/
theorem lowerOne_of_lt {c : Char} (h : c.toNat < 128) : lowerOne c = [c.toLower] := by
  by_cases hcapital : c.toNat ∈ List.range' 65 26
  · have hall : ∀ code ∈ List.range' 65 26,
        lowerOne (Char.ofNat code) = [(Char.ofNat code).toLower] := by decide
    have hc := hall c.toNat hcapital
    rwa [Char.ofNat_toNat] at hc
  · have houtside : ¬(65 ≤ c.toNat ∧ c.toNat ≤ 90) := by
      rw [List.mem_range'_1] at hcapital
      omega
    have hruns : ∀ run ∈ lowerRuns, run.first = 65 ∧ run.last = 90 ∨ 128 ≤ run.first := by
      decide +kernel
    rw [toLower_eq_self houtside]
    refine lowerOne_of_not_covers ?_ ?_ fun run hrun => ?_
    · rintro rfl
      exact absurd h (by decide)
    · rintro rfl
      exact absurd h (by decide)
    · have hrun' := hruns run hrun
      omega

/-- The small letter of a capital outside the first characters is outside as well, unless it is the
`k` of the Kelvin sign. -/
theorem toNat_lowered {run : LowerRun} (hrun : run ∈ lowerRuns) {code : Nat}
    (hcovers : run.covers code = true) (hcode : 128 ≤ code) :
    128 ≤ (Char.ofNat ((code : Int) + run.offset).toNat).toNat ∨
      Char.ofNat ((code : Int) + run.offset).toNat = 'k' := by
  have hruns : ∀ run ∈ lowerRuns, run.last < 128 ∨
      (128 ≤ (run.first : Int) + run.offset ∧ (run.last : Int) + run.offset < 0xd800) ∨
      (0xdfff < (run.first : Int) + run.offset ∧ (run.last : Int) + run.offset < 0x110000) ∨
      run.first = 0x212a ∧ run.last = 0x212a ∧ run.offset = -8383 := by
    decide +kernel
  have hvalid : ∀ n : Nat, 128 ≤ n → n.isValidChar → 128 ≤ (Char.ofNat n).toNat := by
    intro n hn hvalid
    rw [Char.ofNat, dif_pos hvalid]
    exact hn
  simp only [LowerRun.covers, Bool.and_eq_true, decide_eq_true_eq] at hcovers
  obtain ⟨⟨hfirst, hlast⟩, -⟩ := hcovers
  rcases hruns run hrun with hsmall | hlow | hhigh | ⟨hkelvin, hkelvin', hoffset⟩
  · omega
  · refine .inl (hvalid _ ?_ (.inl ?_)) <;> omega
  · refine .inl (hvalid _ ?_ (.inr ⟨?_, ?_⟩)) <;> omega
  · obtain rfl : code = 0x212a := by omega
    rw [hoffset]
    exact .inr rfl

/-- Outside the first characters only the Kelvin sign and the dotted capital I have letters among
the first characters in their lower case. -/
theorem lowerOne_of_le {c : Char} (h : 128 ≤ c.toNat) (hdotted : c ≠ dottedCapitalI) :
    ∃ d, lowerOne c = [d] ∧ (128 ≤ d.toNat ∨ d = 'k') := by
  unfold lowerOne lowerChar
  split_ifs with hsigma
  · exact ⟨_, rfl, .inl (by decide)⟩
  · split
    · rename_i run hfind
      obtain ⟨hcovers, -⟩ := List.find?_eq_some_iff_append.mp hfind
      exact ⟨_, rfl, toNat_lowered (List.mem_of_find?_eq_some hfind) hcovers h⟩
    · exact ⟨c, rfl, .inl h⟩

/-- A character is lower-cased on its own, unless it is a capital sigma. -/
theorem lowerAfter_cons {c : Char} (h : c ≠ capitalSigma) (before rest : List Char) :
    lowerAfter before (c :: rest) = lowerOne c ++ lowerAfter (c :: before) rest := by
  rw [lowerAfter, lowerOne, if_neg h, if_neg h]

/-- The letters at the front of a text are lower-cased one by one. -/
theorem lowerAfter_append {front : List Char} (h : ∀ c ∈ front, c.toNat < 128)
    (before rest : List Char) :
    lowerAfter before (front ++ rest) =
      front.map Char.toLower ++ lowerAfter (front.reverse ++ before) rest := by
  induction front generalizing before with
  | nil => rfl
  | cons c front ih =>
    obtain ⟨hc, hfront⟩ := List.forall_mem_cons.mp h
    have hsigma : c ≠ capitalSigma := by
      rintro rfl
      exact absurd hc (by decide)
    rw [List.cons_append, lowerAfter_cons hsigma, lowerOne_of_lt hc, ih hfront, List.map_cons,
      List.reverse_cons, List.append_assoc, List.singleton_append, List.singleton_append,
      List.cons_append]

/-- **A word of Latin letters is spelled by Latin letters.** The Kelvin sign would do for a `k`, and
the dotted capital I for an `i` at the end of the word. -/
theorem exists_front_of_prefix {word : List Char} (hword : ∀ c ∈ word, c.toNat < 128 ∧ c ≠ 'k')
    (hlast : word.getLast? ≠ some 'i') (h : word <+: cs.flatMap lowerOne) :
    ∃ front rest, cs = front ++ rest ∧ front.map Char.toLower = word := by
  induction word generalizing cs with
  | nil => exact ⟨[], cs, rfl, rfl⟩
  | cons d word ih =>
    obtain ⟨⟨hd, hk⟩, hletters⟩ := List.forall_mem_cons.mp hword
    have hlast' : word.getLast? ≠ some 'i' := by
      intro hi
      rw [List.getLast?_cons, hi] at hlast
      exact hlast rfl
    cases cs with
    | nil => exact absurd (List.prefix_nil.mp h) (List.cons_ne_nil d word)
    | cons c cs =>
      rw [List.flatMap_cons] at h
      rcases Nat.lt_or_ge c.toNat 128 with hlt | hge
      · rw [lowerOne_of_lt hlt, List.singleton_append, List.cons_prefix_cons] at h
        obtain ⟨rfl, hrest⟩ := h
        obtain ⟨front, rest, rfl, rfl⟩ := ih hletters hlast' hrest
        exact ⟨c :: front, rest, rfl, rfl⟩
      · by_cases hdotted : c = dottedCapitalI
        · -- the mark above the letter is no letter of the word
          subst hdotted
          obtain ⟨rfl, hrest⟩ := List.cons_prefix_cons.mp h
          cases word with
          | nil => exact absurd rfl hlast
          | cons e word =>
            obtain ⟨rfl, -⟩ := List.cons_prefix_cons.mp hrest
            exact absurd (hletters _ List.mem_cons_self).1 (by decide)
        · obtain ⟨d', hlower, houtside⟩ := lowerOne_of_le hge hdotted
          rw [hlower, List.singleton_append, List.cons_prefix_cons] at h
          obtain ⟨rfl, -⟩ := h
          exact absurd houtside (not_or.mpr ⟨Nat.not_le.mpr hd, hk⟩)

end PrimalSimplex.Text
