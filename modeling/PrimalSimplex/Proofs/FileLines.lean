import Mathlib.Data.List.Forall2
import PrimalSimplex.Proofs.Text

/-!
# The lines of a problem file

A file is a list of lines with a line feed between any two of them (`ProblemText.file`), and every
text is one. What is read from a file depends on little of it: on the digits of its lines, on what
remains of them when they are trimmed, and on the last direction before the objective line
(`ProblemText.ofContents?_eq_some_iff`).

So there is noise that may be put in or taken out without a difference (`ProblemText.IsNoise`):
blank lines, comments, and lines without a digit, unless they give a direction to the objective
line after them. Blanks around a line do not matter either, and a carriage return at the end of
a line is one.
-/

namespace PrimalSimplex

namespace Text

/-! ## Splitting and trimming -/

theorem splitAll_eq_splitOn (separator : Char) (cs : List Char) :
    splitAll separator cs = cs.splitOn separator := by
  induction cs with
  | nil => rfl
  | cons c cs ih =>
    rw [splitAll, List.splitOn_cons_eq_if_modifyHead, ← ih]
    by_cases hc : c = separator
    · simp [hc]
    · obtain ⟨part, parts, hparts⟩ := List.exists_cons_of_ne_nil (splitAll_ne_nil separator cs)
      simp [hc, hparts]

/-- The separator is in none of the parts. -/
theorem not_mem_of_mem_splitAll {separator : Char} {cs part : List Char}
    (h : part ∈ splitAll separator cs) : separator ∉ part := by
  induction cs generalizing part with
  | nil => simp_all [splitAll]
  | cons c cs ih =>
    obtain ⟨first, parts, hparts⟩ := List.exists_cons_of_ne_nil (splitAll_ne_nil separator cs)
    rw [splitAll, hparts] at h
    rw [hparts] at ih
    split at h
    · rcases List.mem_cons.mp h with rfl | hmem
      · exact List.not_mem_nil
      · exact ih hmem
    · rename_i hc
      rcases List.mem_cons.mp h with rfl | hmem
      · exact List.not_mem_cons_of_ne_of_not_mem (Ne.symm hc) (ih List.mem_cons_self)
      · exact ih (List.mem_cons_of_mem first hmem)

/-- Trimming takes blanks off both ends of a text. -/
theorem exists_trim (cs : List Char) :
    ∃ lead trail, cs = lead ++ (trim cs ++ trail) ∧ (∀ c ∈ lead, isBlank c = true) ∧
      ∀ c ∈ trail, isBlank c = true := by
  obtain ⟨lead, hlead, hstart⟩ := exists_trimStart cs
  obtain ⟨trail, htrail, hend⟩ := exists_trimStart (trimStart cs).reverse
  refine ⟨lead, trail.reverse, ?_, hlead, fun c hc => htrail c (List.mem_reverse.mp hc)⟩
  rw [trim, trimEnd, ← trimStart, ← List.reverse_append, ← hend, List.reverse_reverse]
  exact hstart

theorem trimEnd_append {cs trail : List Char} (htrail : ∀ c ∈ trail, isBlank c = true) :
    trimEnd (cs ++ trail) = trimEnd cs := by
  rw [trimEnd, List.reverse_append,
    List.dropWhile_append_of_pos fun c hc => htrail c (List.mem_reverse.mp hc), trimEnd]

/-- **Blanks around a text are trimmed off.** -/
theorem trim_padded {lead trail : List Char} (cs : List Char)
    (hlead : ∀ c ∈ lead, isBlank c = true) (htrail : ∀ c ∈ trail, isBlank c = true) :
    trim (lead ++ (cs ++ trail)) = trim cs := by
  have hnil : trail.dropWhile isBlank = [] := List.dropWhile_eq_nil_iff.mpr htrail
  rw [trim, trimStart, List.dropWhile_append_of_pos hlead, List.dropWhile_append, trim, trimStart]
  split
  · rename_i hempty
    rw [hnil, List.isEmpty_iff.mp hempty]
  · exact trimEnd_append htrail

/-- A text with blanks put around it. -/
def IsPadded (cs padded : List Char) : Prop :=
  ∃ lead trail, padded = lead ++ (cs ++ trail) ∧ (∀ c ∈ lead, isBlank c = true) ∧
    ∀ c ∈ trail, isBlank c = true

theorem map_trim_padded {parts padded : List (List Char)} (h : List.Forall₂ IsPadded parts padded) :
    padded.map trim = parts.map trim := by
  induction h with
  | nil => rfl
  | cons hpart _ ih =>
    obtain ⟨lead, trail, rfl, hlead, htrail⟩ := hpart
    rw [List.map_cons, List.map_cons, ih, trim_padded _ hlead htrail]

theorem trim_eq_nil_iff {cs : List Char} : trim cs = [] ↔ ∀ c ∈ cs, isBlank c = true := by
  constructor
  · intro h
    obtain ⟨lead, trail, hcs, hlead, htrail⟩ := exists_trim cs
    rw [h, List.nil_append] at hcs
    rw [hcs]
    exact List.forall_mem_append.mpr ⟨hlead, htrail⟩
  · intro h
    have htrim := trim_padded [] h (List.forall_mem_nil _)
    rw [List.append_nil, List.append_nil] at htrim
    exact htrim

theorem trim_dropReturn (line : List Char) : trim (dropReturn line) = trim line := by
  unfold dropReturn
  split
  · rename_i hlast
    obtain ⟨front, rfl⟩ := List.getLast?_eq_some_iff.mp hlast
    rw [List.dropLast_concat]
    exact (trim_padded front (List.forall_mem_nil _)
      (List.forall_mem_singleton.mpr (by decide))).symm
  · rfl

end Text

namespace ProblemText

/-! ## Lines and files -/

/-- A line of a file, without the line feed that ends it. -/
structure FileLine where
  /-- the characters of the line -/
  chars : List Char
  /-- there is no line feed among them -/
  newline_not_mem : '\n' ∉ chars

/-- The file with the given lines. -/
def file (lines : List FileLine) : String :=
  String.ofList (['\n'].intercalate (lines.map FileLine.chars))

theorem exists_map_chars {parts : List (List Char)} (h : ∀ part ∈ parts, '\n' ∉ part) :
    ∃ lines : List FileLine, lines.map FileLine.chars = parts := by
  induction parts with
  | nil => exact ⟨[], rfl⟩
  | cons part parts ih =>
    obtain ⟨hpart, hparts⟩ := List.forall_mem_cons.mp h
    obtain ⟨lines, rfl⟩ := ih hparts
    exact ⟨⟨part, hpart⟩ :: lines, rfl⟩

/-- Every text is a file with some lines. -/
theorem exists_eq_file (contents : String) : ∃ lines, contents = file lines := by
  obtain ⟨lines, hlines⟩ := exists_map_chars
    fun part (hpart : part ∈ Text.splitAll '\n' contents.toList) =>
      Text.not_mem_of_mem_splitAll hpart
  refine ⟨lines, ?_⟩
  rw [file, hlines, Text.splitAll_eq_splitOn, List.intercalate_splitOn, String.ofList_toList]

/-- The lines of a file are found again, if there are any. -/
theorem splitAll_file {lines : List FileLine} (hne : lines ≠ []) :
    Text.splitAll '\n' (file lines).toList = lines.map FileLine.chars := by
  rw [file, String.toList_ofList, Text.splitAll_eq_splitOn, List.splitOn_intercalate]
  · exact List.forall_mem_map.mpr fun line _ => line.newline_not_mem
  · simpa using hne

/-- What remains of a line when it is trimmed. -/
def FileLine.text (line : FileLine) : List Char := Text.trim line.chars

/-- Whether a line matters: it has a digit and is no comment. -/
def FileLine.isMeaningful (line : FileLine) : Bool :=
  hasDigit line.chars && !isComment line.text

/-- Whether a trimmed line is neither blank nor a comment. -/
def isContent (line : List Char) : Bool := !line.isEmpty && !isComment line

/-- The lines of a file that are neither blank nor comments, trimmed. -/
def contentOf (lines : List FileLine) : List (List Char) :=
  (lines.map FileLine.text).filter isContent

/-- The carriage return that may end a line goes with the blanks, and so does an empty last line. -/
theorem contentLines_eq (cs : List Char) :
    contentLines cs = ((Text.splitAll '\n' cs).map Text.trim).filter isContent := by
  obtain ⟨front, last, hparts⟩ :=
    (List.eq_nil_or_concat (Text.splitAll '\n' cs)).resolve_left (Text.splitAll_ne_nil _ _)
  have htrim : Text.trim ∘ Text.dropReturn = Text.trim := funext Text.trim_dropReturn
  have hlast : ((if last.isEmpty then [] else [last]).map Text.trim).filter isContent =
      [Text.trim last].filter isContent := by
    split
    · rename_i hempty
      rw [List.isEmpty_iff.mp hempty]
      rfl
    · rfl
  rw [List.concat_eq_append] at hparts
  rw [contentLines, Text.lines, hparts, List.dropLast_concat, List.getLastD_concat]
  simp only [List.map_append, List.map_map, List.filter_append, htrim]
  exact congrArg _ hlast

/-- **What is read of the lines of a file.** -/
theorem contentLines_file (lines : List FileLine) :
    contentLines (file lines).toList = contentOf lines := by
  cases lines with
  | nil => rfl
  | cons line lines =>
    rw [contentLines_eq, splitAll_file (List.cons_ne_nil _ _), List.map_map]
    rfl

/-! ## Which lines matter -/

theorem hasDigit_append (front back : List Char) :
    hasDigit (front ++ back) = (hasDigit front || hasDigit back) :=
  List.any_append

theorem hasDigit_of_isBlank {cs : List Char} (h : ∀ c ∈ cs, Text.isBlank c = true) :
    hasDigit cs = false :=
  List.any_eq_false.mpr fun c hc => by simp [Token.isDigit_of_isBlank (h c hc)]

theorem hasDigit_trim (cs : List Char) : hasDigit (Text.trim cs) = hasDigit cs := by
  obtain ⟨lead, trail, hcs, hlead, htrail⟩ := Text.exists_trim cs
  conv_rhs => rw [hcs]
  simp [hasDigit_append, hasDigit_of_isBlank hlead, hasDigit_of_isBlank htrail]

theorem isMeaningful_eq (line : FileLine) :
    line.isMeaningful = (hasDigit line.text && isContent line.text) := by
  rw [FileLine.isMeaningful, isContent, ← hasDigit_trim, ← FileLine.text]
  cases hempty : line.text.isEmpty with
  | true =>
    rw [List.isEmpty_iff.mp hempty]
    rfl
  | false => rfl

theorem contentOf_append (before after : List FileLine) :
    contentOf (before ++ after) = contentOf before ++ contentOf after := by
  simp [contentOf]

theorem filter_hasDigit_contentOf (lines : List FileLine) :
    (contentOf lines).filter hasDigit = (lines.filter FileLine.isMeaningful).map FileLine.text := by
  rw [contentOf, List.filter_filter, List.filter_map]
  congr 1
  exact List.filter_congr fun line _ => (isMeaningful_eq line).symm

theorem forall_hasDigit_contentOf_iff {lines : List FileLine} :
    (∀ line ∈ contentOf lines, hasDigit line = false) ↔
      ∀ line ∈ lines, line.isMeaningful = false := by
  have hnil := congrArg (· = []) (filter_hasDigit_contentOf lines)
  simpa [List.filter_eq_nil_iff] using hnil

/-! ## The objective line -/

/-- The last direction among some lines. -/
def lastDirection? (lines : List (List Char)) : Option (List Char) :=
  (lines.filter isDirection).getLast?

variable {direction : Option (List Char)}

theorem lastDirection?_cons_or (line : List Char) (lines : List (List Char)) :
    (lastDirection? (line :: lines)).or direction =
      (lastDirection? lines).or (if isDirection line then some line else direction) := by
  by_cases hline : isDirection line
  · rw [lastDirection?, List.filter_cons_of_pos hline, List.getLast?_cons, if_pos hline,
      ← lastDirection?]
    cases lastDirection? lines <;> rfl
  · rw [lastDirection?, List.filter_cons_of_neg hline, if_neg hline, ← lastDirection?]

/-- Of the lines before the objective line only the last direction is kept. -/
theorem split?_append {before : List (List Char)} (h : ∀ line ∈ before, hasDigit line = false)
    (after : List (List Char)) :
    split? direction (before ++ after) =
      split? ((lastDirection? before).or direction) after := by
  induction before generalizing direction with
  | nil => rfl
  | cons line before ih =>
    obtain ⟨hline, hbefore⟩ := List.forall_mem_cons.mp h
    rw [List.cons_append, split?, if_neg (by simp [hline]), ih hbefore, lastDirection?_cons_or]

theorem split?_eq_none_iff {lines : List (List Char)} :
    split? direction lines = none ↔ ∀ line ∈ lines, hasDigit line = false := by
  induction lines generalizing direction with
  | nil => simp [split?]
  | cons line lines ih =>
    rw [split?, List.forall_mem_cons]
    cases hline : hasDigit line <;> simp [ih]

/-- A line without a digit makes no difference if it gives no direction to the objective line. -/
theorem map_split?_insert {before after : List (List Char)} {line : List Char}
    (hdigit : hasDigit line = false)
    (hdirection : (∀ l ∈ before, hasDigit l = false) → (∃ l ∈ after, hasDigit l = true) →
      isDirection line = false) :
    (split? direction (before ++ line :: after)).map (Prod.map id (List.filter hasDigit)) =
      (split? direction (before ++ after)).map (Prod.map id (List.filter hasDigit)) := by
  induction before generalizing direction with
  | nil =>
    rw [List.nil_append, List.nil_append, split?, if_neg (by simp [hdigit])]
    by_cases hafter : ∃ l ∈ after, hasDigit l = true
    · simp [hdirection (List.forall_mem_nil _) hafter]
    · -- there is no objective line, so the direction does not matter
      have hnone : ∀ {direction}, split? direction after = none :=
        split?_eq_none_iff.mpr fun l hl => Bool.eq_false_iff.mpr fun h => hafter ⟨l, hl, h⟩
      rw [hnone, hnone]
  | cons first before ih =>
    rw [List.cons_append, List.cons_append, split?, split?]
    cases hfirst : hasDigit first with
    | true => simp [hdigit]
    | false =>
      simp only [Bool.false_eq_true, if_false]
      exact ih fun hbefore => hdirection (List.forall_mem_cons.mpr ⟨hfirst, hbefore⟩)

/-! ## What is read of a file -/

/-- A problem from its objective line and the lines after it. -/
theorem ofContents?_file (lines : List FileLine) :
    ofContents? (file lines) =
      ((split? none (contentOf lines)).map (Prod.map id (List.filter hasDigit))).map
        fun (objective, rest) => ⟨String.ofList objective, rest.map String.ofList⟩ := by
  rw [ofContents?, contentLines_file, Option.map_map]
  rfl

theorem ofContents?_eq_none_iff {lines : List FileLine} :
    ofContents? (file lines) = none ↔ ∀ line ∈ lines, line.isMeaningful = false := by
  rw [ofContents?_file, Option.map_eq_none_iff, Option.map_eq_none_iff, split?_eq_none_iff,
    forall_hasDigit_contentOf_iff]

/-- The objective line of a file is the first line that matters. -/
structure IsObjectiveLine (contents : String) (before : List FileLine) (first : FileLine)
    (after : List FileLine) : Prop where
  /-- the line stands between others -/
  eq_file : contents = file (before ++ first :: after)
  /-- none of those before it matters -/
  before_eq_false : ∀ line ∈ before, line.isMeaningful = false
  /-- it matters itself -/
  first_eq_true : first.isMeaningful = true

/-- What is read of a file with an objective line: the objective line with the last direction
before it, and the lines after it that matter. -/
def textAt (before : List FileLine) (first : FileLine) (after : List FileLine) : ProblemText :=
  ⟨String.ofList (withDirection (lastDirection? (contentOf before)) first.text),
    (after.filter FileLine.isMeaningful).map fun line => String.ofList line.text⟩

variable {contents : String} {before after : List FileLine} {first : FileLine}

theorem IsObjectiveLine.ofContents?_eq (h : IsObjectiveLine contents before first after) :
    ofContents? contents = some (textAt before first after) := by
  obtain ⟨rfl, hbefore, hfirst⟩ := h
  obtain ⟨hdigit, hcontent⟩ := Bool.and_eq_true_iff.mp (isMeaningful_eq first ▸ hfirst)
  have hcons : contentOf (first :: after) = first.text :: contentOf after := by
    simp [contentOf, hcontent]
  rw [ofContents?_file, contentOf_append, split?_append (forall_hasDigit_contentOf_iff.mpr hbefore),
    hcons, split?, if_pos hdigit, Option.or_none]
  simp [textAt, filter_hasDigit_contentOf]

/-- A file of which something is read has an objective line. -/
theorem exists_isObjectiveLine {text : ProblemText} (h : ofContents? contents = some text) :
    ∃ before first after, IsObjectiveLine contents before first after := by
  obtain ⟨lines, rfl⟩ := exists_eq_file contents
  cases hfound : lines.find? FileLine.isMeaningful with
  | none =>
    have hnone : ofContents? (file lines) = none :=
      ofContents?_eq_none_iff.mpr fun line hline => by
        simpa using List.find?_eq_none.mp hfound line hline
    rw [hnone] at h
    cases h
  | some first =>
    obtain ⟨hfirst, before, after, rfl, hbefore⟩ := List.find?_eq_some_iff_append.mp hfound
    exact ⟨before, first, after, rfl, by simpa using hbefore, hfirst⟩

/-- **What is read of a file.** -/
theorem ofContents?_eq_some_iff {text : ProblemText} :
    ofContents? contents = some text ↔
      ∃ before first after, IsObjectiveLine contents before first after ∧
        text = textAt before first after := by
  constructor
  · intro h
    obtain ⟨before, first, after, hline⟩ := exists_isObjectiveLine h
    refine ⟨before, first, after, hline, ?_⟩
    rw [hline.ofContents?_eq] at h
    exact (Option.some.inj h).symm
  · rintro ⟨before, first, after, hline, rfl⟩
    exact hline.ofContents?_eq

/-! ## Noise -/

/-- A line that makes no difference between other lines. -/
inductive IsNoise (before : List FileLine) (line : FileLine) (after : List FileLine) : Prop where
  /-- it is blank -/
  | blank : (∀ c ∈ line.chars, Text.isBlank c = true) → IsNoise before line after
  /-- it is a comment -/
  | comment : isComment line.text = true → IsNoise before line after
  /-- it has no digit, and it does not start with a direction if the first line that matters comes
  after it -/
  | header : hasDigit line.chars = false →
      ((∀ l ∈ before, l.isMeaningful = false) → (∃ l ∈ after, l.isMeaningful = true) →
        isDirection line.text = false) → IsNoise before line after

/-- Noise is not read at all, or it has no digit and gives no direction to the objective line. -/
theorem IsNoise.isContent_or {line : FileLine} (h : IsNoise before line after) :
    isContent line.text = false ∨ hasDigit line.text = false ∧
      ((∀ l ∈ contentOf before, hasDigit l = false) →
        (∃ l ∈ contentOf after, hasDigit l = true) → isDirection line.text = false) := by
  cases h with
  | blank hblank =>
    rw [FileLine.text, Text.trim_eq_nil_iff.mpr hblank]
    exact .inl rfl
  | comment hcomment =>
    rw [isContent, hcomment]
    exact .inl (Bool.and_false _)
  | header hdigit hdirection =>
    refine .inr ⟨(hasDigit_trim _).trans hdigit, fun hbefore hafter => ?_⟩
    refine hdirection (forall_hasDigit_contentOf_iff.mp hbefore) ?_
    by_contra! hnone
    obtain ⟨l, hl, hl'⟩ := hafter
    have hnone' : ∀ l ∈ after, l.isMeaningful = false := by simpa using hnone
    rw [forall_hasDigit_contentOf_iff.mpr hnone' l hl] at hl'
    cases hl'

/-- **Noise may be put in and taken out.** -/
theorem IsNoise.ofContents?_eq {line : FileLine} (h : IsNoise before line after) :
    ofContents? (file (before ++ line :: after)) = ofContents? (file (before ++ after)) := by
  rw [ofContents?_file, ofContents?_file, contentOf_append, contentOf_append]
  cases hcontent : isContent line.text with
  | false =>
    have hcons : contentOf (line :: after) = contentOf after := by simp [contentOf, hcontent]
    rw [hcons]
  | true =>
    have hcons : contentOf (line :: after) = line.text :: contentOf after := by
      simp [contentOf, hcontent]
    obtain ⟨hdigit, hdirection⟩ := h.isContent_or.resolve_left (by simp [hcontent])
    rw [hcons, map_split?_insert hdigit hdirection]

/-- Blanks around the lines of a file make no difference. -/
theorem ofContents?_padded {lines padded : List FileLine}
    (h : List.Forall₂ Text.IsPadded (lines.map FileLine.chars) (padded.map FileLine.chars)) :
    ofContents? (file padded) = ofContents? (file lines) := by
  have htext : padded.map FileLine.text = lines.map FileLine.text := by
    have htrim := Text.map_trim_padded h
    rwa [List.map_map, List.map_map] at htrim
  rw [ofContents?_file, ofContents?_file, contentOf, contentOf, htext]

/-- A text with a carriage return in front of every line feed. -/
def withReturns (contents : String) : String :=
  String.ofList (contents.toList.flatMap fun c => if c = '\n' then ['\r', '\n'] else [c])

/-- The carriage returns come to stand at the ends of lines. -/
theorem forall₂_splitAll_withReturns (cs : List Char) :
    List.Forall₂ (fun part returned => returned = part ∨ returned = part ++ ['\r'])
      (Text.splitAll '\n' cs)
      (Text.splitAll '\n' (cs.flatMap fun c => if c = '\n' then ['\r', '\n'] else [c])) := by
  induction cs with
  | nil => exact .cons (.inl rfl) .nil
  | cons c cs ih =>
    by_cases hc : c = '\n'
    · subst hc
      exact .cons (.inr rfl) ih
    · obtain ⟨part, parts, hparts⟩ := List.exists_cons_of_ne_nil (Text.splitAll_ne_nil '\n' cs)
      rw [hparts] at ih
      obtain ⟨returned, rest, hpart, hrest, hreturned⟩ := List.forall₂_cons_left_iff.mp ih
      simp only [List.flatMap_cons, if_neg hc, List.singleton_append, Text.splitAll, hparts,
        hreturned]
      refine .cons ?_ hrest
      rcases hpart with rfl | rfl
      · exact .inl rfl
      · exact .inr rfl

/-- It does not matter how lines are ended. -/
theorem ofContents?_withReturns (contents : String) :
    ofContents? (withReturns contents) = ofContents? contents := by
  have hpadded : ∀ part returned : List Char, returned = part ∨ returned = part ++ ['\r'] →
      Text.IsPadded part returned := by
    rintro part returned (rfl | rfl)
    · exact ⟨[], [], by simp⟩
    · exact ⟨[], ['\r'], by simp, by simp, List.forall_mem_singleton.mpr (by decide)⟩
  rw [ofContents?, ofContents?, contentLines_eq, contentLines_eq, withReturns,
    String.toList_ofList,
    Text.map_trim_padded ((forall₂_splitAll_withReturns contents.toList).imp hpadded)]

/-- **Noise does not change what is read of a file.** Any text is a file with some lines. Noise
between them may be put in and taken out, blanks may be put around them, and they may be ended by
carriage returns as well. Nothing is read if and only if no line matters. Otherwise the constraints
are the lines that matter after the first of them, trimmed and in order. -/
theorem noise_does_not_change_what_is_read :
    (∀ contents : String, ∃ lines, contents = file lines) ∧
    (∀ before line after, IsNoise before line after →
      ofContents? (file (before ++ line :: after)) = ofContents? (file (before ++ after))) ∧
    (∀ lines padded : List FileLine,
      List.Forall₂ Text.IsPadded (lines.map FileLine.chars) (padded.map FileLine.chars) →
      ofContents? (file padded) = ofContents? (file lines)) ∧
    (∀ contents, ofContents? (withReturns contents) = ofContents? contents) ∧
    (∀ lines, ofContents? (file lines) = none ↔ ∀ line ∈ lines, line.isMeaningful = false) ∧
    ∀ contents text, ofContents? contents = some text ↔
      ∃ before first after, IsObjectiveLine contents before first after ∧
        text = textAt before first after :=
  ⟨exists_eq_file, fun _ _ _ => IsNoise.ofContents?_eq, fun _ _ => ofContents?_padded,
    ofContents?_withReturns, fun _ => ofContents?_eq_none_iff, fun _ _ => ofContents?_eq_some_iff⟩

/-- A direction and an objective line. -/
def directed : List FileLine :=
  [⟨"max:".toList, by decide⟩, ⟨"3x1 + 2x2".toList, by decide⟩]

/-- A heading that starts like a direction. -/
def heading : FileLine := ⟨"minimal stock".toList, by decide⟩

/-- After the objective line a heading makes no difference, even if it starts like a direction. -/
theorem noise_does_not_change_what_is_read_heading :
    IsNoise directed heading [⟨"x1 <= 4".toList, by decide⟩] ∧
      ofContents? "max:\n3x1 + 2x2\nminimal stock\nx1 <= 4" =
        ofContents? "max:\n3x1 + 2x2\nx1 <= 4" ∧
      ofContents? "max:\n3x1 + 2x2\nx1 <= 4" = some ⟨"max: 3x1 + 2x2", ["x1 <= 4"]⟩ := by
  have hnoise : IsNoise directed heading [⟨"x1 <= 4".toList, by decide⟩] :=
    .header (by decide) fun hbefore => absurd
      (hbefore ⟨"3x1 + 2x2".toList, by decide⟩ (by simp [directed])) (by decide)
  have hwith : file (directed ++ heading :: [⟨"x1 <= 4".toList, by decide⟩]) =
      "max:\n3x1 + 2x2\nminimal stock\nx1 <= 4" := by decide
  have hwithout : file (directed ++ [⟨"x1 <= 4".toList, by decide⟩]) =
      "max:\n3x1 + 2x2\nx1 <= 4" := by decide
  have heq := noise_does_not_change_what_is_read.2.1 _ _ _ hnoise
  rw [hwith, hwithout] at heq
  refine ⟨hnoise, heq, ?_⟩
  decide +kernel

end ProblemText

end PrimalSimplex
