import PrimalSimplex.Proofs.Token
import PrimalSimplex.ProblemText
import PrimalSimplex.Text.Search

/-!
# Lines and trimming

What undoes the layout of a text. Splitting at a separator undoes joining pieces that do not contain
it (`Text.splitAll_flatMap`), so the lines of a text are those that it was put together from
(`Text.lines_flatMap`). Trimming removes the blanks that were put in front of a line when the line
itself neither starts nor ends with one (`Text.trim_append`).

The last part is about looking for a text in a lower-cased one. What is found has its characters
from there (`Text.mem_of_occursIn`), and these come from the lower case of single characters
(`Text.mem_lowerAfter`), so a text in which no character has an `n` in its lower case contains no
word with an `n`.
-/

namespace PrimalSimplex.Text

/-! ## Splitting -/

section Splitting

variable {separator : Char} {part rest : List Char}

theorem splitAll_of_not_mem (h : separator ∉ part) : splitAll separator part = [part] := by
  induction part with
  | nil => rfl
  | cons c part ih =>
    obtain ⟨hc, hpart⟩ := not_or.mp (mt List.mem_cons.mpr h)
    rw [splitAll, if_neg (Ne.symm hc), ih hpart]

/-- Splitting takes off one part at a time. -/
theorem splitAll_append (h : separator ∉ part) :
    splitAll separator (part ++ separator :: rest) = part :: splitAll separator rest := by
  induction part with
  | nil => rw [List.nil_append, splitAll, if_pos rfl]
  | cons c part ih =>
    obtain ⟨hc, hpart⟩ := not_or.mp (mt List.mem_cons.mpr h)
    rw [List.cons_append, splitAll, if_neg (Ne.symm hc), ih hpart]

/-- **Splitting undoes joining.** -/
theorem splitAll_flatMap {parts : List (List Char)} {last : List Char}
    (hparts : ∀ part ∈ parts, separator ∉ part) (hlast : separator ∉ last) :
    splitAll separator (parts.flatMap (· ++ [separator]) ++ last) = parts ++ [last] := by
  induction parts with
  | nil => exact splitAll_of_not_mem hlast
  | cons part parts ih =>
    obtain ⟨hpart, hparts⟩ := List.forall_mem_cons.mp hparts
    rw [List.flatMap_cons, List.append_assoc, List.append_assoc, List.singleton_append,
      splitAll_append hpart, ih hparts, List.cons_append]

end Splitting

/-- The lines of a text are those that it was put together from. What follows the last line feed is
a line unless it is empty. -/
theorem lines_flatMap_append {parts : List (List Char)} {last : List Char}
    (hparts : ∀ part ∈ parts, '\n' ∉ part ∧ part.getLast? ≠ some '\r') (hlast : '\n' ∉ last) :
    lines (parts.flatMap (· ++ ['\n']) ++ last) =
      parts ++ if last.isEmpty then [] else [last] := by
  have hreturn : parts.map dropReturn = parts :=
    calc parts.map dropReturn
      _ = parts.map id := List.map_congr_left fun part hpart => if_neg (hparts part hpart).2
      _ = parts := List.map_id parts
  have hsplit := splitAll_flatMap (fun part hpart => (hparts part hpart).1) hlast
  simp only [lines, hsplit, List.dropLast_concat, List.getLastD_concat, hreturn]

/-- The lines of a text whose last line is not ended. -/
theorem lines_flatMap {parts : List (List Char)} {last : List Char}
    (hparts : ∀ part ∈ parts, '\n' ∉ part ∧ part.getLast? ≠ some '\r') (hlast : '\n' ∉ last)
    (hne : last ≠ []) : lines (parts.flatMap (· ++ ['\n']) ++ last) = parts ++ [last] := by
  simp only [lines_flatMap_append hparts hlast, List.isEmpty_iff, if_neg hne]

/-- The lines of a text in which all lines are ended. -/
theorem lines_flatMap_ended {parts : List (List Char)}
    (hparts : ∀ part ∈ parts, '\n' ∉ part ∧ part.getLast? ≠ some '\r') :
    lines (parts.flatMap (· ++ ['\n'])) = parts := by
  have hlines := lines_flatMap_append hparts (List.not_mem_nil (a := '\n'))
  rwa [List.append_nil, List.isEmpty_nil, if_pos rfl, List.append_nil] at hlines

/-! ## Trimming -/

/-- What is trimmed off the front of a text are blanks. -/
theorem exists_trimStart (cs : List Char) :
    ∃ lead, (∀ c ∈ lead, isBlank c = true) ∧ cs = lead ++ trimStart cs :=
  ⟨cs.takeWhile isBlank, fun _ => List.mem_takeWhile_imp, List.takeWhile_append_dropWhile.symm⟩

theorem trimStart_append {lead line : List Char} (hlead : ∀ c ∈ lead, isBlank c = true)
    (hline : ∀ c ∈ line.head?, isBlank c = false) : trimStart (lead ++ line) = line :=
  Token.IsMaximalRun.dropWhile_eq ⟨hlead, hline⟩

theorem trimEnd_of_last {line : List Char} (h : ∀ c ∈ line.getLast?, isBlank c = false) :
    trimEnd line = line := by
  have hrun : Token.IsMaximalRun isBlank [] line.reverse :=
    ⟨List.forall_mem_nil _, by rwa [List.head?_reverse]⟩
  have hdrop := hrun.dropWhile_eq
  rw [List.nil_append] at hdrop
  rw [trimEnd, hdrop, List.reverse_reverse]

/-- Trimming removes the blanks in front of a line that has none at its ends. -/
theorem trim_append {lead line : List Char} (hlead : ∀ c ∈ lead, isBlank c = true)
    (hfirst : ∀ c ∈ line.head?, isBlank c = false)
    (hlast : ∀ c ∈ line.getLast?, isBlank c = false) : trim (lead ++ line) = line := by
  rw [trim, trimStart_append hlead hfirst, trimEnd_of_last hlast]

/-! ## Searching -/

/-- What occurs in a text has its characters from there. -/
theorem mem_of_occursIn {needle cs : List Char} (h : occursIn needle cs = true) {c : Char}
    (hc : c ∈ needle) : c ∈ cs := by
  induction cs with
  | nil =>
    rw [occursIn, List.isEmpty_iff] at h
    rwa [h] at hc
  | cons d cs ih =>
    rcases Bool.or_eq_true_iff.mp h with hprefix | hrest
    · exact (List.isPrefixOf_iff_prefix.mp hprefix).subset hc
    · exact List.mem_cons_of_mem d (ih hrest)

/-- A character of a lower-cased text is in the lower case of one of its characters. -/
theorem mem_lowerAfter {before cs : List Char} {d : Char} (h : d ∈ lowerAfter before cs) :
    ∃ c ∈ cs, c = capitalSigma ∨ d ∈ lowerChar c := by
  induction cs generalizing before with
  | nil => cases h
  | cons c cs ih =>
    rw [lowerAfter] at h
    rcases List.mem_append.mp h with hc | hrest
    · by_cases hsigma : c = capitalSigma
      · exact ⟨c, List.mem_cons_self, .inl hsigma⟩
      · rw [if_neg hsigma] at hc
        exact ⟨c, List.mem_cons_self, .inr hc⟩
    · obtain ⟨c', hc', hlower⟩ := ih hrest
      exact ⟨c', List.mem_cons_of_mem c hc', hlower⟩

end PrimalSimplex.Text
