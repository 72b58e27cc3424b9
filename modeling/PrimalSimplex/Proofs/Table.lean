import PrimalSimplex.Proofs.FileLines
import PrimalSimplex.Proofs.Names
import PrimalSimplex.Table

/-!
# What a table shows

The lines of a table are put together in the same way: a piece for the label, then for each column a
joint and a piece (`Table.joined`). The middle character of a joint separates columns, and no piece
has one. So the marks of a line, the places of its separators among its characters, depend on the
lengths of the pieces only (`Table.map_beq_joined`). All pieces of a column have the column's width,
so all lines have the same marks: they are equally long, and their separators stand one below the
other.

A piece is a text with blanks around it, and a text without white space or bars is found again by
splitting the line at its bars and trimming (`Table.entries_joined`). The names of the columns are
such texts, and so are the numbers of both binary types with a fixed number of decimals
(`Binary.Format.isPlain_fixed`).
-/

namespace PrimalSimplex

/-! ## Aligned texts -/

namespace Text

/-- The text has no white space and no bar in it. -/
def IsPlain (text : String) : Prop := ∀ c ∈ text.toList, isBlank c = false ∧ c ≠ '|'

instance (text : String) : Decidable (IsPlain text) :=
  decidable_of_iff ((text.toList.all fun c => !isBlank c && c != '|') = true) (by simp [IsPlain])

variable {text : String} {texts : List String} {width : Nat}

/-- A character has at least one byte. -/
theorem length_le_utf8ByteSize (text : String) : text.length ≤ text.utf8ByteSize := by
  induction text using String.push_induction with
  | empty => exact Nat.zero_le _
  | push text c ih =>
    rw [String.length_push, String.utf8ByteSize_push]
    exact Nat.add_le_add ih c.utf8Size_pos

/-- A column is wide enough for its texts. -/
theorem length_le_widest (h : text ∈ texts) : text.length ≤ widest texts :=
  (length_le_utf8ByteSize text).trans ((le_foldl_max _ _).2 _ (List.mem_map_of_mem h))

theorem toList_filling (width : Nat) (text : String) :
    (filling width text).toList = List.replicate (width - text.length) ' ' := by
  rw [filling, String.toList_ofList]

theorem toList_alignRight (width : Nat) (text : String) :
    (alignRight width text).toList =
      List.replicate (width - text.length) ' ' ++ text.toList := by
  rw [alignRight, String.toList_append, toList_filling]

theorem toList_alignLeft (width : Nat) (text : String) :
    (alignLeft width text).toList =
      text.toList ++ List.replicate (width - text.length) ' ' := by
  rw [alignLeft, String.toList_append, toList_filling]

/-- An aligned text has the width of its column. -/
theorem length_alignRight (h : text.length ≤ width) :
    (alignRight width text).toList.length = width := by
  rw [toList_alignRight, List.length_append, List.length_replicate, String.length_toList]
  exact Nat.sub_add_cancel h

theorem length_alignLeft (h : text.length ≤ width) :
    (alignLeft width text).toList.length = width := by
  rw [toList_alignLeft, List.length_append, List.length_replicate, String.length_toList]
  exact Nat.add_sub_cancel' h

theorem isBlank_of_mem_replicate {n : Nat} : ∀ c ∈ List.replicate n ' ', isBlank c = true := by
  intro c hc
  rw [List.eq_of_mem_replicate hc]
  decide

namespace IsPlain

/-- There is nothing to trim off a plain text. -/
theorem trim_toList (h : IsPlain text) : trim text.toList = text.toList :=
  trim_append (List.forall_mem_nil _) (fun c hc => (h c (List.mem_of_mem_head? hc)).1)
    fun c hc => (h c (List.mem_of_getLast? hc)).1

/-- **Trimming undoes filling.** -/
theorem trim_filled (h : IsPlain text) (n k : Nat) :
    trim (List.replicate n ' ' ++ (text.toList ++ List.replicate k ' ')) = text.toList := by
  rw [trim_padded _ isBlank_of_mem_replicate isBlank_of_mem_replicate, h.trim_toList]

theorem trim_alignRight (h : IsPlain text) (width : Nat) :
    trim (alignRight width text).toList = text.toList := by
  have htrim := h.trim_filled (width - text.length) 0
  rwa [List.replicate_zero, List.append_nil, ← toList_alignRight] at htrim

theorem trim_alignLeft (h : IsPlain text) (width : Nat) :
    trim (alignLeft width text).toList = text.toList := by
  have htrim := h.trim_filled 0 (width - text.length)
  rwa [List.replicate_zero, List.nil_append, ← toList_alignLeft] at htrim

end IsPlain

end Text

namespace Table

/-! ## Lines -/

/-- A line made of a piece for the label and a piece for each column, with a joint before it. -/
def joined (joint label : List Char) (columns : List (List Char)) : List Char :=
  label ++ columns.flatMap (joint ++ ·)

/-- The marks of a line with columns of the given widths: `true` where a separator stands. -/
def frame (labelWidth : Nat) (widths : List Nat) : List Bool :=
  List.replicate labelWidth false ++
    widths.flatMap fun width => false :: true :: false :: List.replicate width false

/-- The texts between the bars of a line, trimmed. -/
def entries (line : List Char) : List String :=
  (Text.splitAll '|' line).map fun part => String.ofList (Text.trim part)

section Joined

variable {separator before after : Char} {label : List Char} {columns : List (List Char)}

theorem map_beq_of_not_mem {cs : List Char} (h : separator ∉ cs) :
    cs.map (· == separator) = List.replicate cs.length false := by
  refine List.eq_replicate_iff.mpr ⟨List.length_map _, ?_⟩
  simp only [List.forall_mem_map, beq_eq_false_iff_ne]
  exact fun c hc heq => h (heq ▸ hc)

/-- **The marks of a line depend on the lengths of its pieces only.** -/
theorem map_beq_joined (hbefore : before ≠ separator) (hafter : after ≠ separator)
    (hlabel : separator ∉ label) (hcolumns : ∀ column ∈ columns, separator ∉ column) :
    (joined [before, separator, after] label columns).map (· == separator) =
      frame label.length (columns.map List.length) := by
  rw [joined, frame, List.map_append, map_beq_of_not_mem hlabel, List.map_flatMap,
    List.flatMap_map]
  congr 1
  refine List.flatMap_congr fun column hcolumn => ?_
  simp [map_beq_of_not_mem (hcolumns column hcolumn), hbefore, hafter]

/-- Lines with the same marks have their separators at the same places. -/
theorem getElem?_eq_some_iff_of_marks {cs cs' : List Char} {separator' : Char}
    (h : cs.map (· == separator) = cs'.map (· == separator')) (i : Nat) :
    cs[i]? = some separator ↔ cs'[i]? = some separator' := by
  have hmark : ∀ {cs : List Char} {separator : Char},
      (cs.map (· == separator))[i]? = some true ↔ cs[i]? = some separator := by
    intro cs separator
    simp
  rw [← hmark, h, hmark]

/-- **Splitting at the bars and trimming** finds the pieces again, trimmed. -/
theorem entries_joined (hlabel : '|' ∉ label) (hcolumns : ∀ column ∈ columns, '|' ∉ column) :
    entries (joined [' ', '|', ' '] label columns) =
      (label :: columns).map fun piece => String.ofList (Text.trim piece) := by
  have hblank : ∀ c ∈ [' '], Text.isBlank c = true :=
    List.forall_mem_singleton.mpr (by decide)
  -- the blanks of a joint go to the pieces around it, from where they are trimmed
  induction columns generalizing label with
  | nil => simp [joined, entries, Text.splitAll_of_not_mem hlabel]
  | cons column columns ih =>
    obtain ⟨hcolumn, hcolumns⟩ := List.forall_mem_cons.mp hcolumns
    have hcut : joined [' ', '|', ' '] label (column :: columns) =
        (label ++ [' ']) ++ '|' :: joined [' ', '|', ' '] ([' '] ++ column) columns := by
      simp [joined]
    have hlabel' : '|' ∉ label ++ [' '] := by simp [hlabel]
    have hcolumn' : '|' ∉ [' '] ++ column := by simp [hcolumn]
    have htrim : Text.trim (label ++ [' ']) = Text.trim label :=
      Text.trim_padded label (List.forall_mem_nil _) hblank
    have htrim' : Text.trim ([' '] ++ column) = Text.trim column := by
      have hpadded := Text.trim_padded column hblank (List.forall_mem_nil _)
      rwa [List.append_nil] at hpadded
    have hrest := ih hcolumn' hcolumns
    rw [entries] at hrest ⊢
    rw [hcut, Text.splitAll_append hlabel', List.map_cons, hrest]
    simp only [List.map_cons, htrim, htrim']

end Joined

/-! ## Lines of texts -/

/-- The texts of a line, each filled up to the width of its column. -/
def aligned (widths : List Nat) (texts : List String) : List (List Char) :=
  List.zipWith (fun text width => (Text.alignRight width text).toList) texts widths

/-- The characters of a line of texts, without the line feed. -/
def lineChars (labelWidth : Nat) (widths : List Nat) (label : String) (texts : List String) :
    List Char :=
  joined [' ', '|', ' '] (Text.alignLeft labelWidth label).toList (aligned widths texts)

/-- The characters of the rule, without the line feed. -/
def ruleChars (labelWidth : Nat) (widths : List Nat) : List Char :=
  joined ['-', '+', '-'] (List.replicate labelWidth '-')
    (widths.map fun width => List.replicate width '-')

/-- The texts of a line can be told apart, and there is room for them. -/
structure Fits (labelWidth : Nat) (widths : List Nat) (label : String) (texts : List String) :
    Prop where
  /-- there is room for the label -/
  label_le : label.length ≤ labelWidth
  /-- there is a column for each text, with room for it -/
  texts_le : List.Forall₂ (fun text width => text.length ≤ width) texts widths
  /-- the label is plain -/
  isPlain_label : Text.IsPlain label
  /-- the texts are plain -/
  isPlain : ∀ text ∈ texts, Text.IsPlain text

variable {labelWidth : Nat} {widths : List Nat} {label : String} {texts : List String}

theorem toList_line (labelWidth : Nat) (widths : List Nat) (label : String)
    (texts : List String) :
    (line labelWidth widths label texts).toList =
      lineChars labelWidth widths label texts ++ ['\n'] := by
  simp [line, lineChars, joined, aligned, String.toList_join, List.flatMap_def, List.map_zipWith]

theorem toList_ruleLine (labelWidth : Nat) (widths : List Nat) :
    (ruleLine labelWidth widths).toList = ruleChars labelWidth widths ++ ['\n'] := by
  simp [ruleLine, ruleChars, joined, Text.rule, String.toList_join, List.flatMap_map]

/-- What a list is put together from. -/
theorem exists_of_mem_zipWith {α β γ : Type} {f : α → β → γ} {as : List α} {bs : List β} {c : γ}
    (h : c ∈ List.zipWith f as bs) : ∃ a ∈ as, ∃ b ∈ bs, c = f a b := by
  rw [← List.map_uncurry_zip_eq_zipWith] at h
  obtain ⟨⟨a, b⟩, hmem, rfl⟩ := List.mem_map.mp h
  obtain ⟨ha, hb⟩ := List.of_mem_zip hmem
  exact ⟨a, ha, b, hb, rfl⟩

namespace Fits

/-- The pieces of a line are as long as the columns are wide. -/
theorem length_aligned (h : Fits labelWidth widths label texts) :
    (aligned widths texts).map List.length = widths := by
  obtain ⟨-, hle, -, -⟩ := h
  induction hle with
  | nil => rfl
  | cons hle _ ih =>
    rw [aligned, List.zipWith_cons_cons, List.map_cons, Text.length_alignRight hle, ← aligned, ih]

/-- The texts are found again in the pieces. -/
theorem map_trim_aligned (h : Fits labelWidth widths label texts) :
    (aligned widths texts).map (fun piece => String.ofList (Text.trim piece)) = texts := by
  obtain ⟨-, hle, -, hplain⟩ := h
  induction hle with
  | nil => rfl
  | cons _ _ ih =>
    obtain ⟨htext, hplain⟩ := List.forall_mem_cons.mp hplain
    rw [aligned, List.zipWith_cons_cons, List.map_cons, htext.trim_alignRight,
      String.ofList_toList, ← aligned, ih hplain]

/-- The pieces of a line have no white space but blanks, and no bars. -/
theorem of_mem_piece (h : Fits labelWidth widths label texts) {piece : List Char}
    (hpiece : piece = (Text.alignLeft labelWidth label).toList ∨ piece ∈ aligned widths texts)
    {c : Char} (hc : c ∈ piece) : c = ' ' ∨ Text.isBlank c = false ∧ c ≠ '|' := by
  rcases hpiece with rfl | hpiece
  · rw [Text.toList_alignLeft] at hc
    rcases List.mem_append.mp hc with hc | hc
    · exact .inr (h.isPlain_label c hc)
    · exact .inl (List.eq_of_mem_replicate hc)
  · obtain ⟨text, htext, width, -, rfl⟩ := exists_of_mem_zipWith hpiece
    rw [Text.toList_alignRight] at hc
    rcases List.mem_append.mp hc with hc | hc
    · exact .inl (List.eq_of_mem_replicate hc)
    · exact .inr (h.isPlain text htext c hc)

/-- The pieces of a line have no bars. -/
theorem bar_not_mem (h : Fits labelWidth widths label texts) :
    '|' ∉ (Text.alignLeft labelWidth label).toList ∧
      ∀ piece ∈ aligned widths texts, '|' ∉ piece := by
  have hbar : ¬('|' = ' ' ∨ Text.isBlank '|' = false ∧ '|' ≠ '|') := by decide
  exact ⟨fun hc => hbar (h.of_mem_piece (.inl rfl) hc),
    fun piece hpiece hc => hbar (h.of_mem_piece (.inr hpiece) hc)⟩

/-- **The marks of a line of texts.** -/
theorem marks (h : Fits labelWidth widths label texts) :
    (lineChars labelWidth widths label texts).map (· == '|') = frame labelWidth widths := by
  obtain ⟨hlabel, hcolumns⟩ := h.bar_not_mem
  rw [lineChars, map_beq_joined (by decide) (by decide) hlabel hcolumns, h.length_aligned,
    Text.length_alignLeft h.label_le]

/-- **The texts of a line are found again.** -/
theorem entries_lineChars (h : Fits labelWidth widths label texts) :
    entries (lineChars labelWidth widths label texts) = label :: texts := by
  obtain ⟨hlabel, hcolumns⟩ := h.bar_not_mem
  rw [lineChars, entries_joined hlabel hcolumns, List.map_cons, h.map_trim_aligned,
    h.isPlain_label.trim_alignLeft, String.ofList_toList]

/-- There is no line break in a line. -/
theorem not_mem_lineChars (h : Fits labelWidth widths label texts) :
    '\n' ∉ lineChars labelWidth widths label texts ∧
      '\r' ∉ lineChars labelWidth widths label texts := by
  have hmem : ∀ c ∈ lineChars labelWidth widths label texts,
      c = ' ' ∨ c = '|' ∨ Text.isBlank c = false := by
    intro c hc
    rcases List.mem_append.mp hc with hc | hc
    · exact (h.of_mem_piece (.inl rfl) hc).imp_right fun hplain => .inr hplain.1
    · obtain ⟨piece, hpiece, hc⟩ := List.mem_flatMap.mp hc
      rcases List.mem_append.mp hc with hc | hc
      · simp only [List.mem_cons, List.not_mem_nil, or_false] at hc
        tauto
      · exact (h.of_mem_piece (.inr hpiece) hc).imp_right fun hplain => .inr hplain.1
  exact ⟨fun hc => absurd (hmem _ hc) (by decide), fun hc => absurd (hmem _ hc) (by decide)⟩

end Fits

/-- The marks of the rule are those of the lines. -/
theorem marks_ruleChars (labelWidth : Nat) (widths : List Nat) :
    (ruleChars labelWidth widths).map (· == '+') = frame labelWidth widths := by
  have hdash : ∀ width, '+' ∉ List.replicate width '-' := fun width hc =>
    absurd (List.eq_of_mem_replicate hc) (by decide)
  have hlength : List.length ∘ (fun width => List.replicate width '-') = id :=
    funext fun width => List.length_replicate
  rw [ruleChars, map_beq_joined (by decide) (by decide) (hdash _), List.length_replicate,
    List.map_map, hlength, List.map_id]
  exact List.forall_mem_map.mpr fun width _ => hdash width

theorem not_mem_ruleChars (labelWidth : Nat) (widths : List Nat) :
    '\n' ∉ ruleChars labelWidth widths ∧ '\r' ∉ ruleChars labelWidth widths := by
  have hmem : ∀ c ∈ ruleChars labelWidth widths, c = '-' ∨ c = '+' := by
    intro c hc
    simp only [ruleChars, joined, List.mem_append, List.mem_replicate, List.mem_flatMap,
      List.mem_map, List.mem_cons, List.not_mem_nil, or_false] at hc
    obtain ⟨-, rfl⟩ | ⟨-, ⟨width, -, rfl⟩, (rfl | rfl | rfl) | hc⟩ := hc
    · exact .inl rfl
    · exact .inl rfl
    · exact .inr rfl
    · exact .inl rfl
    · exact .inl (List.eq_of_mem_replicate hc)
  exact ⟨fun hc => absurd (hmem _ hc) (by decide), fun hc => absurd (hmem _ hc) (by decide)⟩

/-! ## Lines under a header -/

section Body

variable {labels : List String} {cells : List (List String)}

/-- The characters of the lines below the rule. -/
def bodyChars (labelWidth : Nat) (widths : List Nat) (labels : List String)
    (cells : List (List String)) : List (List Char) :=
  List.zipWith (lineChars labelWidth widths) labels cells

variable (h : ∀ label ∈ labels, ∀ texts ∈ cells, Fits labelWidth widths label texts)

include h

/-- Each line below the rule is one of texts that fit. -/
theorem exists_fits_of_mem_bodyChars {chars : List Char}
    (hchars : chars ∈ bodyChars labelWidth widths labels cells) :
    ∃ label texts, Fits labelWidth widths label texts ∧
      chars = lineChars labelWidth widths label texts := by
  obtain ⟨label, hlabel, texts, htexts, rfl⟩ := exists_of_mem_zipWith hchars
  exact ⟨label, texts, h label hlabel texts htexts, rfl⟩

/-- The marks of the lines below the rule. -/
theorem marks_of_mem_bodyChars {chars : List Char}
    (hchars : chars ∈ bodyChars labelWidth widths labels cells) :
    chars.map (· == '|') = frame labelWidth widths := by
  obtain ⟨label, texts, hfits, rfl⟩ := exists_fits_of_mem_bodyChars h hchars
  exact hfits.marks

/-- The labels and the cells are found again, line by line. -/
theorem map_entries_bodyChars :
    (bodyChars labelWidth widths labels cells).map entries =
      List.zipWith List.cons labels cells := by
  rw [bodyChars, ← List.map_uncurry_zip_eq_zipWith, ← List.map_uncurry_zip_eq_zipWith,
    List.map_map]
  refine List.map_congr_left fun ⟨label, texts⟩ hmem => ?_
  obtain ⟨hlabel, htexts⟩ := List.of_mem_zip hmem
  exact (h label hlabel texts htexts).entries_lineChars

/-- No line breaks stand inside the lines of a table. -/
theorem not_mem_of_mem_lines {headers : List String}
    (hheader : Fits labelWidth widths label headers) {chars : List Char}
    (hchars : chars ∈ lineChars labelWidth widths label headers ::
      ruleChars labelWidth widths :: bodyChars labelWidth widths labels cells) :
    '\n' ∉ chars ∧ '\r' ∉ chars := by
  simp only [List.mem_cons] at hchars
  obtain rfl | rfl | hchars := hchars
  · exact hheader.not_mem_lineChars
  · exact not_mem_ruleChars labelWidth widths
  · obtain ⟨label, texts, hfits, rfl⟩ := exists_fits_of_mem_bodyChars h hchars
    exact hfits.not_mem_lineChars

end Body

/-! ## Widths -/

/-- A column is wide enough for its header and for its cells. -/
theorem length_le_columnWidths {headers : List String} {cells : List (List String)}
    (hlength : texts.length = headers.length)
    (hmem : ∀ j (hj : j < headers.length),
      texts.getD j "" ∈ cells.map (·.getD j "") ++ [headers[j]]) :
    List.Forall₂ (fun text width => text.length ≤ width) texts (columnWidths headers cells) := by
  refine List.forall₂_iff_get.mpr ⟨by rw [columnWidths, List.length_mapIdx, hlength], ?_⟩
  intro j hj hwidth
  simp only [List.get_eq_getElem, columnWidths, List.getElem_mapIdx]
  refine Text.length_le_widest ?_
  rw [← List.getD_eq_getElem _ "" hj]
  exact hmem j (hlength ▸ hj)

/-- A header and the cells below it fit into their column. -/
theorem fits_headers {headers : List String} (cells : List (List String))
    (hlabel : label.length ≤ labelWidth)
    (hplain : Text.IsPlain label ∧ ∀ text ∈ headers, Text.IsPlain text) :
    Fits labelWidth (columnWidths headers cells) label headers where
  label_le := hlabel
  texts_le := by
    refine length_le_columnWidths rfl fun j hj => List.mem_append_right _ ?_
    rw [List.getD_eq_getElem _ "" hj]
    exact List.mem_singleton_self _
  isPlain_label := hplain.1
  isPlain := hplain.2

theorem fits_cells {headers : List String} {cells : List (List String)} (htexts : texts ∈ cells)
    (hlength : texts.length = headers.length) (hlabel : label.length ≤ labelWidth)
    (hplain : Text.IsPlain label ∧ ∀ text ∈ texts, Text.IsPlain text) :
    Fits labelWidth (columnWidths headers cells) label texts where
  label_le := hlabel
  texts_le := length_le_columnWidths hlength fun _ _ =>
    List.mem_append_left _ (List.mem_map.mpr ⟨texts, htexts, rfl⟩)
  isPlain_label := hplain.1
  isPlain := hplain.2

/-! ## Plain texts -/

/-- A digit is no white space and no bar. -/
theorem isPlain_of_isDigit {c : Char} (h : c.isDigit = true) :
    Text.isBlank c = false ∧ c ≠ '|' := by
  refine ⟨(Token.classes_of_isDigit h).1, ?_⟩
  rintro rfl
  exact absurd h (by decide)

/-- The names of the columns are plain. -/
theorem isPlain_of_mem_headers {n m : Nat} {name : String}
    (h : name ∈ (Names.standard n m).headers) : Text.IsPlain name := by
  rcases List.mem_append.mp h with h | h
  · obtain ⟨letter, number, hletter, htext⟩ := Names.exists_toList_of_mem_columns h
    rw [Text.IsPlain, htext]
    refine List.forall_mem_cons.mpr
      ⟨?_, fun c hc => isPlain_of_isDigit (isDigit_of_mem_toDigits hc)⟩
    rcases hletter with rfl | rfl <;> decide
  · obtain rfl := List.mem_singleton.mp h
    decide

/-- The labels of the rows are plain: all but the last are names of columns. -/
theorem isPlain_of_mem_labels {n m : Nat} {basis : List Nat} {name : String}
    (h : name ∈ labels (Names.standard n m) basis) : Text.IsPlain name := by
  rcases List.mem_append.mp h with h | h
  · obtain ⟨j, -, rfl⟩ := List.mem_map.mp h
    exact isPlain_of_mem_headers (Names.column_mem_headers _ j)
  · obtain rfl := List.mem_singleton.mp h
    decide

/-- A cell is plain if the number is. -/
theorem isPlain_cell {F : Type} [Numeral F] {value : F}
    (h : Text.IsPlain (Numeral.fixed places value)) : Text.IsPlain (cell value) := by
  unfold cell
  split
  · rename_i rest htext
    split
    · rw [Text.IsPlain, String.toList_ofList]
      rw [Text.IsPlain, htext] at h
      exact (List.forall_mem_cons.mp h).2
    · exact h
  · rename_i htext
    rwa [String.ofList_toList]

end Table

/-- **The number types of a run write plain texts**: digits, points, signs, and words for what is no
finite number. -/
theorem Binary.Format.isPlain_fixed (format : Binary.Format) (places bits : Nat) :
    Text.IsPlain (format.fixed places bits) := by
  have hsigned : ∀ negative body, (∀ c ∈ body, Text.isBlank c = false ∧ c ≠ '|') →
      Text.IsPlain (Binary.signed negative body) := by
    intro negative body hbody
    rw [Text.IsPlain, Binary.signed, String.toList_ofList]
    split
    · exact List.forall_mem_cons.mpr ⟨by decide, hbody⟩
    · exact hbody
  have hinfinite : ∀ negative, Text.IsPlain (Binary.infinityText negative) := by decide
  unfold Binary.Format.fixed
  split
  · exact (by decide : Text.IsPlain Binary.nanText)
  · exact hinfinite _
  · refine hsigned _ _ (List.forall_mem_append.mpr ⟨fun c hc =>
      Table.isPlain_of_isDigit (isDigit_of_mem_toDigits hc), List.forall_mem_cons.mpr
      ⟨by decide, List.forall_mem_append.mpr ⟨fun c hc => ?_, fun c hc =>
      Table.isPlain_of_isDigit (isDigit_of_mem_toDigits hc)⟩⟩⟩)
    rw [List.eq_of_mem_replicate hc]
    decide

namespace Table

/-! ## Whole tables -/

section Render

variable {F : Type} [Numeral F] {n m : Nat} {rows : List (List F)} {basis : List Nat}

/-- The width of the labels of a table. -/
def widthOfLabels (names : Names) (basis : List Nat) : Nat :=
  Text.widest (labels names basis ++ [labelHeader])

/-- The widths of the columns of a table. -/
def widthsOf (names : Names) (rows : List (List F)) : List Nat :=
  columnWidths names.headers (rows.map (·.map cell))

/-- **The characters of a table**, line by line: the header, the rule, and the rows. -/
theorem toList_render (names : Names) (rows : List (List F)) (basis : List Nat) :
    (render names rows basis).toList =
      (lineChars (widthOfLabels names basis) (widthsOf names rows) labelHeader names.headers ::
        ruleChars (widthOfLabels names basis) (widthsOf names rows) ::
        bodyChars (widthOfLabels names basis) (widthsOf names rows) (labels names basis)
          (rows.map (·.map cell))).flatMap (· ++ ['\n']) := by
  simp only [render, bodyChars, widthOfLabels, widthsOf, String.toList_append, toList_line,
    toList_ruleLine, String.toList_join, List.flatMap_def, List.map_zipWith, List.map_cons,
    List.flatten_cons, List.append_assoc]

/-- The header fits. -/
theorem fits_header (n m : Nat) (rows : List (List F)) (basis : List Nat) :
    Fits (widthOfLabels (Names.standard n m) basis) (widthsOf (Names.standard n m) rows)
      labelHeader (Names.standard n m).headers :=
  fits_headers _ (Text.length_le_widest (List.mem_append_right _ (List.mem_singleton_self _)))
    ⟨by decide, fun _ => isPlain_of_mem_headers⟩

/-- The cells of a row fit, whatever its label is. -/
theorem fits_row (hrows : ∀ row ∈ rows, row.length = n + m + 1)
    (hplain : ∀ row ∈ rows, ∀ value ∈ row, Text.IsPlain (Numeral.fixed places value))
    {label : String} (hlabel : label ∈ labels (Names.standard n m) basis) {texts : List String}
    (htexts : texts ∈ rows.map (·.map cell)) :
    Fits (widthOfLabels (Names.standard n m) basis) (widthsOf (Names.standard n m) rows) label
      texts := by
  refine fits_cells htexts ?_ (Text.length_le_widest (List.mem_append_left _ hlabel))
    ⟨isPlain_of_mem_labels hlabel, ?_⟩
  · obtain ⟨row, hrow, rfl⟩ := List.mem_map.mp htexts
    rw [List.length_map, hrows row hrow, Names.headers, List.length_append, Names.length_columns]
    rfl
  · obtain ⟨row, hrow, rfl⟩ := List.mem_map.mp htexts
    exact List.forall_mem_map.mpr fun value hvalue => isPlain_cell (hplain row hrow value hvalue)

/-- **A rendered table is aligned and loses no cell.** It has a header, a rule and a line for each
row. All lines are equally long, and their separators stand at the same places. The entries of the
header are the names of the columns; those of a line are the label of its row and the cells of the
row, in order. -/
theorem rendered_table_is_aligned_and_complete (hlength : rows.length = m + 1)
    (hrows : ∀ row ∈ rows, row.length = n + m + 1) (hbasis : basis.length = m)
    (hplain : ∀ row ∈ rows, ∀ value ∈ row, Text.IsPlain (Numeral.fixed places value)) :
    ∃ header rule body,
      Text.lines (render (Names.standard n m) rows basis).toList = header :: rule :: body ∧
      body.length = m + 1 ∧
      (∀ chars ∈ rule :: body, chars.length = header.length) ∧
      (∀ chars ∈ header :: body, ∀ i : Nat, chars[i]? = some '|' ↔ rule[i]? = some '+') ∧
      entries header = "Basis" :: ((Names.standard n m).columns ++ ["RHS"]) ∧
      body.map entries =
        List.zipWith (fun label row => label :: row.map cell)
          (basis.map (Names.standard n m).column ++ ["Z"]) rows := by
  have hheader := fits_header n m rows basis
  have hbody : ∀ label ∈ labels (Names.standard n m) basis, ∀ texts ∈ rows.map (·.map cell),
      Fits (widthOfLabels (Names.standard n m) basis) (widthsOf (Names.standard n m) rows) label
        texts :=
    fun _ hlabel _ htexts => fits_row hrows hplain hlabel htexts
  rw [toList_render]
  -- from here on it does not matter which widths these are
  generalize widthOfLabels (Names.standard n m) basis = labelWidth at hheader hbody ⊢
  generalize widthsOf (Names.standard n m) rows = widths at hheader hbody ⊢
  have hmarks : ∀ chars ∈ lineChars labelWidth widths labelHeader (Names.standard n m).headers ::
      bodyChars labelWidth widths (labels (Names.standard n m) basis) (rows.map (·.map cell)),
      chars.map (· == '|') = (ruleChars labelWidth widths).map (· == '+') := by
    rw [marks_ruleChars]
    exact List.forall_mem_cons.mpr ⟨hheader.marks, fun _ => marks_of_mem_bodyChars hbody⟩
  have hwidth : ∀ chars ∈ lineChars labelWidth widths labelHeader (Names.standard n m).headers ::
      bodyChars labelWidth widths (labels (Names.standard n m) basis) (rows.map (·.map cell)),
      chars.length = (ruleChars labelWidth widths).length := by
    intro chars hchars
    simpa using congrArg List.length (hmarks chars hchars)
  obtain ⟨hheaderWidth, hbodyWidth⟩ := List.forall_mem_cons.mp hwidth
  refine ⟨_, _, _, Text.lines_flatMap_ended fun chars hchars => ?_, ?_, ?_, ?_,
    hheader.entries_lineChars, ?_⟩
  · obtain ⟨hnewline, hreturn⟩ := not_mem_of_mem_lines hbody hheader hchars
    exact ⟨hnewline, fun hlast => hreturn (List.mem_of_getLast? hlast)⟩
  · rw [bodyChars, List.length_zipWith, labels, List.length_append, List.length_map,
      List.length_map, hbasis, hlength]
    exact Nat.min_self _
  · refine List.forall_mem_cons.mpr ⟨hheaderWidth.symm, fun chars hchars => ?_⟩
    rw [hbodyWidth chars hchars, hheaderWidth]
  · exact fun chars hchars => getElem?_eq_some_iff_of_marks (hmarks chars hchars)
  · rw [map_entries_bodyChars hbody, List.zipWith_map_right]
    rfl

/-- A table with columns of different widths. -/
theorem rendered_table_is_aligned_and_complete_negative :
    ∃ header rule body,
      Text.lines (render (Names.standard 1 1) [[(1 : Float), 1, 4], [-12.5, 0, 0]] [1]).toList =
        header :: rule :: body ∧
      body.length = 2 ∧ (∀ chars ∈ rule :: body, chars.length = header.length) ∧
      entries header = ["Basis", "x1", "s1", "RHS"] ∧
      body.map entries =
        [["s1", "1.0000", "1.0000", "4.0000"], ["Z", "-12.5000", "0.0000", "0.0000"]] := by
  have hplain : ∀ row ∈ [[(1 : Float), 1, 4], [-12.5, 0, 0]], ∀ value ∈ row,
      Text.IsPlain (Numeral.fixed places value) :=
    fun _ _ value _ => Binary.Format.isPlain_fixed _ _ value.toBits.toNat
  have hbasis : [1].length = 1 := rfl
  obtain ⟨header, rule, body, hlines, hlength, hwidth, -, hheader, hbody⟩ :=
    rendered_table_is_aligned_and_complete (n := 1) rfl (by decide) hbasis hplain
  refine ⟨header, rule, body, hlines, hlength, hwidth, hheader, ?_⟩
  rw [hbody]
  decide +kernel

end Render

end Table

end PrimalSimplex
