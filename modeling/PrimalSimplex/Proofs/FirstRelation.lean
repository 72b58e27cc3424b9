import PrimalSimplex.Proofs.Constraint

/-!
# The first relation of a text

`Relation.find?` goes through a text from left to right and, where spellings of relations begin,
takes the longest. Which cut that is can be said without a search (`Relation.IsFirst`): no character
before the cut belongs to a relation, and no spelling of any relation goes on beyond the one that
was taken.

There is only one such cut, and it is the one that is found (`Relation.find?_eq_some_iff`). It does
not matter whether spellings are compared by their characters or by their bytes: two of them that
begin at the same place are one the beginning of the other, so both ways tell which is longer
(`Relation.size_le_size_iff`).
-/

namespace PrimalSimplex

namespace Relation

/-- The cut of a text at its first relation. Sizes are counted in bytes, as offsets are. -/
structure IsFirst (text : List Char) (m : Match) : Prop where
  /-- the pieces make up the text -/
  eq_append : text = m.before ++ (m.spelling ++ m.after)
  /-- nothing before the cut belongs to a relation -/
  before : ∀ c ∈ m.before, isRelational c = false
  /-- the relation is spelled like that -/
  spelled : ∃ s ∈ m.relation.spellings, s.toList = m.spelling
  /-- no spelling of any relation is longer there -/
  longest : ∀ (relation : Relation), ∀ s ∈ relation.spellings,
    s.toList <+: m.spelling ++ m.after → s.utf8ByteSize ≤ m.size

/-! ## Sizes -/

theorem size_le_of_prefix {s t : List Char} (h : s <+: t) :
    (String.ofList s).utf8ByteSize ≤ (String.ofList t).utf8ByteSize := by
  obtain ⟨more, rfl⟩ := h
  rw [String.ofList_append, String.utf8ByteSize_append]
  exact Nat.le_add_right _ _

/-- Of two beginnings of a text the one with more characters is the one with more bytes. -/
theorem size_le_size_iff {s t cs : List Char} (hs : s <+: cs) (ht : t <+: cs) :
    (String.ofList s).utf8ByteSize ≤ (String.ofList t).utf8ByteSize ↔ s.length ≤ t.length := by
  constructor
  · intro hsize
    by_contra! hlength
    obtain ⟨more, rfl⟩ := List.prefix_of_prefix_length_le ht hs hlength.le
    -- what `s` has more than `t` would have no bytes
    rw [String.ofList_append, String.utf8ByteSize_append] at hsize
    have hmore : String.ofList more = "" := String.utf8ByteSize_eq_zero_iff.mp (by omega)
    have hnil : more = [] := by simpa using congrArg String.toList hmore
    simp [hnil] at hlength
  · intro hlength
    exact size_le_of_prefix (List.prefix_of_prefix_length_le hs ht hlength)

/-! ## The longest spelling -/

/-- The longer of some spellings is at least as long as each of them. -/
theorem length_le_foldl_longer (spellings : List (Relation × List Char))
    (first : Relation × List Char) :
    ∀ s ∈ first :: spellings, s.2.length ≤ (spellings.foldl longer first).2.length := by
  induction spellings generalizing first with
  | nil => simp
  | cons next spellings ih =>
    have hlonger : first.2.length ≤ (longer first next).2.length ∧
        next.2.length ≤ (longer first next).2.length := by
      unfold longer
      split <;> constructor <;> omega
    obtain ⟨hstart, hrest⟩ := List.forall_mem_cons.mp (ih (longer first next))
    simp only [List.foldl_cons, List.forall_mem_cons]
    exact ⟨hlonger.1.trans hstart, hlonger.2.trans hstart, hrest⟩

/-- A spelling tells its relation. -/
theorem eq_of_mem_allSpellings :
    ∀ s ∈ allSpellings, ∀ t ∈ allSpellings, s.2 = t.2 → s = t := by
  decide

/-- The search for a spelling comes back empty only if none is there. -/
theorem longestAt?_eq_none_iff {cs : List Char} :
    longestAt? cs = none ↔ ∀ s ∈ allSpellings, ¬ s.2 <+: cs := by
  have hempty : longestAt? cs = none ↔ (allSpellings.filter fun s => s.2.isPrefixOf cs) = [] := by
    unfold longestAt?
    split
    · rename_i hnil
      simp only [hnil]
    · rename_i hcons
      simp [hcons]
  simp only [hempty, List.filter_eq_nil_iff, List.isPrefixOf_iff_prefix]

theorem length_le_of_longestAt? {cs : List Char} {s : Relation × List Char}
    (h : longestAt? cs = some s) {t : Relation × List Char} (ht : t ∈ allSpellings)
    (hstart : t.2 <+: cs) : t.2.length ≤ s.2.length := by
  have hmem : t ∈ allSpellings.filter fun s => s.2.isPrefixOf cs :=
    List.mem_filter.mpr ⟨ht, List.isPrefixOf_iff_prefix.mpr hstart⟩
  unfold longestAt? at h
  split at h
  · cases h
  · rename_i first rest hfilter
    obtain rfl := Option.some.inj h
    rw [hfilter] at hmem
    exact length_le_foldl_longer rest first t hmem

/-- **The longest spelling at the front of a text.** -/
theorem longestAt?_eq_some_iff {cs : List Char} {s : Relation × List Char} :
    longestAt? cs = some s ↔ (s ∈ allSpellings ∧ s.2 <+: cs) ∧
      ∀ t ∈ allSpellings, t.2 <+: cs → t.2.length ≤ s.2.length := by
  constructor
  · exact fun h => ⟨mem_of_longestAt? h, fun t => length_le_of_longestAt? h⟩
  · rintro ⟨⟨hs, hstart⟩, hlongest⟩
    cases hfound : longestAt? cs with
    | none => exact absurd hstart (longestAt?_eq_none_iff.mp hfound s hs)
    | some t =>
      obtain ⟨ht, hstart'⟩ := mem_of_longestAt? hfound
      have hlength : t.2.length = s.2.length :=
        Nat.le_antisymm (hlongest t ht hstart') (length_le_of_longestAt? hfound hs hstart)
      have hspelling : t.2 = s.2 :=
        (List.prefix_of_prefix_length_le hstart' hstart hlength.le).eq_of_length hlength
      rw [eq_of_mem_allSpellings t ht s hs hspelling]

/-- Every character of a relation is a spelling on its own. -/
theorem exists_spelling_of_isRelational {c : Char} (h : isRelational c = true) :
    ∃ relation, (relation, [c]) ∈ allSpellings := by
  rcases isRelational_iff.mp h with rfl | rfl | rfl | rfl | rfl
  · exact ⟨.equal, by decide⟩
  · exact ⟨.atMost, by decide⟩
  · exact ⟨.atLeast, by decide⟩
  · exact ⟨.atMost, by decide⟩
  · exact ⟨.atLeast, by decide⟩

/-- A text is cut at once where a character of a relation stands. -/
theorem exists_longestAt?_of_isRelational {c : Char} (h : isRelational c = true)
    (rest : List Char) : ∃ s, longestAt? (c :: rest) = some s := by
  obtain ⟨relation, hmem⟩ := exists_spelling_of_isRelational h
  rw [← Option.isSome_iff_exists, Option.isSome_iff_ne_none]
  intro hnone
  exact longestAt?_eq_none_iff.mp hnone _ hmem ⟨rest, rfl⟩

/-! ## The first cut -/

variable {text : List Char} {m : Match}

/-- The spelling at the first cut is the longest there. -/
theorem IsFirst.longestAt?_eq (h : IsFirst text m) :
    longestAt? (m.spelling ++ m.after) = some (m.relation, m.spelling) := by
  have hstart : m.spelling <+: m.spelling ++ m.after := List.prefix_append _ _
  refine longestAt?_eq_some_iff.mpr ⟨⟨mem_allSpellings.mpr h.spelled, hstart⟩, ?_⟩
  rintro ⟨relation, spelling⟩ hmem hspelling
  obtain ⟨s, hs, rfl⟩ := mem_allSpellings.mp hmem
  have hsize := h.longest relation s hs hspelling
  rw [Match.size, ← String.ofList_toList (s := s)] at hsize
  exact (size_le_size_iff hspelling hstart).mp hsize

/-- The search finds the first cut. -/
theorem IsFirst.find?_eq (h : IsFirst text m) : find? text = some m := by
  obtain ⟨relation, before, spelling, after⟩ := m
  have hlongest := h.longestAt?_eq
  obtain ⟨htext, hbefore, hspelled, -⟩ := h
  subst htext
  induction before with
  | nil =>
    obtain ⟨c, more, rfl⟩ := List.exists_cons_of_ne_nil
      (isRelational_of_mem_allSpellings _ (mem_allSpellings.mpr hspelled)).1
    simp only [List.nil_append, List.cons_append] at hlongest ⊢
    rw [find?, hlongest]
    simp
  | cons c before ih =>
    obtain ⟨hc, hbefore⟩ := List.forall_mem_cons.mp hbefore
    simp only at hbefore ih hlongest
    rw [List.cons_append, find?_cons_of_not_isRelational hc, ih hlongest hbefore hspelled]
    rfl

/-- What the search finds is the first cut. -/
theorem isFirst_of_find? (h : find? text = some m) : IsFirst text m := by
  induction text generalizing m with
  | nil => cases h
  | cons c rest ih =>
    cases hc : isRelational c with
    | true =>
      obtain ⟨⟨relation, spelling⟩, hlongest⟩ := exists_longestAt?_of_isRelational hc rest
      obtain ⟨⟨hmem, after, hafter⟩, hmaximal⟩ := longestAt?_eq_some_iff.mp hlongest
      rw [find?, hlongest] at h
      obtain rfl := Option.some.inj h
      simp only at hafter
      rw [← hafter] at hmaximal ⊢
      refine ⟨by simp, List.forall_mem_nil _, mem_allSpellings.mp hmem, ?_⟩
      intro other s hs hstart
      rw [List.drop_left] at hstart
      rw [Match.size, ← String.ofList_toList (s := s)]
      refine (size_le_size_iff hstart (List.prefix_append _ _)).mpr ?_
      exact hmaximal (other, s.toList) (mem_allSpellings.mpr ⟨s, hs, rfl⟩) hstart
    | false =>
      rw [find?_cons_of_not_isRelational hc] at h
      obtain ⟨found, hfound, rfl⟩ := Option.map_eq_some_iff.mp h
      obtain ⟨htext, hbefore, hspelled, hlongest⟩ := ih hfound
      refine ⟨?_, List.forall_mem_cons.mpr ⟨hc, hbefore⟩, hspelled, hlongest⟩
      rw [htext]
      rfl

/-- **The search finds the first cut and nothing else.** -/
theorem find?_eq_some_iff : find? text = some m ↔ IsFirst text m :=
  ⟨isFirst_of_find?, IsFirst.find?_eq⟩

/-- There is only one first cut. -/
theorem IsFirst.eq {m' : Match} (h : IsFirst text m) (h' : IsFirst text m') : m = m' :=
  Option.some.inj (h.find?_eq.symm.trans h'.find?_eq)

theorem find?_eq_none_iff : find? text = none ↔ ∀ c ∈ text, isRelational c = false := by
  refine ⟨fun h => ?_, find?_eq_none⟩
  induction text with
  | nil => exact List.forall_mem_nil _
  | cons c rest ih =>
    cases hc : isRelational c with
    | true =>
      obtain ⟨s, hlongest⟩ := exists_longestAt?_of_isRelational hc rest
      rw [find?, hlongest] at h
      cases h
    | false =>
      rw [find?_cons_of_not_isRelational hc, Option.map_eq_none_iff] at h
      exact List.forall_mem_cons.mpr ⟨hc, ih h⟩

/-- The offsets of a cut fall between characters. -/
theorem IsFirst.isValid {text : String} (h : IsFirst text.toList m) :
    String.Pos.Raw.IsValid text ⟨m.start⟩ ∧ String.Pos.Raw.IsValid text ⟨m.start + m.size⟩ := by
  have htext : text = String.ofList m.before ++ (String.ofList m.spelling ++
      String.ofList m.after) := by
    rw [← String.toList_inj, h.eq_append]
    simp
  refine ⟨String.Pos.Raw.isValid_iff_exists_append.mpr ⟨_, _, htext, rfl⟩,
    String.Pos.Raw.isValid_iff_exists_append.mpr
      ⟨String.ofList m.before ++ String.ofList m.spelling, String.ofList m.after, ?_, ?_⟩⟩
  · rw [String.append_assoc]
    exact htext
  · rw [String.rawEndPos, String.utf8ByteSize_append]
    rfl

/-- **The search for a relation is leftmost and longest.** It comes back empty from a text without
characters of relations only. Otherwise the relation and the two offsets are those of the first cut,
of which there is one; the offsets fall between characters. -/
theorem leftmost_longest_relation (text : String) :
    (find? text.toList = none ↔ ∀ c ∈ text.toList, isRelational c = false) ∧
    (∀ (relation : Relation) (start size : ℕ),
      (find? text.toList).map (fun m => (m.relation, m.start, m.size)) =
          some (relation, start, size) ↔
        ∃ m, IsFirst text.toList m ∧ m.relation = relation ∧ m.start = start ∧ m.size = size) ∧
    ∀ m, IsFirst text.toList m →
      (String.Pos.Raw.IsValid text ⟨m.start⟩ ∧
        String.Pos.Raw.IsValid text ⟨m.start + m.size⟩) ∧
      ∀ m', IsFirst text.toList m' → m' = m := by
  refine ⟨find?_eq_none_iff, fun relation start size => ?_,
    fun m hm => ⟨hm.isValid, fun m' hm' => hm'.eq hm⟩⟩
  simp only [Option.map_eq_some_iff, find?_eq_some_iff, Prod.mk.injEq]

/-- Of `=>=` the first two characters are the relation. The minus before it has three bytes. -/
theorem leftmost_longest_relation_mixed :
    find? "\u22121 =>= x1".toList = some ⟨.atLeast, "\u22121 ".toList, "=>".toList, "= x1".toList⟩ ∧
      (String.Pos.Raw.IsValid "\u22121 =>= x1" ⟨5⟩ ∧
        String.Pos.Raw.IsValid "\u22121 =>= x1" ⟨7⟩) ∧
      ∀ m', IsFirst "\u22121 =>= x1".toList m' →
        m' = ⟨.atLeast, "\u22121 ".toList, "=>".toList, "= x1".toList⟩ := by
  have hfound : find? "\u22121 =>= x1".toList =
      some ⟨.atLeast, "\u22121 ".toList, "=>".toList, "= x1".toList⟩ := by decide
  exact ⟨hfound, (leftmost_longest_relation _).2.2 _ (find?_eq_some_iff.mp hfound)⟩

end Relation

end PrimalSimplex
