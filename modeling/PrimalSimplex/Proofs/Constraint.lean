import PrimalSimplex.Constraint
import PrimalSimplex.Proofs.Grammar

/-!
# The grammar of constraints

    constraint := expression relation expression

Written like this the grammar says nothing about where a text is to be cut, and it does not have to:
the characters of a relation do not occur in an expression, so a text has one cut at most whose two
sides are expressions. It is the cut that `Relation.find?` makes, at the leftmost relation and after
its longest spelling. A shorter spelling would leave a character of the relation to the right hand
side.

So a constraint is read exactly when it follows the grammar and has a variable
(`Constraint.read_eq_ok_iff`).
-/

namespace PrimalSimplex

/-- An expression has no other characters than its tokens and white space. -/
theorem IsExpression.isTokenChar {cs : List Char} {terms : List WrittenTerm}
    (h : IsExpression cs terms) {c : Char} (hc : c ∈ cs) : Token.isTokenChar c = true := by
  obtain ⟨kinds, hsplits, -⟩ := h.spelled
  exact hsplits.isTokenChar hc

/-- There is no comma in an expression. -/
theorem IsExpression.comma_not_mem {cs : List Char} {terms : List WrittenTerm}
    (h : IsExpression cs terms) : ',' ∉ cs := fun hcomma =>
  absurd (h.isTokenChar hcomma) (by decide)

namespace Relation

/-! ## Characters of relations -/

/-- Whether a character is part of a relation. -/
def isRelational (c : Char) : Bool :=
  c == '=' || c == '<' || c == '>' || c == '\u2264' || c == '\u2265'

theorem isRelational_iff {c : Char} :
    isRelational c = true ↔ c = '=' ∨ c = '<' ∨ c = '>' ∨ c = '\u2264' ∨ c = '\u2265' := by
  simp [isRelational, or_assoc]

/-- There is no relation in an expression. -/
theorem isRelational_of_mem_isExpression {cs : List Char} {terms : List WrittenTerm}
    (h : IsExpression cs terms) {c : Char} (hc : c ∈ cs) : isRelational c = false := by
  by_contra hrelational
  have htoken := h.isTokenChar hc
  rcases isRelational_iff.mp (eq_true_of_ne_false hrelational) with rfl | rfl | rfl | rfl | rfl <;>
    exact absurd htoken (by decide)

/-! ## The cut at a relation -/

theorem mem_allSpellings {relation : Relation} {spelling : List Char} :
    (relation, spelling) ∈ allSpellings ↔ ∃ s ∈ relation.spellings, s.toList = spelling := by
  cases relation <;> simp [allSpellings, all, eq_comm]

/-- The spellings are not empty and consist of relational characters. -/
theorem isRelational_of_mem_allSpellings : ∀ s ∈ allSpellings,
    s.2 ≠ [] ∧ ∀ c ∈ s.2, isRelational c = true := by
  have hall : (allSpellings.all fun s => !s.2.isEmpty && s.2.all isRelational) = true := by decide
  simpa using hall

/-- What follows a text does not matter to a spelling in front of it, unless it is relational. -/
theorem isPrefixOf_append {spelling cs rest : List Char}
    (hspelling : ∀ c ∈ spelling, isRelational c = true)
    (hrest : ∀ c ∈ rest.head?, isRelational c = false) :
    spelling.isPrefixOf (cs ++ rest) = spelling.isPrefixOf cs := by
  induction spelling generalizing cs with
  | nil => simp
  | cons c spelling ih =>
    obtain ⟨hc, hspelling⟩ := List.forall_mem_cons.mp hspelling
    cases cs with
    | cons d cs =>
      rw [List.cons_append, List.isPrefixOf_cons_cons, List.isPrefixOf_cons_cons, ih hspelling]
    | nil =>
      cases rest with
      | nil => rfl
      | cons d rest =>
        have hne : (c == d) = false := by
          rw [beq_eq_false_iff_ne]
          rintro rfl
          exact absurd hc (by rw [hrest c rfl]; decide)
        rw [List.nil_append, List.isPrefixOf_cons_cons, hne, Bool.false_and]
        rfl

theorem longestAt?_append {cs rest : List Char}
    (hrest : ∀ c ∈ rest.head?, isRelational c = false) :
    longestAt? (cs ++ rest) = longestAt? cs := by
  have hfilter : (allSpellings.filter fun s => s.2.isPrefixOf (cs ++ rest)) =
      allSpellings.filter fun s => s.2.isPrefixOf cs :=
    List.filter_congr fun s hs =>
      isPrefixOf_append (isRelational_of_mem_allSpellings s hs).2 hrest
  rw [longestAt?, hfilter, longestAt?]

/-- Each spelling is the longest one at its own front. -/
theorem longestAt?_spelling : ∀ s ∈ allSpellings, longestAt? s.2 = some s := by
  decide

theorem find?_cons_of_not_isRelational {c : Char} {rest : List Char}
    (hc : isRelational c = false) :
    find? (c :: rest) = (find? rest).map fun m => { m with before := c :: m.before } := by
  have hnone : longestAt? ([] ++ c :: rest) = none :=
    longestAt?_append fun d hd => by obtain rfl := Option.some.inj hd; exact hc
  rw [List.nil_append] at hnone
  rw [find?, hnone]

/-- **A text is cut at a relation** when there is none before it and it does not go on. -/
theorem find?_append {relation : Relation} {before spelling after : List Char}
    (hbefore : ∀ c ∈ before, isRelational c = false)
    (hspelling : (relation, spelling) ∈ allSpellings)
    (hafter : ∀ c ∈ after.head?, isRelational c = false) :
    find? (before ++ spelling ++ after) = some ⟨relation, before, spelling, after⟩ := by
  induction before with
  | nil =>
    have hlongest : longestAt? (spelling ++ after) = some (relation, spelling) := by
      rw [longestAt?_append hafter]
      exact longestAt?_spelling _ hspelling
    obtain ⟨c, rest, rfl⟩ :=
      List.exists_cons_of_ne_nil (isRelational_of_mem_allSpellings _ hspelling).1
    rw [List.cons_append] at hlongest
    simp only [List.nil_append, List.cons_append, find?, hlongest]
    rw [← List.cons_append, List.drop_left]
  | cons c before ih =>
    obtain ⟨hc, hbefore⟩ := List.forall_mem_cons.mp hbefore
    rw [List.cons_append, List.cons_append, find?_cons_of_not_isRelational hc, ih hbefore]
    rfl

/-- A text without relational characters is not cut. -/
theorem find?_eq_none {cs : List Char} (h : ∀ c ∈ cs, isRelational c = false) :
    find? cs = none := by
  induction cs with
  | nil => rfl
  | cons c cs ih =>
    obtain ⟨hc, hcs⟩ := List.forall_mem_cons.mp h
    rw [find?_cons_of_not_isRelational hc, ih hcs]
    rfl

/-- The longer of some spellings is one of them. -/
theorem foldl_longer_mem (spellings : List (Relation × List Char)) (s : Relation × List Char) :
    spellings.foldl longer s ∈ s :: spellings := by
  induction spellings generalizing s with
  | nil => exact List.mem_singleton_self s
  | cons next spellings ih =>
    rw [List.foldl_cons]
    rcases List.mem_cons.mp (ih (longer s next)) with heq | hmem
    · rw [heq, longer]
      split <;> simp
    · exact List.mem_cons_of_mem _ (List.mem_cons_of_mem _ hmem)

theorem mem_of_longestAt? {cs : List Char} {s : Relation × List Char}
    (h : longestAt? cs = some s) : s ∈ allSpellings ∧ s.2 <+: cs := by
  unfold longestAt? at h
  split at h
  · cases h
  · rename_i first rest hfilter
    obtain rfl := Option.some.inj h
    have hmem := foldl_longer_mem rest first
    rw [← hfilter] at hmem
    obtain ⟨hmem, hprefix⟩ := List.mem_filter.mp hmem
    exact ⟨hmem, List.isPrefixOf_iff_prefix.mp hprefix⟩

/-- The pieces of a text that is cut make up the text. -/
theorem eq_append_of_find? {cs : List Char} {m : Match} (h : find? cs = some m) :
    (m.relation, m.spelling) ∈ allSpellings ∧ cs = m.before ++ m.spelling ++ m.after := by
  induction cs generalizing m with
  | nil => cases h
  | cons c rest ih =>
    unfold find? at h
    split at h
    · rename_i relation spelling hlongest
      obtain rfl := Option.some.inj h
      obtain ⟨hmem, after, hafter⟩ := mem_of_longestAt? hlongest
      refine ⟨hmem, ?_⟩
      simp [← hafter]
    · obtain ⟨found, hfound, rfl⟩ := Option.map_eq_some_iff.mp h
      obtain ⟨hmem, hrest⟩ := ih hfound
      exact ⟨hmem, congrArg (c :: ·) hrest⟩

end Relation

/-! ## Constraints -/

/-- A constraint as it is written. -/
structure WrittenConstraint where
  /-- the terms before the relation -/
  left : List WrittenTerm
  /-- the relation -/
  relation : Relation
  /-- the terms after the relation -/
  right : List WrittenTerm

/-- The text is a constraint with the given sides. -/
def IsConstraint (cs : List Char) (written : WrittenConstraint) : Prop :=
  ∃ before after, IsExpression before written.left ∧ IsExpression after written.right ∧
    ∃ spelling ∈ written.relation.spellings, cs = before ++ spelling.toList ++ after

/-- There is no comma in a constraint. -/
theorem IsConstraint.comma_not_mem {cs : List Char} {written : WrittenConstraint}
    (h : IsConstraint cs written) : ',' ∉ cs := by
  obtain ⟨before, after, hbefore, hafter, spelling, hspelling, rfl⟩ := h
  have hrelational := (Relation.isRelational_of_mem_allSpellings _
    (Relation.mem_allSpellings.mpr ⟨spelling, hspelling, rfl⟩)).2
  intro hcomma
  rcases List.mem_append.mp hcomma with hcomma | hcomma
  · rcases List.mem_append.mp hcomma with hcomma | hcomma
    · exact hbefore.comma_not_mem hcomma
    · exact absurd (hrelational ',' hcomma) (by decide)
  · exact hafter.comma_not_mem hcomma

/-- A constraint is cut at its relation. -/
theorem IsConstraint.find?_eq {cs : List Char} {written : WrittenConstraint}
    (h : IsConstraint cs written) :
    ∃ found, Relation.find? cs = some found ∧ found.relation = written.relation ∧
      IsExpression found.before written.left ∧ IsExpression found.after written.right := by
  obtain ⟨before, after, hbefore, hafter, spelling, hspelling, rfl⟩ := h
  refine ⟨⟨written.relation, before, spelling.toList, after⟩, ?_, rfl, hbefore, hafter⟩
  refine Relation.find?_append (fun c hc => Relation.isRelational_of_mem_isExpression hbefore hc)
    (Relation.mem_allSpellings.mpr ⟨spelling, hspelling, rfl⟩) fun c hc => ?_
  exact Relation.isRelational_of_mem_isExpression hafter (List.mem_of_mem_head? hc)

section Reading

variable {F : Type} [Zero F] [One F] [Add F] [Sub F] [Neg F] [Numeral F]

/-- The constraint that is read. -/
def WrittenConstraint.constraint (written : WrittenConstraint) : Constraint F :=
  .between (expressionOf written.left) written.relation (expressionOf written.right)

omit [One F] [Add F] [Neg F] [Numeral F] in
theorem Constraint.length_between (left : LinearExpression F) (relation : Relation)
    (right : LinearExpression F) :
    (between left relation right).coefficients.length =
      max left.coefficients.length right.coefficients.length := by
  simp only [between, LinearExpression.variableCount]
  rw [List.length_zipWith, length_padTo (Nat.le_max_left _ _), length_padTo (Nat.le_max_right _ _),
    Nat.min_self]

omit [One F] [Add F] [Neg F] [Numeral F] in
theorem Constraint.isEmpty_between (left : LinearExpression F) (relation : Relation)
    (right : LinearExpression F) :
    (left.coefficients.isEmpty && right.coefficients.isEmpty) =
      (between left relation right).coefficients.isEmpty := by
  rw [Bool.eq_iff_iff, Bool.and_eq_true, List.isEmpty_iff_length_eq_zero,
    List.isEmpty_iff_length_eq_zero, List.isEmpty_iff_length_eq_zero, length_between]
  omega

/-- What reading makes of a text that follows the grammar. -/
theorem IsConstraint.read_eq {text : String} {written : WrittenConstraint}
    (h : IsConstraint text.toList written) :
    Constraint.read (F := F) text =
      if written.constraint (F := F).coefficients = [] then .error (.noVariable text)
      else .ok written.constraint := by
  obtain ⟨found, hfound, hrelation, hbefore, hafter⟩ := h.find?_eq
  have hread : ∀ {cs terms}, IsExpression cs terms →
      LinearExpression.read (F := F) (String.ofList cs) = .ok (expressionOf terms) :=
    fun hcs => LinearExpression.read_eq_ok_iff.mpr ⟨_, by rwa [String.toList_ofList], rfl⟩
  rw [Constraint.read, hfound]
  simp only [hread hbefore, hread hafter, hrelation, bind, Except.bind]
  rw [Constraint.isEmpty_between _ written.relation]
  exact if_congr List.isEmpty_iff rfl rfl

/-- **A constraint is read exactly when it follows the grammar and has a variable.** -/
theorem Constraint.read_eq_ok_iff {text : String} {c : Constraint F} :
    Constraint.read text = .ok c ↔
      ∃ written, IsConstraint text.toList written ∧ c = written.constraint ∧
        c.coefficients ≠ [] := by
  constructor
  · intro h
    unfold Constraint.read at h
    split at h
    · cases h
    · rename_i found hfound
      obtain ⟨left, hleft, h⟩ := bind_eq_ok_iff.mp h
      obtain ⟨right, hright, h⟩ := bind_eq_ok_iff.mp h
      rw [isEmpty_between left found.relation right] at h
      split_ifs at h with hempty
      obtain rfl := Except.ok.inj h
      obtain ⟨before, hbefore, rfl⟩ := LinearExpression.read_eq_ok_iff.mp hleft
      obtain ⟨after, hafter, rfl⟩ := LinearExpression.read_eq_ok_iff.mp hright
      rw [String.toList_ofList] at hbefore hafter
      obtain ⟨hmem, hcut⟩ := Relation.eq_append_of_find? hfound
      obtain ⟨spelling, hspelling, heq⟩ := Relation.mem_allSpellings.mp hmem
      refine ⟨⟨before, found.relation, after⟩, ⟨_, _, hbefore, hafter, spelling, hspelling, ?_⟩,
        rfl, fun hnil => hempty (List.isEmpty_iff.mpr hnil)⟩
      rw [heq, hcut]
  · rintro ⟨written, hwritten, rfl, hne⟩
    rw [hwritten.read_eq, if_neg hne]

/-- However a text is taken to follow the grammar, it is read as the same constraint. -/
theorem IsConstraint.eq_of_read {text : String} {written : WrittenConstraint} {c : Constraint F}
    (h : IsConstraint text.toList written) (hread : Constraint.read text = .ok c) :
    c = written.constraint := by
  rw [h.read_eq] at hread
  split_ifs at hread
  exact (Except.ok.inj hread).symm

end Reading

end PrimalSimplex
