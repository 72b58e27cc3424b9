import Mathlib.Data.List.Forall2
import PrimalSimplex.Problem
import PrimalSimplex.Proofs.Meaning

/-!
# Lines and rows

The rows of a problem that is read mean what its lines say: each row is satisfied where the
constraint of its line is. The rows say no more than that when there is no tolerance, but for the
equations, of which a row keeps one direction only (`StandardForm.RowStates`).

The work is in knowing which line a row comes from. Every line that is not blank becomes an entry
(`readLines_iff`), and an entry becomes a row or a skipped line. As no two lines have the same
index, the lines that are not skipped are those that became rows, in the same order
(`Problem.forall₂_keptLines`).
-/

namespace PrimalSimplex

variable {F : Type}

/-! ## Lines and entries -/

/-- The lines that are not blank, trimmed and with their indices; the first line has the given
index. -/
def contentFrom (index : Nat) (lines : List String) : List (Nat × String) :=
  (lines.zipIdx index).filterMap fun (raw, i) =>
    if (Text.trim raw.toList).isEmpty then none else some (i, String.ofList (Text.trim raw.toList))

theorem contentFrom_cons_blank {raw : String} (h : (Text.trim raw.toList).isEmpty = true)
    (index : Nat) (lines : List String) :
    contentFrom index (raw :: lines) = contentFrom (index + 1) lines := by
  rw [contentFrom, List.zipIdx_cons]
  exact List.filterMap_cons_none (if_pos h)

theorem contentFrom_cons {raw : String} (h : (Text.trim raw.toList).isEmpty = false)
    (index : Nat) (lines : List String) :
    contentFrom index (raw :: lines) =
      (index, String.ofList (Text.trim raw.toList)) :: contentFrom (index + 1) lines := by
  rw [contentFrom, List.zipIdx_cons]
  exact List.filterMap_cons_some (if_neg (Bool.not_eq_true _ ▸ h))

/-- The index of a line determines the line. -/
theorem eq_of_mem_contentFrom {lines : List String} {i : Nat} {line line' : String}
    (h : (i, line) ∈ contentFrom 0 lines) (h' : (i, line') ∈ contentFrom 0 lines) :
    line = line' := by
  have hraw : ∀ {line}, (i, line) ∈ contentFrom 0 lines →
      ∃ raw, lines[i]? = some raw ∧ line = String.ofList (Text.trim raw.toList) := by
    intro line hline
    obtain ⟨⟨raw, k⟩, hmem, hsome⟩ := List.mem_filterMap.mp hline
    simp only [Option.ite_none_left_eq_some, Option.some.injEq, Prod.mk.injEq] at hsome
    obtain ⟨-, rfl, rfl⟩ := hsome
    exact ⟨raw, List.mk_mem_zipIdx_iff_getElem?.mp hmem, rfl⟩
  obtain ⟨raw, hget, rfl⟩ := hraw h
  obtain ⟨raw', hget', rfl⟩ := hraw h'
  rw [Option.some.inj (hget.symm.trans hget')]

namespace Entry

/-- The line of an entry and its index. -/
def numbered : Entry F → Nat × String
  | declaration index line | constraint index line _ => (index, line)

section

variable [Zero F] [One F] [Add F] [Sub F] [Neg F] [Finiteness F] [Numeral F]

/-- An entry is a declaration or else a constraint with finite numbers. -/
theorem read_eq_ok_iff {index : Nat} {line : String} {entry : Entry F} :
    read index line = .ok entry ↔
      declaresNonnegativity Float line = true ∧ entry = declaration index line ∨
        declaresNonnegativity Float line = false ∧
          ∃ c, Constraint.read line = .ok c ∧ c.allFinite = true ∧
            entry = constraint index line c := by
  constructor
  · intro h
    unfold read at h
    split_ifs at h with hdeclares
    · exact .inl ⟨hdeclares, (Except.ok.inj h).symm⟩
    · split at h
      · cases h
      · rename_i c hc
        split_ifs at h with hfinite
        exact .inr ⟨Bool.not_eq_true _ ▸ hdeclares, c, hc, hfinite, (Except.ok.inj h).symm⟩
  · rintro (⟨hdeclares, rfl⟩ | ⟨hdeclares, c, hc, hfinite, rfl⟩)
    · rw [read, if_pos hdeclares]
    · simp only [read, hdeclares, hc, hfinite, Bool.false_eq_true, if_false, if_true]

theorem numbered_of_read {index : Nat} {line : String} {entry : Entry F}
    (h : read index line = .ok entry) : entry.numbered = (index, line) := by
  rcases read_eq_ok_iff.mp h with ⟨-, rfl⟩ | ⟨-, c, -, -, rfl⟩ <;> rfl

end

section Rows

variable [Zero F] [Neg F] [LT F] [LE F] [DecidableLT F] [DecidableLE F] {n : Nat} {eps : F}

/-- An entry becomes a row or a skipped line. -/
theorem isSome_skipped? (n : Nat) (eps : F) (entry : Entry F) :
    (entry.skipped? n eps).isSome = !(entry.row? n eps).isSome := by
  cases entry with
  | declaration => rfl
  | constraint index line c =>
    simp only [skipped?, row?]
    split <;> rfl

theorem row?_eq_some_iff {entry : Entry F} {row : Row F} :
    entry.row? n eps = some row ↔
      ∃ index line c, entry = constraint index line c ∧ row = c.toRow n eps ∧
        row.FeasibleAtOrigin := by
  cases entry with
  | declaration => simp [row?]
  | constraint index line c =>
    simp only [row?, Option.ite_none_right_eq_some, Option.some.injEq, constraint.injEq]
    constructor
    · rintro ⟨hfeasible, rfl⟩
      exact ⟨index, line, c, ⟨rfl, rfl, rfl⟩, rfl, hfeasible⟩
    · rintro ⟨_, _, _, ⟨rfl, rfl, rfl⟩, rfl, hfeasible⟩
      exact ⟨hfeasible, rfl⟩

theorem index_of_skipped? {entry : Entry F} {s : Skipped} (h : entry.skipped? n eps = some s) :
    s.index = entry.numbered.1 := by
  cases entry with
  | declaration => cases h; rfl
  | constraint index line c =>
    simp only [skipped?] at h
    split at h <;> cases h
    rfl

end Rows

end Entry

section Lines

variable [Zero F] [One F] [Add F] [Sub F] [Neg F] [Finiteness F] [Numeral F]

/-- **The lines that are not blank become entries, one each.** -/
theorem readLines_iff {index : Nat} {lines : List String} {entries : List (Entry F)} :
    readLines index lines = ⟨entries, none⟩ ↔
      entries.map Entry.numbered = contentFrom index lines ∧
        ∀ entry ∈ entries, Entry.read entry.numbered.1 entry.numbered.2 = .ok entry := by
  induction lines generalizing index entries with
  | nil => cases entries <;> simp [readLines, contentFrom]
  | cons raw lines ih =>
    cases hblank : (Text.trim raw.toList).isEmpty with
    | true => simp only [readLines, hblank, if_true, contentFrom_cons_blank hblank, ih]
    | false =>
      rw [contentFrom_cons hblank]
      simp only [readLines, hblank, Bool.false_eq_true, if_false]
      rcases hentry : (Entry.read index (String.ofList (Text.trim raw.toList)) :
        Except _ (Entry F)) with e | head
      · -- the line has a fault, so no entry is read from it
        refine iff_of_false (by simp) ?_
        rintro ⟨hnumbered, hread⟩
        obtain ⟨entry, rest, rfl, hentry', -⟩ := List.map_eq_cons_iff.mp hnumbered
        have hok := hread entry List.mem_cons_self
        rw [hentry', hentry] at hok
        cases hok
      · have hhead := Entry.numbered_of_read hentry
        cases entries with
        | nil => simp
        | cons entry entries =>
          simp only [Reading.mk.injEq, List.cons.injEq, List.map_cons, List.forall_mem_cons,
            and_assoc]
          constructor
          · rintro ⟨rfl, hentries, hfailure⟩
            obtain ⟨hnumbered, hread⟩ := ih.mp (congrArg₂ Reading.mk hentries hfailure)
            exact ⟨hhead, hnumbered, by rw [hhead]; exact hentry, hread⟩
          · rintro ⟨hentry', hnumbered, hok, hread⟩
            have hrest := ih.mpr ⟨hnumbered, hread⟩
            rw [hentry', hentry] at hok
            exact ⟨Except.ok.inj hok, by rw [hrest], by rw [hrest]⟩

end Lines

/-! ## The whole problem -/

section Objectives

variable [Zero F] [One F] [Add F] [Neg F] [Numeral F]

theorem LinearExpression.readWithVariable_eq_ok_iff {text : String} {e : LinearExpression F} :
    readWithVariable text = .ok e ↔ read text = .ok e ∧ e.coefficients ≠ [] := by
  unfold readWithVariable
  cases (read text : Except _ (LinearExpression F)) with
  | error => simp
  | ok expression =>
    simp only [Except.ok.injEq]
    constructor
    · intro h
      split_ifs at h with hempty
      obtain rfl := Except.ok.inj h
      exact ⟨rfl, fun hnil => hempty (List.isEmpty_iff.mpr hnil)⟩
    · rintro ⟨rfl, hne⟩
      exact if_neg fun hempty => hne (List.isEmpty_iff.mp hempty)

/-- An objective function is read when it is to be maximised, and its text has a variable and no
constant. -/
theorem LinearExpression.readObjective_eq_ok_iff [BEq F] {text : String} {e : LinearExpression F} :
    readObjective text = .ok e ↔
      Objective.mentionsMinimum text.toList = false ∧
        ∃ expression terms, Objective.expression? text.toList = some expression ∧
          IsExpression expression terms ∧ e = expressionOf terms ∧ e.coefficients ≠ [] ∧
          (e.constant == 0) = true := by
  have hread : ∀ {cs : List Char}, readWithVariable (String.ofList cs) = .ok e ↔
      ∃ terms, IsExpression cs terms ∧ e = expressionOf terms ∧ e.coefficients ≠ [] := by
    intro cs
    rw [readWithVariable_eq_ok_iff, read_eq_ok_iff, String.toList_ofList]
    simp only [exists_and_right, ← and_assoc]
  constructor
  · intro h
    unfold readObjective at h
    split_ifs at h with hminimum
    refine ⟨Bool.not_eq_true _ ▸ hminimum, ?_⟩
    split at h
    · cases h
    · rename_i expression hexpression
      split at h
      · cases h
      · cases h
      · rename_i e' he
        split_ifs at h with hconstant
        obtain rfl := Except.ok.inj h
        obtain ⟨terms, hterms, heq, hne⟩ := hread.mp he
        exact ⟨expression, terms, hexpression, hterms, heq, hne, hconstant⟩
  · rintro ⟨hminimum, expression, terms, hexpression, hterms, heq, hne, hconstant⟩
    have he := hread.mpr ⟨terms, hterms, heq, hne⟩
    simp only [readObjective, hminimum, hexpression, he, hconstant, Bool.false_eq_true, if_false,
      if_true]

end Objectives

theorem StandardForm.ofRows_eq_ok_iff [Zero F] [LE F] [DecidableLE F] [Finiteness F] [Numeral F]
    {objective : List F} {rows : List (Row F)} {problem : StandardForm F} :
    ofRows objective rows = .ok problem ↔ problem = ⟨objective, rows⟩ ∧ problem.fault? = none := by
  rcases hfault : (⟨objective, rows⟩ : StandardForm F).fault? with - | fault
  · simp only [ofRows, hfault, Except.ok.injEq]
    exact ⟨fun h => ⟨h.symm, h ▸ hfault⟩, fun h => h.1.symm⟩
  · simp only [ofRows, hfault, reduceCtorEq, false_iff, not_and]
    rintro rfl
    simp [hfault]

namespace Problem

theorem variableCount_le_of_mem (objective : LinearExpression F) {entries : List (Entry F)}
    {entry : Entry F} (h : entry ∈ entries) :
    entry.variableCount ≤ variableCount objective entries :=
  (le_foldl_max _ _).2 _ (List.mem_map_of_mem h)

theorem objective_variableCount_le (objective : LinearExpression F) (entries : List (Entry F)) :
    objective.variableCount ≤ variableCount objective entries :=
  (le_foldl_max _ _).1

section Inversion

variable [Zero F] [One F] [Add F] [Sub F] [Neg F] [LT F] [LE F] [DecidableLT F] [DecidableLE F]
  [BEq F] [Finiteness F] [Numeral F]

/-- The problem that the entries make up, whether it has a fault or not. -/
def assemble (objective : LinearExpression F) (entries : List (Entry F)) (eps : F) : Problem F :=
  let n := variableCount objective entries
  ⟨⟨padTo n objective.coefficients, entries.filterMap (Entry.row? n eps)⟩,
    entries.filterMap (Entry.skipped? n eps)⟩

/-- Reading a problem: its objective function, its lines, and the check of what they make up. -/
theorem read_eq_ok_iff {objective : String} {lines : List String} {eps : F} {problem : Problem F} :
    read objective lines eps = .ok problem ↔
      ∃ e entries, LinearExpression.readObjective objective = .ok e ∧
        readLines 0 lines = ⟨entries, none⟩ ∧ problem = assemble e entries eps ∧
        problem.standardForm.fault? = none := by
  simp only [read, bind_eq_ok_iff]
  refine exists_congr fun e => ?_
  rcases hreading : (readLines 0 lines : Reading F) with ⟨entries, failure⟩
  cases failure with
  | some fault => simp
  | none =>
    simp only [ofEntries, map_eq_ok_iff, StandardForm.ofRows_eq_ok_iff, Reading.mk.injEq, and_true]
    constructor
    · rintro ⟨he, _, ⟨rfl, hfault⟩, rfl⟩
      exact ⟨entries, he, rfl, rfl, hfault⟩
    · rintro ⟨_, he, rfl, rfl, hfault⟩
      exact ⟨he, _, ⟨rfl, hfault⟩, rfl⟩

end Inversion

/-! ## Kept lines and rows -/

/-- The lines that are neither blank nor skipped. -/
def keptLines (problem : Problem F) (lines : List String) : List String :=
  (contentFrom 0 lines).filterMap fun (i, line) =>
    if i ∈ problem.skipped.map Skipped.index then none else some line

/-- Two selections from a list that select the same places correspond to each other. -/
theorem forall₂_filterMap {α β γ : Type} {l : List α} {f : α → Option β} {g : α → Option γ}
    (h : ∀ a ∈ l, (f a).isSome = (g a).isSome) :
    List.Forall₂ (fun b c => ∃ a ∈ l, f a = some b ∧ g a = some c) (l.filterMap f)
      (l.filterMap g) := by
  induction l with
  | nil => exact .nil
  | cons a l ih =>
    obtain ⟨ha, hl⟩ := List.forall_mem_cons.mp h
    have hrest := (ih hl).imp fun b c ⟨a', ha', hbc⟩ =>
      (⟨a', List.mem_cons_of_mem a ha', hbc⟩ : ∃ a' ∈ a :: l, f a' = some b ∧ g a' = some c)
    rcases hf : f a with - | b <;> rcases hg : g a with - | c
    · rwa [List.filterMap_cons_none hf, List.filterMap_cons_none hg]
    · rw [hf, hg] at ha
      cases ha
    · rw [hf, hg] at ha
      cases ha
    · rw [List.filterMap_cons_some hf, List.filterMap_cons_some hg]
      exact .cons ⟨a, List.mem_cons_self, hf, hg⟩ hrest

section Kept

variable [Zero F] [One F] [Add F] [Sub F] [Neg F] [LT F] [LE F] [DecidableLT F] [DecidableLE F]
  [Finiteness F] [Numeral F] {lines : List String} {entries : List (Entry F)}

omit [LT F] [LE F] [DecidableLT F] [DecidableLE F] in
/-- The index of an entry determines the entry. -/
theorem eq_of_numbered_eq (h : readLines 0 lines = ⟨entries, none⟩) {entry entry' : Entry F}
    (hentry : entry ∈ entries) (hentry' : entry' ∈ entries)
    (heq : entry.numbered.1 = entry'.numbered.1) : entry = entry' := by
  obtain ⟨hnumbered, hread⟩ := readLines_iff.mp h
  have hmem : ∀ {e}, e ∈ entries → e.numbered ∈ contentFrom 0 lines := fun he =>
    hnumbered ▸ List.mem_map_of_mem he
  have hok := hread entry hentry
  have hok' := hread entry' hentry'
  rcases hn : entry.numbered with ⟨i, line⟩
  rcases hn' : entry'.numbered with ⟨i', line'⟩
  obtain rfl : i = i' := by rw [hn, hn'] at heq; exact heq
  obtain rfl : line = line' := eq_of_mem_contentFrom (hn ▸ hmem hentry) (hn' ▸ hmem hentry')
  rw [hn] at hok
  rw [hn', hok] at hok'
  exact Except.ok.inj hok'

/-- Whether a line is skipped is decided by its entry alone. -/
theorem mem_skipped_iff (h : readLines 0 lines = ⟨entries, none⟩) {entry : Entry F}
    (hentry : entry ∈ entries) {s : Skipped} (hindex : s.index = entry.numbered.1) (n : Nat)
    (eps : F) :
    s ∈ entries.filterMap (Entry.skipped? n eps) ↔ entry.skipped? n eps = some s := by
  constructor
  · intro hmem
    obtain ⟨entry', hentry', hskipped⟩ := List.mem_filterMap.mp hmem
    obtain rfl := eq_of_numbered_eq h hentry hentry'
      (hindex.symm.trans (Entry.index_of_skipped? hskipped))
    exact hskipped
  · intro hskipped
    exact List.mem_filterMap.mpr ⟨entry, hentry, hskipped⟩

/-- The lines that are skipped are those of the entries that become no row. -/
theorem index_mem_skipped_iff (h : readLines 0 lines = ⟨entries, none⟩) {entry : Entry F}
    (hentry : entry ∈ entries) (n : Nat) (eps : F) :
    entry.numbered.1 ∈ (entries.filterMap (Entry.skipped? n eps)).map Skipped.index ↔
      (entry.row? n eps).isSome = false := by
  have hsome := entry.isSome_skipped? n eps
  constructor
  · intro hmem
    obtain ⟨s, hs, hindex⟩ := List.mem_map.mp hmem
    rw [(mem_skipped_iff h hentry hindex n eps).mp hs] at hsome
    simpa using hsome
  · intro hrow
    rw [hrow, Bool.not_false, Option.isSome_iff_exists] at hsome
    obtain ⟨s, hs⟩ := hsome
    exact List.mem_map.mpr ⟨s, List.mem_filterMap.mpr ⟨entry, hentry, hs⟩,
      Entry.index_of_skipped? hs⟩

/-- **The lines that are kept are those that became rows**, in the same order. -/
theorem forall₂_keptLines (h : readLines 0 lines = ⟨entries, none⟩) (objective : LinearExpression F)
    (eps : F) :
    List.Forall₂
      (fun line row => ∃ entry ∈ entries, entry.numbered.2 = line ∧
        entry.row? (variableCount objective entries) eps = some row)
      ((assemble objective entries eps).keptLines lines)
      (assemble objective entries eps).standardForm.constraints := by
  obtain ⟨hnumbered, -⟩ := readLines_iff.mp h
  rw [keptLines, ← hnumbered, List.filterMap_map]
  refine (forall₂_filterMap fun entry hentry => ?_).imp fun line row => ?_
  · have hskipped := index_mem_skipped_iff h hentry (variableCount objective entries) eps
    simp only [Function.comp_apply]
    split
    · rename_i hmem
      rw [hskipped.mp hmem]
      rfl
    · rename_i hmem
      rw [eq_true_of_ne_false fun hrow => hmem (hskipped.mpr hrow)]
      rfl
  · rintro ⟨entry, hentry, hline, hrow⟩
    simp only [Function.comp, Option.ite_none_left_eq_some, Option.some.injEq] at hline
    exact ⟨entry, hentry, hline.2, hrow⟩

end Kept

end Problem

/-! ## Meaning -/

section Meaning

variable [Field F] [LinearOrder F] [IsStrictOrderedRing F]

omit [LinearOrder F] [IsStrictOrderedRing F] in
/-- The value of a row that is as wide as the problem. -/
theorem StandardForm.rowAt_eq_weightedSum {problem : StandardForm F} {i : Nat} {row : Row F}
    (hrow : problem.constraints[i]? = some row)
    (hwidth : row.coefficients.length = problem.variableCount) (x : Nat → F) :
    problem.rowAt i x = weightedSum row.coefficients x := by
  obtain ⟨hi, rfl⟩ := List.getElem?_eq_some_iff.mp hrow
  rw [weightedSum, hwidth, rowAt]
  exact Finset.sum_congr rfl fun j _ => by rw [coefficient_of_lt problem hi]

/-- A row states what a line says: it is satisfied where the constraint of the line holds, and
without a tolerance only where the relaxed constraint holds. -/
structure StandardForm.RowStates (problem : StandardForm F) (eps : F) (i : Nat) (line : String) :
    Prop where
  /-- the line is a constraint -/
  isConstraint : ∃ written, IsConstraint line.toList written
  /-- the row is satisfied where the constraint holds -/
  rowAt_le : ∀ written, IsConstraint line.toList written → ∀ x : Nat → F, written.HoldsAt x →
    problem.rowAt i x ≤ problem.bound i
  /-- without a tolerance it is satisfied nowhere else, but for the direction of an equation that
  is given up -/
  rowAt_le_iff : eps = 0 → ∀ written, IsConstraint line.toList written → ∀ x : Nat → F,
    (problem.rowAt i x ≤ problem.bound i ↔ written.relaxed.HoldsAt x)

variable [Finiteness F] [Numeral F] [ExactNumeral F]

omit [Finiteness F] in
/-- The row of a line states what the line says. -/
theorem StandardForm.rowStates_of_toRow {problem : StandardForm F} {eps : F} {i : Nat}
    {line : String} {c : Constraint F} (hc : Constraint.read line = .ok c)
    (hwidth : c.variableCount ≤ problem.variableCount)
    (hrow : problem.constraints[i]? = some (c.toRow problem.variableCount eps)) :
    problem.RowStates eps i line := by
  have hrowAt := rowAt_eq_weightedSum hrow (c.length_toRow eps hwidth)
  have hbound : problem.bound i = (c.toRow problem.variableCount eps).rhs := by
    obtain ⟨hi, hget⟩ := List.getElem?_eq_some_iff.mp hrow
    rw [bound_of_lt problem hi, hget]
  have hexcess : ∀ written, IsConstraint line.toList written → ∀ x : Nat → F,
      c.excessAt x = written.excessAt x := by
    intro written hwritten x
    rw [hwritten.eq_of_read hc, Constraint.excessAt_constraint]
  constructor
  · obtain ⟨written, hwritten, -⟩ := Constraint.read_eq_ok_iff.mp hc
    exact ⟨written, hwritten⟩
  · intro written hwritten x hx
    rw [hrowAt, hbound]
    refine Constraint.weightedSum_toRow_le eps hwidth ?_
    rw [hexcess written hwritten]
    exact WrittenConstraint.excessAt_nonpos hx
  · rintro rfl written hwritten x
    rw [hrowAt, hbound, Constraint.weightedSum_toRow_le_iff hwidth, hexcess written hwritten,
      written.holdsAt_relaxed_iff]

namespace Problem

variable {lines : List String} {e : LinearExpression F} {entries : List (Entry F)} {eps : F}

/-- A row states what the line says that it comes from. -/
theorem rowStates_assemble (hlines : readLines 0 lines = ⟨entries, none⟩)
    (e : LinearExpression F) (eps : F) {i : Nat} {line : String}
    (hline : ((assemble e entries eps).keptLines lines)[i]? = some line) :
    (assemble e entries eps).standardForm.RowStates eps i line := by
  have hkept := forall₂_keptLines hlines e eps
  have hn : (assemble e entries eps).standardForm.variableCount = variableCount e entries :=
    length_padTo (objective_variableCount_le e entries)
  obtain ⟨hi, rfl⟩ := List.getElem?_eq_some_iff.mp hline
  have hi' : i < (assemble e entries eps).standardForm.constraints.length := by
    rwa [← hkept.length_eq]
  obtain ⟨entry, hentry, hnumber, hrow⟩ := hkept.get hi hi'
  obtain ⟨k, line, c, rfl, hget, -⟩ := Entry.row?_eq_some_iff.mp hrow
  -- an entry that becomes a row is not a declaration
  rcases Entry.read_eq_ok_iff.mp ((readLines_iff.mp hlines).2 _ hentry) with
    ⟨-, hdeclaration⟩ | ⟨-, c', hc, -, hconstraint⟩
  · cases hdeclaration
  · cases hconstraint
    rw [List.get_eq_getElem] at hnumber hget
    rw [← hnumber]
    refine StandardForm.rowStates_of_toRow hc ?_ ?_
    · rw [hn]
      exact variableCount_le_of_mem e hentry
    · rw [List.getElem?_eq_getElem hi', hget, hn]

/-- A constraint is skipped when the origin violates it. -/
theorem mem_skipped_assemble_iff (hlines : readLines 0 lines = ⟨entries, none⟩) (heps : 0 ≤ eps)
    (e : LinearExpression F) {i : Nat} {line : String} (hline : (i, line) ∈ contentFrom 0 lines)
    (hdeclares : declaresNonnegativity Float line = false) :
    (∃ written, IsConstraint line.toList written) ∧
      ∀ written, IsConstraint line.toList written →
        (⟨i, line, .infeasibleAtOrigin⟩ ∈ (assemble e entries eps).skipped ↔
          written.IsViolatedAtOrigin eps) := by
  obtain ⟨hnumbered, hentries⟩ := readLines_iff.mp hlines
  rw [← hnumbered] at hline
  obtain ⟨entry, hentry, hnumber⟩ := List.mem_map.mp hline
  have hok := hentries entry hentry
  rw [hnumber] at hok
  rcases Entry.read_eq_ok_iff.mp hok with ⟨hdeclares', -⟩ | ⟨-, c, hc, -, rfl⟩
  · rw [hdeclares] at hdeclares'
    cases hdeclares'
  · refine ⟨(Constraint.read_eq_ok_iff.mp hc).imp fun written h => h.1, ?_⟩
    intro written hwritten
    rw [written.isViolatedAtOrigin_iff, ← Constraint.excessAt_constraint,
      ← hwritten.eq_of_read hc, ← not_le,
      ← Constraint.feasibleAtOrigin_toRow_iff (n := variableCount e entries) heps]
    refine (mem_skipped_iff hlines hentry rfl _ eps).trans ?_
    simp only [Entry.skipped?, Option.ite_none_left_eq_some, and_true]

end Problem

end Meaning

end PrimalSimplex
