import PrimalSimplex.Proofs.Reading

/-!
# Where the lines of a problem go

Lines are read in one pass and sorted into rows and skipped lines in another, since the width of a
row is not known before the last line has been read. No line gets lost on the way:

* the skipped lines and the lines of the rows together are the lines that are not blank, each of
  them once, and both are in the order of the lines (`Problem.AccountsFor`);
* a faulty line is not passed over, and of several the first one is reported
  (`failure_readLines_of_isFaultOf`).

Both passes walk over the same entries, and each entry becomes a row or a skipped line. So the lines
are divided by a test on entries, and a list is a permutation of what a test selects from it and
what it leaves. The arithmetic plays no role.
-/

namespace PrimalSimplex

variable {F : Type}

/-! ## Lines that are not blank -/

/-- The lines that are not blank, by their indices. -/
theorem mem_contentFrom_iff {lines : List String} {i : Nat} {line : String} :
    (i, line) ∈ contentFrom 0 lines ↔
      ∃ raw, lines[i]? = some raw ∧ Text.trim raw.toList = line.toList ∧ line ≠ "" := by
  rw [contentFrom, List.mem_filterMap]
  simp only [Prod.exists, List.mk_mem_zipIdx_iff_getElem?, Option.ite_none_left_eq_some,
    Option.some.injEq, Prod.mk.injEq, List.isEmpty_iff]
  constructor
  · rintro ⟨raw, _, hraw, hne, rfl, rfl⟩
    refine ⟨raw, hraw, String.toList_ofList.symm, fun hempty => hne ?_⟩
    rw [← String.toList_ofList (l := Text.trim raw.toList), hempty]
    rfl
  · rintro ⟨raw, hraw, htrim, hne⟩
    refine ⟨raw, i, hraw, fun hnil => hne ?_, rfl, ?_⟩
    · rw [← String.ofList_toList (s := line), ← htrim, hnil]
    · rw [htrim, String.ofList_toList]

/-- They are in the order of their indices. -/
theorem pairwise_contentFrom (index : Nat) (lines : List String) :
    (contentFrom index lines).Pairwise fun a b => a.1 < b.1 := by
  have hindices : (lines.zipIdx index).Pairwise fun a b => a.2 < b.2 := by
    rw [← List.pairwise_map, List.zipIdx_map_snd]
    exact List.pairwise_lt_range'
  rw [contentFrom, List.pairwise_filterMap]
  refine hindices.imp fun {a b} hlt x hx y hy => ?_
  simp only [Option.ite_none_left_eq_some, Option.some.injEq] at hx hy
  rw [← hx.2, ← hy.2]
  exact hlt

/-! ## Faulty lines -/

section Faults

variable (F) [Zero F] [One F] [Add F] [Sub F] [Neg F] [Finiteness F] [Numeral F]

/-- What is wrong with a line that is not blank. A declaration is never faulty. -/
inductive IsFaultOf (line : String) : ProblemError → Prop where
  /-- the line cannot be read -/
  | unreadable {e : ParseError} :
      declaresNonnegativity Float line = false →
        (Constraint.read line : Except ParseError (Constraint F)) = .error e →
        IsFaultOf line (.parse line e)
  /-- the line can be read, but a number of it is not finite -/
  | tooLarge {c : Constraint F} :
      declaresNonnegativity Float line = false → Constraint.read line = .ok c →
        c.allFinite = false → IsFaultOf line (.formulation (.tooLarge line))

variable {F}

/-- The fault of a line is what reading it reports. -/
theorem Entry.read_eq_error_iff {index : Nat} {line : String} {fault : ProblemError} :
    (read index line : Except ProblemError (Entry F)) = .error fault ↔ IsFaultOf F line fault := by
  constructor
  · intro h
    unfold read at h
    split_ifs at h with hdeclares
    rw [Bool.not_eq_true] at hdeclares
    split at h
    · rename_i e he
      obtain rfl := Except.error.inj h
      exact .unreadable hdeclares he
    · rename_i c hc
      split_ifs at h with hfinite
      obtain rfl := Except.error.inj h
      exact .tooLarge hdeclares hc (Bool.not_eq_true _ ▸ hfinite)
  · rintro (⟨hdeclares, he⟩ | ⟨hdeclares, hc, hfinite⟩)
    · simp only [read, hdeclares, he, Bool.false_eq_true, if_false]
    · simp only [read, hdeclares, hc, hfinite, Bool.false_eq_true, if_false]

/-- **The first faulty line is reported.** -/
theorem failure_readLines_of_isFaultOf {index : Nat} {lines : List String}
    {before after : List (Nat × String)} {i : Nat} {line : String} {fault : ProblemError}
    (hlines : contentFrom index lines = before ++ (i, line) :: after)
    (hbefore : ∀ earlier ∈ before, ∀ fault, ¬IsFaultOf F earlier.2 fault)
    (hfault : IsFaultOf F line fault) :
    (readLines index lines : Reading F).failure = some fault := by
  induction lines generalizing index before with
  | nil => exact absurd hlines.symm (List.append_ne_nil_of_right_ne_nil _ (List.cons_ne_nil _ _))
  | cons raw lines ih =>
    cases hblank : (Text.trim raw.toList).isEmpty with
    | true =>
      rw [contentFrom_cons_blank hblank] at hlines
      simp only [readLines, hblank, if_true]
      exact ih hlines hbefore
    | false =>
      rw [contentFrom_cons hblank] at hlines
      simp only [readLines, hblank, Bool.false_eq_true, if_false]
      cases before with
      | nil =>
        obtain ⟨hline, -⟩ := List.cons.inj hlines
        obtain ⟨rfl, rfl⟩ := Prod.mk.inj hline
        rw [Entry.read_eq_error_iff.mpr hfault]
      | cons earlier before =>
        obtain ⟨rfl, hrest⟩ := List.cons.inj hlines
        obtain ⟨hearlier, hbefore⟩ := List.forall_mem_cons.mp hbefore
        rcases hentry : (Entry.read index (String.ofList (Text.trim raw.toList)) :
          Except _ (Entry F)) with e | entry
        · exact absurd (Entry.read_eq_error_iff.mp hentry) (hearlier e)
        · exact ih hrest hbefore

end Faults

/-! ## Rows and skipped lines -/

/-- A skipped line and its index. -/
def Skipped.numbered (skipped : Skipped) : Nat × String := (skipped.index, skipped.line)

namespace Entry

variable [Zero F] [Neg F] [LT F] [LE F] [DecidableLT F] [DecidableLE F] {n : Nat} {eps : F}

theorem skipped?_eq_some_iff {entry : Entry F} {s : Skipped} :
    entry.skipped? n eps = some s ↔
      (∃ index line, entry = declaration index line ∧ s = ⟨index, line, .nonnegativity⟩) ∨
        ∃ index line c, entry = constraint index line c ∧ ¬(c.toRow n eps).FeasibleAtOrigin ∧
          s = ⟨index, line, .infeasibleAtOrigin⟩ := by
  cases entry with
  | declaration index line => simp [skipped?, eq_comm]
  | constraint index line c =>
    simp only [skipped?, Option.ite_none_left_eq_some, Option.some.injEq, reduceCtorEq, false_and,
      exists_false, false_or, constraint.injEq]
    constructor
    · rintro ⟨hinfeasible, rfl⟩
      exact ⟨index, line, c, ⟨rfl, rfl, rfl⟩, hinfeasible, rfl⟩
    · rintro ⟨_, _, _, ⟨rfl, rfl, rfl⟩, hinfeasible, rfl⟩
      exact ⟨hinfeasible, rfl⟩

theorem numbered_of_skipped? {entry : Entry F} {s : Skipped}
    (h : entry.skipped? n eps = some s) : s.numbered = entry.numbered := by
  rcases skipped?_eq_some_iff.mp h with ⟨index, line, rfl, rfl⟩ | ⟨index, line, c, rfl, -, rfl⟩ <;>
    rfl

/-- What is selected along with the images of a partial function. -/
theorem filterMap_map_const {α β γ : Type} (f : α → Option β) (g : α → γ) (l : List α) :
    (l.filterMap fun a => (f a).map fun _ => g a) = (l.filter fun a => (f a).isSome).map g := by
  induction l with
  | nil => rfl
  | cons a l ih =>
    cases hf : f a with
    | none => simp [hf, ih]
    | some b => simp [hf, ih]

/-- The lines of the entries that become rows. -/
def rowLines (n : Nat) (eps : F) (entries : List (Entry F)) : List (Nat × String) :=
  entries.filterMap fun entry => (entry.row? n eps).map fun _ => entry.numbered

/-- The skipped lines are those of the entries that become no row. -/
theorem map_numbered_skipped (n : Nat) (eps : F) (entries : List (Entry F)) :
    (entries.filterMap (skipped? n eps)).map Skipped.numbered =
      (entries.filter fun entry => !(entry.row? n eps).isSome).map numbered := by
  have hnumbered : ∀ entry ∈ entries, (entry.skipped? n eps).map Skipped.numbered =
      (entry.skipped? n eps).map fun _ => entry.numbered := by
    intro entry _
    rcases hskipped : entry.skipped? n eps with - | s
    · rfl
    · exact congrArg some (numbered_of_skipped? hskipped)
  rw [List.map_filterMap, List.filterMap_congr hnumbered, filterMap_map_const]
  exact congrArg _ (List.filter_congr fun entry _ => entry.isSome_skipped? n eps)

/-- **Every entry is a row or a skipped line**, and not both. -/
theorem skipped_append_rowLines_perm (n : Nat) (eps : F) (entries : List (Entry F)) :
    ((entries.filterMap (skipped? n eps)).map Skipped.numbered ++
      rowLines n eps entries).Perm (entries.map numbered) := by
  rw [map_numbered_skipped, rowLines, filterMap_map_const, ← List.map_append]
  refine List.Perm.map numbered (List.perm_append_comm.trans ?_)
  exact List.filter_append_perm (fun entry => (entry.row? n eps).isSome) entries

end Entry

/-! ## The whole problem -/

/-- A maximum is one of the values that it is taken of. -/
theorem foldl_max_mem (values : List Nat) (start : Nat) :
    values.foldl max start ∈ start :: values := by
  induction values generalizing start with
  | nil => exact List.mem_singleton_self start
  | cons value values ih =>
    rw [List.foldl_cons]
    rcases List.mem_cons.mp (ih (max start value)) with heq | hmem
    · rw [heq]
      rcases max_choice start value with hmax | hmax <;> simp [hmax]
    · exact List.mem_cons_of_mem _ (List.mem_cons_of_mem _ hmem)

namespace Problem

variable [Zero F] [One F] [Add F] [Sub F] [Neg F] [LT F] [LE F] [DecidableLT F] [DecidableLE F]
  [Finiteness F] [Numeral F]

/-- The widths of what a problem is read from: its objective function, and all lines that are
neither blank nor declarations. -/
def widths (objective : LinearExpression F) (lines : List String) : Set Nat :=
  {w | w = objective.variableCount ∨ ∃ i line, (i, line) ∈ contentFrom 0 lines ∧
    declaresNonnegativity Float line = false ∧
    ∃ c : Constraint F, Constraint.read line = .ok c ∧ w = c.variableCount}

/-- The problem accounts for every line that is not blank: it is skipped, or it is the line of a
row. -/
structure AccountsFor (problem : Problem F) (objective : LinearExpression F) (lines : List String)
    (eps : F) (kept : List (Nat × String)) : Prop where
  /-- each line is in one of the two lists, and there once -/
  perm : (problem.skipped.map Skipped.numbered ++ kept).Perm (contentFrom 0 lines)
  /-- a blank line is in neither -/
  blank : ∀ i raw, lines[i]? = some raw → Text.trim raw.toList = [] →
    ∀ line, (i, line) ∉ problem.skipped.map Skipped.numbered ++ kept
  /-- the skipped lines are in order -/
  pairwise_skipped : problem.skipped.Pairwise fun a b => a.index < b.index
  /-- the lines of the rows are in order -/
  pairwise_kept : kept.Pairwise fun a b => a.1 < b.1
  /-- the rows are what is read from their lines -/
  rows : List.Forall₂
    (fun numbered row => declaresNonnegativity Float numbered.2 = false ∧
      ∃ c : Constraint F, Constraint.read numbered.2 = .ok c ∧
        row = c.toRow problem.standardForm.variableCount eps)
    kept problem.standardForm.constraints
  /-- declarations are skipped as declarations, and nothing else is -/
  reason_iff : ∀ s ∈ problem.skipped,
    s.reason = .nonnegativity ↔ declaresNonnegativity Float s.line = true
  /-- what is skipped for another reason would be a row that the origin violates -/
  dropped : ∀ s ∈ problem.skipped, s.reason = .infeasibleAtOrigin →
    ∃ c : Constraint F, Constraint.read s.line = .ok c ∧
      ¬(c.toRow problem.standardForm.variableCount eps).FeasibleAtOrigin
  /-- the number of variables is the largest width -/
  variableCount_isGreatest :
    IsGreatest (widths objective lines) problem.standardForm.variableCount
  /-- the objective function is padded -/
  objective_eq : problem.standardForm.objective =
    padTo problem.standardForm.variableCount objective.coefficients

variable {objective : LinearExpression F} {lines : List String} {entries : List (Entry F)}

omit [LT F] [LE F] [DecidableLT F] [DecidableLE F] in
/-- The number of variables is the largest width. -/
theorem variableCount_isGreatest (h : readLines 0 lines = ⟨entries, none⟩) :
    IsGreatest (widths objective lines) (variableCount objective entries) := by
  obtain ⟨hnumbered, hentries⟩ := readLines_iff.mp h
  have hmem : ∀ {i line}, (i, line) ∈ contentFrom 0 lines →
      ∃ entry ∈ entries, entry.numbered = (i, line) := fun hline =>
    List.mem_map.mp (hnumbered ▸ hline)
  constructor
  · rcases List.mem_cons.mp (foldl_max_mem (entries.map Entry.variableCount)
      objective.variableCount) with heq | hwidth
    · exact .inl heq
    · obtain ⟨entry, hentry, heq⟩ := List.mem_map.mp hwidth
      rcases Entry.read_eq_ok_iff.mp (hentries entry hentry) with
        ⟨-, hdeclaration⟩ | ⟨hdeclares, c, hc, -, hconstraint⟩
      · -- a declaration has no width, so the largest one is that of the objective function
        left
        refine le_antisymm ?_ (objective_variableCount_le objective entries)
        rw [variableCount, ← heq, hdeclaration]
        exact Nat.zero_le _
      · refine .inr ⟨entry.numbered.1, entry.numbered.2, ?_, hdeclares, c, hc, ?_⟩
        · rw [← hnumbered]
          exact List.mem_map_of_mem hentry
        · rw [variableCount, ← heq, hconstraint]
          rfl
  · rintro w (rfl | ⟨i, line, hline, hdeclares, c, hc, rfl⟩)
    · exact objective_variableCount_le objective entries
    · obtain ⟨entry, hentry, hnumber⟩ := hmem hline
      have hok := hentries entry hentry
      rw [hnumber] at hok
      rcases Entry.read_eq_ok_iff.mp hok with ⟨hdeclares', -⟩ | ⟨-, c', hc', -, rfl⟩
      · rw [hdeclares] at hdeclares'
        cases hdeclares'
      · obtain rfl := Except.ok.inj (hc.symm.trans hc')
        exact variableCount_le_of_mem objective hentry

/-- **The entries of a problem account for its lines.** -/
theorem accountsFor_assemble (h : readLines 0 lines = ⟨entries, none⟩)
    (objective : LinearExpression F) (eps : F) :
    (assemble objective entries eps).AccountsFor objective lines eps
      (Entry.rowLines (variableCount objective entries) eps entries) := by
  obtain ⟨hnumbered, hentries⟩ := readLines_iff.mp h
  have hn : (assemble objective entries eps).standardForm.variableCount =
      variableCount objective entries := length_padTo (objective_variableCount_le _ entries)
  have hincreasing : entries.Pairwise fun a b => a.numbered.1 < b.numbered.1 := by
    rw [← List.pairwise_map (R := fun a b : Nat × String => a.1 < b.1), hnumbered]
    exact pairwise_contentFrom 0 lines
  have hperm : ((assemble objective entries eps).skipped.map Skipped.numbered ++
      Entry.rowLines (variableCount objective entries) eps entries).Perm (contentFrom 0 lines) := by
    rw [← hnumbered]
    exact Entry.skipped_append_rowLines_perm _ eps entries
  constructor
  · exact hperm
  · intro i raw hraw hblank line hmem
    obtain ⟨raw', hraw', htrim, hne⟩ := mem_contentFrom_iff.mp (hperm.mem_iff.mp hmem)
    obtain rfl := Option.some.inj (hraw.symm.trans hraw')
    exact hne (String.toList_eq_nil_iff.mp (htrim.symm.trans hblank))
  · refine List.pairwise_filterMap.mpr (hincreasing.imp fun {a b} hlt s hs s' hs' => ?_)
    rw [Entry.index_of_skipped? hs, Entry.index_of_skipped? hs']
    exact hlt
  · refine List.pairwise_filterMap.mpr (hincreasing.imp fun {a b} hlt x hx y hy => ?_)
    obtain ⟨-, -, rfl⟩ := Option.map_eq_some_iff.mp hx
    obtain ⟨-, -, rfl⟩ := Option.map_eq_some_iff.mp hy
    exact hlt
  · rw [hn]
    refine (forall₂_filterMap fun entry _ => Option.isSome_map).imp fun line row => ?_
    rintro ⟨entry, hentry, hline, hrow⟩
    obtain ⟨index, line, c, rfl, rfl, -⟩ := Entry.row?_eq_some_iff.mp hrow
    obtain ⟨-, -, rfl⟩ := Option.map_eq_some_iff.mp hline
    rcases Entry.read_eq_ok_iff.mp (hentries _ hentry) with
      ⟨-, hdeclaration⟩ | ⟨hdeclares, c', hc, -, hconstraint⟩
    · cases hdeclaration
    · cases hconstraint
      exact ⟨hdeclares, c, hc, rfl⟩
  · intro s hs
    obtain ⟨entry, hentry, hskipped⟩ := List.mem_filterMap.mp hs
    have hread := Entry.read_eq_ok_iff.mp (hentries entry hentry)
    rcases Entry.skipped?_eq_some_iff.mp hskipped with
      ⟨index, line, rfl, rfl⟩ | ⟨index, line, c, rfl, -, rfl⟩
    · rcases hread with ⟨hdeclares, -⟩ | ⟨-, _, -, -, hconstraint⟩
      · exact iff_of_true rfl hdeclares
      · cases hconstraint
    · rcases hread with ⟨-, hdeclaration⟩ | ⟨hdeclares, -⟩
      · cases hdeclaration
      · exact iff_of_false nofun (Bool.eq_false_iff.mp hdeclares)
  · intro s hs hreason
    obtain ⟨entry, hentry, hskipped⟩ := List.mem_filterMap.mp hs
    rcases Entry.skipped?_eq_some_iff.mp hskipped with
      ⟨index, line, rfl, rfl⟩ | ⟨index, line, c, rfl, hinfeasible, rfl⟩
    · cases hreason
    · rcases Entry.read_eq_ok_iff.mp (hentries _ hentry) with
        ⟨-, hdeclaration⟩ | ⟨-, c', hc, -, hconstraint⟩
      · cases hdeclaration
      · cases hconstraint
        exact ⟨c, hc, hn ▸ hinfeasible⟩
  · rw [hn]
    exact variableCount_isGreatest h
  · rw [hn]
    rfl

end Problem

/-- The first member of a list with a property, and what is before and after it. -/
theorem exists_first {α : Type} {P : α → Prop} {l : List α} (h : ∃ a ∈ l, P a) :
    ∃ before a after, l = before ++ a :: after ∧ (∀ b ∈ before, ¬P b) ∧ P a := by
  classical
  have hfound : (l.find? fun a => decide (P a)).isSome = true := by
    simpa [List.find?_isSome] using h
  obtain ⟨a, hfind⟩ := Option.isSome_iff_exists.mp hfound
  obtain ⟨ha, before, after, hl, hbefore⟩ := List.find?_eq_some_iff_append.mp hfind
  exact ⟨before, a, after, hl, by simpa using hbefore, by simpa using ha⟩

/-- **No line is lost, duplicated or reordered.** A problem that is read accounts for all lines that
are not blank, and if the objective function can be read while some line is faulty, the fault of the
first such line is reported. -/
theorem every_line_is_accounted_for [Zero F] [One F] [Add F] [Sub F] [Neg F] [LT F] [LE F]
    [DecidableLT F] [DecidableLE F] [BEq F] [Finiteness F] [Numeral F] (objective : String)
    (lines : List String) (eps : F) :
    (∀ problem, Problem.read objective lines eps = .ok problem →
      ∃ e kept, LinearExpression.readObjective objective = .ok e ∧
        problem.AccountsFor e lines eps kept) ∧
    ∀ e : LinearExpression F, LinearExpression.readObjective objective = .ok e →
      (∃ numbered ∈ contentFrom 0 lines, ∃ fault, IsFaultOf F numbered.2 fault) →
      ∃ before first after fault, contentFrom 0 lines = before ++ first :: after ∧
        (∀ earlier ∈ before, ∀ fault, ¬IsFaultOf F earlier.2 fault) ∧
        IsFaultOf F first.2 fault ∧ Problem.read objective lines eps = .error fault := by
  constructor
  · intro problem hread
    obtain ⟨e, entries, he, hlines, rfl, -⟩ := Problem.read_eq_ok_iff.mp hread
    exact ⟨e, _, he, Problem.accountsFor_assemble hlines e eps⟩
  · intro e he hfaulty
    obtain ⟨before, ⟨i, line⟩, after, hcontent, hbefore, fault, hfault⟩ := exists_first hfaulty
    have hsound : ∀ earlier ∈ before, ∀ fault, ¬IsFaultOf F earlier.2 fault :=
      fun earlier hearlier fault hfault => hbefore earlier hearlier ⟨fault, hfault⟩
    have hfailure := failure_readLines_of_isFaultOf hcontent hsound hfault
    refine ⟨before, (i, line), after, fault, hcontent, hsound, hfault, ?_⟩
    simp only [Problem.read, he, bind, Except.bind, hfailure]

/-- A problem with a blank line, a row, a declaration and a dropped line, and one with two faulty
lines. -/
theorem every_line_is_accounted_for_mixed :
    (∃ (problem : Problem ℚ) (e : LinearExpression ℚ),
      Problem.read "Z = x1" [" ", "x2 <= 4", "x1, x2 >= 0", "x1 >= 2"] 0 = .ok problem ∧
      problem.standardForm = ⟨[1, 0], [⟨[0, 1], 4⟩]⟩ ∧
      problem.skipped =
        [⟨2, "x1, x2 >= 0", .nonnegativity⟩, ⟨3, "x1 >= 2", .infeasibleAtOrigin⟩] ∧
      LinearExpression.readObjective "Z = x1" = .ok e ∧
      problem.AccountsFor e [" ", "x2 <= 4", "x1, x2 >= 0", "x1 >= 2"] 0 [(1, "x2 <= 4")]) ∧
    ∃ before first after fault,
      contentFrom 0 ["x2 <= 4", "x1 <= ", "x1"] = before ++ first :: after ∧
      (∀ earlier ∈ before, ∀ fault, ¬IsFaultOf ℚ earlier.2 fault) ∧ IsFaultOf ℚ first.2 fault ∧
      Problem.read "Z = x1" ["x2 <= 4", "x1 <= ", "x1"] (0 : ℚ) = .error fault := by
  have hread : Problem.read "Z = x1" [" ", "x2 <= 4", "x1, x2 >= 0", "x1 >= 2"] (0 : ℚ) =
      .ok ⟨⟨[1, 0], [⟨[0, 1], 4⟩]⟩,
        [⟨2, "x1, x2 >= 0", .nonnegativity⟩, ⟨3, "x1 >= 2", .infeasibleAtOrigin⟩]⟩ := by
    decide +kernel
  have hobjective : LinearExpression.readObjective "Z = x1" =
      .ok (⟨[1], 0⟩ : LinearExpression ℚ) := by decide +kernel
  have hfault : IsFaultOf ℚ "x1 <=" (.parse "x1 <=" .empty) :=
    .unreadable (by decide) (by decide +kernel)
  constructor
  · obtain ⟨e, kept, he, haccounts⟩ := (every_line_is_accounted_for _ _ _).1 _ hread
    -- the lines of the rows are what the skipped ones leave
    have hkept : kept = [(1, "x2 <= 4")] := by
      have hcontent : ([(2, "x1, x2 >= 0"), (3, "x1 >= 2")] ++ [(1, "x2 <= 4")]).Perm
          (contentFrom 0 [" ", "x2 <= 4", "x1, x2 >= 0", "x1 >= 2"]) := by
        decide +kernel
      exact List.perm_singleton.mp
        ((List.perm_append_left_iff _).mp (haccounts.perm.trans hcontent.symm))
    subst hkept
    exact ⟨_, e, hread, rfl, rfl, he, haccounts⟩
  · refine (every_line_is_accounted_for _ _ (0 : ℚ)).2 _ hobjective ⟨(1, "x1 <="), ?_, _, hfault⟩
    decide +kernel

end PrimalSimplex
