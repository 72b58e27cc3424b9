import PrimalSimplex.Proofs.PivotRule
import PrimalSimplex.Proofs.Rendering

/-!
# Names tell columns apart

A column is named by a letter and a number, `x1` or `s1`, and a number has only one way to be
written. So no two columns share a name, and none is called like the column of right hand sides or
the objective row, whose names have no number (`Names.nodup_columns`).

An optimum lists its values under the names of the first columns. A lookup by name takes the first
value it meets, but as the names differ there is only one to meet (`Solution.get?_eq_some_iff`), and
every name has a value, because the solution of a run is as long as the list of names
(`solution_of_solve`).
-/

namespace PrimalSimplex

namespace Names

variable {n m : Nat} {name : String}

/-! ## Numbered names -/

theorem toList_slackName (row : Nat) :
    (slackName row).toList = 's' :: Nat.toDigits 10 (row + 1) := by
  simp [slackName]

/-- **Names with a letter and a number differ when their numbers do.** -/
theorem injective_of_numbered {letter : Char} {name : Nat → String}
    (h : ∀ index, (name index).toList = letter :: Nat.toDigits 10 (index + 1)) :
    Function.Injective name := by
  intro i j hname
  have hdigits : Nat.toDigits 10 (i + 1) = Nat.toDigits 10 (j + 1) := by
    have hlist := congrArg String.toList hname
    rw [h, h] at hlist
    exact (List.cons.inj hlist).2
  have hvalue := congrArg digitsValue hdigits
  rw [digitsValue_toDigits, digitsValue_toDigits] at hvalue
  exact Nat.succ.inj hvalue

theorem variableName_ne_slackName (index row : Nat) : variableName index ≠ slackName row := by
  intro hname
  have hlist := congrArg String.toList hname
  rw [toList_variableName, toList_slackName] at hlist
  exact absurd (List.cons.inj hlist).1 (by decide)

/-! ## The names of the columns -/

/-- The name of a column has a letter and a number. -/
theorem exists_toList_of_mem_columns (h : name ∈ (standard n m).columns) :
    ∃ letter number, (letter = 'x' ∨ letter = 's') ∧
      name.toList = letter :: Nat.toDigits 10 number := by
  rcases List.mem_append.mp h with h | h
  · obtain ⟨j, -, rfl⟩ := List.mem_map.mp h
    exact ⟨'x', j + 1, .inl rfl, toList_variableName j⟩
  · obtain ⟨i, -, rfl⟩ := List.mem_map.mp h
    exact ⟨'s', i + 1, .inr rfl, toList_slackName i⟩

/-- The name of a column is not that of the right hand sides or of the objective row. -/
theorem ne_of_mem_columns (h : name ∈ (standard n m).columns) :
    name ≠ rhsName ∧ name ≠ objectiveName := by
  obtain ⟨letter, number, hletter, hname⟩ := exists_toList_of_mem_columns h
  constructor
  · rintro rfl
    obtain rfl : 'R' = letter := (List.cons.inj hname).1
    revert hletter
    decide
  · rintro rfl
    obtain rfl : 'Z' = letter := (List.cons.inj hname).1
    revert hletter
    decide

/-- **No two columns have the same name.** -/
theorem nodup_columns (n m : Nat) : (standard n m).columns.Nodup := by
  refine List.Nodup.append
    (List.nodup_range.map (injective_of_numbered toList_variableName))
    (List.nodup_range.map (injective_of_numbered toList_slackName)) ?_
  intro name hvariable hslack
  obtain ⟨j, -, rfl⟩ := List.mem_map.mp hvariable
  obtain ⟨i, -, hname⟩ := List.mem_map.mp hslack
  exact variableName_ne_slackName j i hname.symm

theorem length_columns (n m : Nat) : (standard n m).columns.length = n + m := by
  simp [standard]

/-- The decision variables are the first columns. -/
theorem getElem?_decisionVariables {j : Nat} (hj : j < n) :
    (standard n m).decisionVariables[j]? = some ((standard n m).column j) := by
  have hlt : j < (standard n m).columns.length := by
    rw [length_columns]
    omega
  have hcount : j < (standard n m).decisionCount := hj
  rw [decisionVariables, List.getElem?_take_of_lt hcount, column, List.getD_eq_getElem _ _ hlt,
    List.getElem?_eq_getElem hlt]

/-- A name stands in the header of a table. -/
theorem column_mem_headers (names : Names) (j : Nat) : names.column j ∈ names.headers := by
  rw [column, headers, List.getD_eq_getElem?_getD]
  rcases hname : names.columns[j]? with - | name
  · exact List.mem_append_right _ (List.mem_singleton_self _)
  · exact List.mem_append_left _ (List.mem_of_getElem? hname)

theorem length_decisionVariables (n m : Nat) : (standard n m).decisionVariables.length = n := by
  rw [decisionVariables, List.length_take, length_columns]
  exact Nat.min_eq_left (Nat.le_add_right n m)

/-- The names of the decision variables differ as well. -/
theorem nodup_decisionVariables (n m : Nat) : (standard n m).decisionVariables.Nodup :=
  (nodup_columns n m).sublist (List.take_sublist _ _)

end Names

/-! ## Lookup -/

namespace Solution

variable {F : Type} {solution : Solution F} {name : String} {value : F}

/-- A name without a value is not found. -/
theorem get?_eq_none_iff :
    solution.get? name = none ↔ name ∉ solution.values.map Prod.fst := by
  simp only [get?, Option.map_eq_none_iff, List.find?_eq_none, beq_iff_eq, List.mem_map,
    not_exists, not_and]

/-- **When names differ, a name is found with its own value.** -/
theorem get?_eq_some_iff (h : (solution.values.map Prod.fst).Nodup) :
    solution.get? name = some value ↔ (name, value) ∈ solution.values := by
  obtain ⟨objectiveValue, values⟩ := solution
  simp only [get?] at h ⊢
  induction values with
  | nil => simp
  | cons pair values ih =>
    obtain ⟨key, first⟩ := pair
    rw [List.map_cons, List.nodup_cons] at h
    by_cases hkey : key = name
    · subst hkey
      have hlater : (key, value) ∉ values := fun hmem => h.1 (List.mem_map.mpr ⟨_, hmem, rfl⟩)
      simp [hlater, eq_comm]
    · rw [List.find?_cons_of_neg (by simpa using hkey), ih h.2]
      simp [Ne.symm hkey]

end Solution

/-! ## The values of an optimum -/

section Optima

variable {F : Type} [Zero F] [One F] [Sub F] [Neg F] [Mul F] [Div F] [LT F] [LE F] [DecidableLT F]
  [DecidableLE F] [BEq F] {rule : PivotRule} {limit : Nat} {eps : F} {problem : StandardForm F}
  {optimum : Optimum F}

/-- An optimum has a value for each decision variable, and its columns have the standard names. -/
theorem solution_of_solve (h : solve rule limit eps problem = .optimal optimum) :
    optimum.trace.names = Names.standard problem.variableCount problem.constraintCount ∧
      optimum.solution.length = problem.variableCount := by
  obtain ⟨-, rfl⟩ := Run.outcome_eq_optimal_iff.mp h
  constructor
  · rw [Run.trace, Tableau.rowCount, Tableau.initial, List.length_range']
  · simp only [Tableau.basicSolution, List.length_map, List.length_range]
    rw [Tableau.final_run, Tableau.decisionCount_after]
    rfl

/-- **Named values are never confused.** The names of the columns differ from each other and from
those of the right hand sides and the objective row. In every optimum the name of a decision
variable stands for the value of that variable, and no other text stands for a value. -/
theorem named_values_are_never_confused :
    (∀ n m, (Names.standard n m).columns.length = n + m ∧ (Names.standard n m).columns.Nodup ∧
      ∀ name ∈ (Names.standard n m).columns,
        name ≠ Names.rhsName ∧ name ≠ Names.objectiveName) ∧
    ∀ rule limit eps (problem : StandardForm F) optimum,
      solve rule limit eps problem = .optimal optimum →
      optimum.solution.length = problem.variableCount ∧
      (∀ j (hj : j < optimum.solution.length),
        optimum.named.get?
            ((Names.standard problem.variableCount problem.constraintCount).column j) =
          some optimum.solution[j]) ∧
      ∀ name, (∀ j < problem.variableCount,
          name ≠ (Names.standard problem.variableCount problem.constraintCount).column j) →
        optimum.named.get? name = none := by
  refine ⟨fun n m => ⟨Names.length_columns n m, Names.nodup_columns n m,
    fun name => Names.ne_of_mem_columns⟩, fun rule limit eps problem optimum h => ?_⟩
  obtain ⟨hnames, hlength⟩ := solution_of_solve h
  have hvalues : optimum.named.values =
      (Names.standard problem.variableCount problem.constraintCount).decisionVariables.zip
        optimum.solution := by
    rw [Optimum.named, hnames]
  have hkeys : optimum.named.values.map Prod.fst =
      (Names.standard problem.variableCount problem.constraintCount).decisionVariables := by
    rw [hvalues, List.map_fst_zip]
    rw [Names.length_decisionVariables, hlength]
  refine ⟨hlength, fun j hj => ?_, fun name hname => ?_⟩
  · have hnodup : (optimum.named.values.map Prod.fst).Nodup := by
      rw [hkeys]
      exact Names.nodup_decisionVariables _ _
    rw [Solution.get?_eq_some_iff hnodup, hvalues]
    refine List.mem_of_getElem? (i := j) ?_
    rw [List.getElem?_zip_eq_some]
    exact ⟨Names.getElem?_decisionVariables (hlength ▸ hj), List.getElem?_eq_getElem hj⟩
  · rw [Solution.get?_eq_none_iff, hkeys]
    intro hmem
    obtain ⟨j, hj, rfl⟩ := List.getElem_of_mem hmem
    have hlt : j < problem.variableCount := by
      rwa [Names.length_decisionVariables] at hj
    refine hname j hlt (Option.some.inj ?_)
    rw [← List.getElem?_eq_getElem hj]
    exact Names.getElem?_decisionVariables hlt

end Optima

/-- The degenerate problem has an optimum with four values, and three slacks without one. -/
theorem named_values_are_never_confused_degenerate :
    ∃ optimum, solve .bland 100 0 StandardForm.degenerate = .optimal optimum ∧
      optimum.solution = [1, 0, 1, 0] ∧ optimum.named.get? "x3" = some 1 ∧
      optimum.named.get? "s1" = none := by
  have hanswer : (solve .bland 100 0 StandardForm.degenerate).optimum?.map
      (fun optimum => optimum.solution) = some [1, 0, 1, 0] := by
    decide +kernel
  rcases hsolve : solve .bland 100 0 StandardForm.degenerate with optimum | trace | trace
  · rw [hsolve] at hanswer
    have hsolution : optimum.solution = [1, 0, 1, 0] := Option.some.inj hanswer
    obtain ⟨-, hfound, hmissing⟩ := named_values_are_never_confused.2 _ _ _ _ _ hsolve
    refine ⟨optimum, rfl, hsolution, ?_, hmissing "s1" (by decide +kernel)⟩
    have hname : (Names.standard StandardForm.degenerate.variableCount
        StandardForm.degenerate.constraintCount).column 2 = "x3" := by
      decide +kernel
    have hthird := hfound 2 (by rw [hsolution]; decide)
    simpa [hsolution, hname] using hthird
  · rw [hsolve] at hanswer
    cases hanswer
  · rw [hsolve] at hanswer
    cases hanswer

end PrimalSimplex
