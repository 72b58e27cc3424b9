import PrimalSimplex.Proofs.BasicSolution

/-!
# The trace is a history

A trace keeps rows and bases and throws the tableaus away, so one may ask whether a reader of the
trace still knows what happened. It does: each record shows a tableau (`Record.tableau`), each
record after the first one names the pivot that led to it, and making that pivot in the tableau of
the record before gives exactly what is recorded (`Record.IsFollowedBy`). What a pivot has to fulfil
can be checked on the record before it.

Nothing is assumed about the arithmetic. Numbers may overflow, and a comparison with what comes out
of that may be false both ways; the choices of a rule, the shape of a tableau and the reading of an
answer do not depend on it. In particular every index that the method uses is in range, since all
records have one shape (`Tableau.hasShape_after`).
-/

namespace PrimalSimplex

variable {F : Type}

namespace Tableau

/-! ## What is read is there -/

section Entries

variable [Zero F] {t : Tableau F} {n m : Nat}

/-- Every entry of a tableau with a shape is there. -/
theorem HasShape.exists_getElem?_rows (h : t.HasShape n m) {i j : Nat} (hi : i ≤ m)
    (hj : j ≤ n + m) : ∃ row, t.rows[i]? = some row ∧ row[j]? = some (t.entry i j) := by
  have hlt : i < t.rows.length := by
    rw [h.length_rows]
    omega
  have hlt' : j < t.rows[i].length := by
    rw [h.length_row _ (List.getElem_mem hlt)]
    omega
  refine ⟨t.rows[i], List.getElem?_eq_getElem hlt, ?_⟩
  rw [entry, List.getD_eq_getElem _ _ hlt, List.getD_eq_getElem _ _ hlt',
    List.getElem?_eq_getElem hlt']

/-- The objective value is the last entry of the last row. -/
theorem HasShape.getLastD_rows (h : t.HasShape n m) :
    (t.rows.getLastD []).getLastD 0 = t.objectiveValue := by
  obtain ⟨row, hrow, hentry⟩ := h.exists_getElem?_rows (Nat.le_refl m) (Nat.le_refl (n + m))
  have hlength : row.length = n + m + 1 := h.length_row _ (List.mem_of_getElem? hrow)
  have hlast : t.rows.getLastD [] = row := by
    rw [List.getLastD_eq_getLast?, List.getLast?_eq_getElem?, h.length_rows, Nat.add_sub_cancel,
      hrow, Option.getD_some]
  rw [hlast, List.getLastD_eq_getLast?, List.getLast?_eq_getElem?, hlength, Nat.add_sub_cancel,
    hentry, Option.getD_some, objectiveValue, h.rowCount_eq, h.columnCount_eq]

end Entries

/-! ## The shape along a run -/

section Runs

variable [Zero F] [One F] [Sub F] [Neg F] [Mul F] [Div F] [LT F] [LE F] [DecidableLT F]
  [DecidableLE F] [BEq F] {problem : StandardForm F} {eps : F}

/-- **Every tableau of a run has the shape that goes with the problem.** -/
theorem hasShape_after (h : problem.IsWellFormed) (rule : PivotRule) (k : Nat) :
    ((initial problem eps).after rule k).HasShape problem.variableCount
      problem.constraintCount := by
  refine after_induction rule (hasShape_initial h) ?_ k
  intro t step ht hstep
  obtain ⟨row, column, hpivot, rfl⟩ := ht.of_step? hstep
  exact hpivot.hasShape_pivot ht

end Runs

end Tableau

/-! ## Records -/

section Records

variable [Zero F]

/-- A record leads to the next one by a pivot. All of it can be checked on the two records. -/
structure Record.IsFollowedBy [Sub F] [Neg F] [Mul F] [Div F] [LT F] [BEq F] (n m : Nat) (eps : F)
    (pivot : Pivot F) (before after : Record F) : Prop where
  /-- the later record names the pivot -/
  pivot_eq : after.pivot = some pivot
  /-- the entering variable is a variable -/
  column_lt : pivot.column < n + m
  /-- the entering variable was not basic -/
  not_mem : pivot.column ∉ before.basis
  /-- its relative cost was negative beyond the tolerance -/
  cost_lt : before.entry m pivot.column < -eps
  /-- the row of the pivot is that of a constraint -/
  row_lt : pivot.row < m
  /-- the pivot element is the entry at the row and the column of the pivot -/
  element_eq : pivot.element = before.entry pivot.row pivot.column
  /-- the pivot element is above the tolerance -/
  eps_lt : eps < pivot.element
  /-- the leaving variable was the basic variable of the row -/
  leaving_eq : before.basis[pivot.row]? = some pivot.leaving
  /-- the pivot, made in the earlier tableau, gives the later one -/
  tableau_eq : (before.tableau n eps).pivot pivot.row pivot.column = after.tableau n eps

/-- The objective value of a record is that of its tableau. -/
theorem Tableau.HasShape.objectiveValue_of [Neg F] [LE F] [DecidableLE F] {t : Tableau F}
    {n m : Nat} (h : t.HasShape n m) (k : Nat) (pivot : Option (Pivot F)) :
    (Record.of k t pivot).objectiveValue = t.objectiveValue :=
  h.getLastD_rows

end Records

/-! ## Answers -/

/-- A problem with 64 bit numbers of very different sizes. -/
def StandardForm.overflowing : StandardForm Float where
  objective := [1, 0, 1]
  constraints := [⟨[1e-9, 1e308, 0], 1⟩, ⟨[1e-9, 1e308, 1], 2⟩]

section Answers

variable [Zero F] [One F] [Sub F] [Neg F] [Mul F] [Div F] [LT F] [LE F] [DecidableLT F]
  [DecidableLE F] [BEq F] {problem : StandardForm F} {rule : PivotRule} {limit : Nat} {eps : F}

/-- A record is found under its number. -/
theorem eq_of_getElem?_records {k : Nat} {record : Record F}
    (h : (solve rule limit eps problem).trace.records[k]? = some record) :
    record = Record.of k ((Tableau.initial problem eps).after rule k)
      ((Tableau.initial problem eps).pivotBefore rule k) := by
  obtain ⟨hk, rfl⟩ := List.getElem?_eq_some_iff.mp h
  exact getElem_records_solve hk

/-- The two records around a pivot. -/
theorem getElem?_records_of_step? {outcome : Outcome F}
    (h : solve rule limit eps problem = outcome) {k : Nat} (hk : k < outcome.trace.pivotCount)
    {step : Pivot F × Tableau F}
    (hstep : ((Tableau.initial problem eps).after rule k).step? rule = some step) :
    outcome.trace.records[k]? =
        some (Record.of k ((Tableau.initial problem eps).after rule k)
          ((Tableau.initial problem eps).pivotBefore rule k)) ∧
      outcome.trace.records[k + 1]? = some (Record.of (k + 1) step.2 (some step.1)) := by
  subst h
  have hlength := length_records_solve rule limit eps problem
  have hlt : k < (solve rule limit eps problem).trace.records.length := by omega
  have hlt' : k + 1 < (solve rule limit eps problem).trace.records.length := by omega
  rw [List.getElem?_eq_getElem hlt, List.getElem?_eq_getElem hlt', getElem_records_solve hlt,
    getElem_records_solve hlt', Tableau.after_succ, Tableau.next_of_step? hstep,
    Tableau.pivotBefore, hstep]
  exact ⟨rfl, rfl⟩

/-- **Between two records the rule has made its two choices**, and the later record shows the pivot
that they give. -/
theorem exists_choice_of_records {k : Nat} {before after : Record F}
    (hbefore : (solve rule limit eps problem).trace.records[k]? = some before)
    (hafter : (solve rule limit eps problem).trace.records[k + 1]? = some after) :
    ∃ t entering row pivot, t = (Tableau.initial problem eps).after rule k ∧
      rule.entering? t = some entering ∧ rule.leavingRow? t entering.column = some row ∧
      before = Record.of k t pivot ∧
      after = Record.of (k + 1) (t.pivot row entering.column)
        (some (t.pivotAt row entering.column)) := by
  have hk : k < (solve rule limit eps problem).trace.pivotCount := by
    obtain ⟨hlt, -⟩ := List.getElem?_eq_some_iff.mp hafter
    rw [length_records_solve] at hlt
    omega
  obtain ⟨step, hstep, -⟩ := exists_step?_solve hk
  obtain ⟨hearlier, hlater⟩ := getElem?_records_of_step? rfl hk hstep
  obtain ⟨entering, row, hentering, hrow, rfl⟩ := Tableau.step?_eq_some_iff.mp hstep
  exact ⟨_, entering, row, _, rfl, hentering, hrow,
    Option.some.inj (hbefore.symm.trans hearlier), Option.some.inj (hafter.symm.trans hlater)⟩

/-- **The trace is a faithful history that can be replayed**, whatever the arithmetic does. Records
are numbered and have the shape that goes with the problem, so that every entry is there. The first
one shows the tableau of the problem, each later one follows from the one before by the pivot that
it names. The solution of an optimum is the basic solution that the last one shows, and its
objective value stands in the corner of the last one. -/
theorem trace_is_replayable_history (h : problem.IsWellFormed) :
    (∀ (k : Nat) (record : Record F),
      (solve rule limit eps problem).trace.records[k]? = some record →
      record.iteration = k ∧
        (record.tableau problem.variableCount eps).HasShape problem.variableCount
          problem.constraintCount ∧
        ∀ i ≤ problem.constraintCount, ∀ j ≤ problem.variableCount + problem.constraintCount,
          ∃ row, record.rows[i]? = some row ∧ row[j]? = some (record.entry i j)) ∧
      (∃ first, (solve rule limit eps problem).trace.records[0]? = some first ∧
        first.tableau problem.variableCount eps = Tableau.initial problem eps ∧
        first.pivot = none) ∧
      (∀ (k : Nat) (before after : Record F),
        (solve rule limit eps problem).trace.records[k]? = some before →
        (solve rule limit eps problem).trace.records[k + 1]? = some after →
        ∃ pivot, before.IsFollowedBy problem.variableCount problem.constraintCount eps pivot
          after) ∧
      ∀ optimum, solve rule limit eps problem = .optimal optimum →
        ∃ last, optimum.trace.records.getLast? = some last ∧
          last.IsBasicSolution problem.variableCount problem.constraintCount optimum.solution ∧
          optimum.objectiveValue =
            last.entry problem.constraintCount
              (problem.variableCount + problem.constraintCount) := by
  have hshape : ∀ k, ((Tableau.initial problem eps).after rule k).HasShape problem.variableCount
      problem.constraintCount := Tableau.hasShape_after h rule
  have htableau : ∀ k pivot,
      (Record.of k ((Tableau.initial problem eps).after rule k) pivot).tableau
        problem.variableCount eps = (Tableau.initial problem eps).after rule k :=
    fun k pivot => Record.tableau_of (hshape k).decisionCount_eq (Tableau.eps_after rule k _)
  refine ⟨?_, ?_, ?_, ?_⟩
  · intro k record hrecord
    obtain rfl := eq_of_getElem?_records hrecord
    refine ⟨rfl, ?_, fun i hi j hj => (hshape k).exists_getElem?_rows hi hj⟩
    rw [htableau]
    exact hshape k
  · have hlt : 0 < (solve rule limit eps problem).trace.records.length := by
      rw [length_records_solve]
      exact Nat.succ_pos _
    refine ⟨_, List.getElem?_eq_getElem hlt, ?_⟩
    rw [getElem_records_solve hlt, htableau]
    exact ⟨rfl, rfl⟩
  · intro k before after hbefore hafter
    obtain ⟨t, entering, row, pivot, ht, hentering, hrow, rfl, rfl⟩ :=
      exists_choice_of_records hbefore hafter
    have htshape : t.HasShape problem.variableCount problem.constraintCount := ht ▸ hshape k
    have hteps : t.eps = eps := ht ▸ Tableau.eps_after rule k _
    have hpivot := htshape.isAdmissible hentering hrow
    have hcost := hpivot.cost_lt
    rw [Tableau.relativeCost, htshape.rowCount_eq, hteps] at hcost
    refine ⟨t.pivotAt row entering.column, rfl, hpivot.column_lt, hpivot.not_mem, hcost,
      hpivot.row_lt, rfl, hteps ▸ hpivot.eps_lt, htshape.basicColumn_eq hpivot.row_lt, ?_⟩
    rw [Record.tableau_of htshape.decisionCount_eq hteps]
    exact (Record.tableau_of (t := t.pivot row entering.column) htshape.decisionCount_eq hteps).symm
  · intro optimum hoptimum
    obtain ⟨t, pivot, ht, hlast, -, hsolution, hvalue⟩ := exists_last_of_optimal hoptimum
    have htshape : t.HasShape problem.variableCount problem.constraintCount := ht ▸ hshape _
    refine ⟨_, hlast, ?_, ?_⟩
    · rw [hsolution]
      exact htshape.isBasicSolution_of _ pivot
    · rw [hvalue, Tableau.objectiveValue, htshape.rowCount_eq, htshape.columnCount_eq]
      rfl

/-- A run whose numbers overflow: the first pivot leaves infinite entries behind, and the second one
subtracts them from each other, which gives no number at all. An optimum is reported nevertheless,
and its values are those of the last record. -/
theorem trace_is_replayable_history_overflowing :
    StandardForm.overflowing.IsWellFormed ∧
      ((solve .bland 100 1e-10 StandardForm.overflowing).trace.records.map fun record =>
        (record.entry 2 1).isNaN) = [false, false, true] ∧
      (∀ (k : Nat) (before after : Record Float),
        (solve .bland 100 1e-10 StandardForm.overflowing).trace.records[k]? = some before →
        (solve .bland 100 1e-10 StandardForm.overflowing).trace.records[k + 1]? = some after →
        ∃ pivot, before.IsFollowedBy 3 2 1e-10 pivot after) ∧
      ∃ optimum last, solve .bland 100 1e-10 StandardForm.overflowing = .optimal optimum ∧
        optimum.trace.records.getLast? = some last ∧ last.basis = [0, 2] ∧
        last.IsBasicSolution 3 2 optimum.solution ∧ optimum.solution = [1 / 1e-9, 0, 1] ∧
        optimum.objectiveValue = 1 / 1e-9 + 1 := by
  have hwellFormed : StandardForm.overflowing.IsWellFormed := by decide +kernel
  have hrecord : (solve .bland 100 1e-10 StandardForm.overflowing).optimum?.map
      (fun optimum => optimum.trace.records.getLast?.map fun last =>
        (last.basis, last.entry 0 5, last.entry 1 5, last.entry 2 5)) =
      some (some ([0, 2], 1 / 1e-9, 1, 1 / 1e-9 + 1)) := by
    decide +kernel
  obtain ⟨-, -, hfollowed, hoptimal⟩ := trace_is_replayable_history hwellFormed
  refine ⟨hwellFormed, by decide +kernel, hfollowed, ?_⟩
  rcases hsolve : solve .bland 100 1e-10 StandardForm.overflowing with optimum | trace | trace
  · rw [hsolve] at hrecord
    obtain ⟨last, hlast, hsolution, hvalue⟩ := hoptimal optimum hsolve
    obtain ⟨last', hlast', hshown⟩ := Option.map_eq_some_iff.mp (Option.some.inj hrecord)
    obtain rfl := Option.some.inj (hlast.symm.trans hlast')
    obtain ⟨hbasis, hentries⟩ := Prod.mk.inj hshown
    obtain ⟨hupper, hentries⟩ := Prod.mk.inj hentries
    obtain ⟨hlower, hcorner⟩ := Prod.mk.inj hentries
    have hvalues : optimum.solution = [1 / 1e-9, 0, 1] := by
      obtain ⟨a, b, c, habc⟩ := List.length_eq_three.mp hsolution.length_eq
      have hfirst := hsolution.basic 0 0 (by rw [hbasis]; rfl) (by decide)
      have hsecond := hsolution.nonbasic 1 (by decide) (by rw [hbasis]; decide)
      have hthird := hsolution.basic 1 2 (by rw [hbasis]; rfl) (by decide)
      rw [habc] at hfirst hsecond hthird ⊢
      rw [(Option.some.inj hfirst).trans hupper, Option.some.inj hsecond,
        (Option.some.inj hthird).trans hlower]
    exact ⟨optimum, last, rfl, hlast, hbasis, hsolution, hvalues, hvalue.trans hcorner⟩
  · rw [hsolve] at hrecord
    cases hrecord
  · rw [hsolve] at hrecord
    cases hrecord

end Answers

end PrimalSimplex
