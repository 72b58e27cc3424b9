import PrimalSimplex.Proofs.BasicSolution

/-!
# Repeated bases

A basis determines its tableau. The equations of a problem have one solution for each choice of the
variables outside the basis, so two tableaus that are solved for the same basic variables have the
same basic solution and the same rays, and the entries of a tableau can be read off these. By which
pivots the basis was reached makes no difference, and neither do the rule or the tolerance
(`Tableau.Represents.rows_eq_of_basis`).

A rule looks at nothing but the tableau. So a run that comes back to a basis is back at a tableau
that it has left before, and it goes on as it did then (`Tableau.after_add_period`): it never stops
by itself, and only the limit ends it. That Bland's rule never does this is another matter;
Dantzig's rule does.
-/

namespace PrimalSimplex

namespace Tableau

variable {F : Type}

/-! ## A basis determines its tableau -/

section Uniqueness

variable [Field F] {problem : StandardForm F} {p q : Tableau F} {column : Nat}

/-- A basis has one ray for each column outside it. -/
theorem Represents.direction_eq_of_basis (hp : p.Represents problem) (hq : q.Represents problem)
    (hbasis : p.basis = q.basis)
    (hcolumn : column < problem.variableCount + problem.constraintCount)
    (hnot : column ∉ p.basis) :
    ∀ j < problem.variableCount + problem.constraintCount,
      p.direction column j = q.direction column j := by
  -- one ray forth and the other one back lead to a solution that is zero outside the basis
  have hsolved : q.IsSolvedBy fun j => p.along column 1 j + -1 * q.direction column j := by
    rw [hq.isSolvedBy_iff]
    intro i hi
    have hforth := (hp.isSolvedBy_iff _).mp (hp.isSolvedBy_along hcolumn 1) i hi
    have hback := hq.rowAt_direction hcolumn hi
    rw [StandardForm.rowAt_add_mul]
    linear_combination hforth - hback
  have hzero : ∀ j < problem.variableCount + problem.constraintCount, j ∉ q.basis →
      p.along column 1 j + -1 * q.direction column j = 0 := by
    intro j _ hj
    have hj' : j ∉ p.basis := hbasis ▸ hj
    rw [along, basicValue_of_not_mem hj']
    by_cases hjc : j = column
    · rw [hjc, direction_self hnot, direction_self (hbasis ▸ hnot)]
      ring
    · rw [direction_of_not_mem hjc hj', direction_of_not_mem hjc hj]
      ring
  intro j hj
  have hvalue := hq.eq_basicValue hsolved hzero j hj
  rw [along, hp.basicValue_eq_of_basis hq (congrArg List.toFinset hbasis) j hj] at hvalue
  linear_combination hvalue

/-- **A basis determines the entries of its tableau.** -/
theorem Represents.entry_eq_of_basis (hp : p.Represents problem) (hq : q.Represents problem)
    (hbasis : p.basis = q.basis) {i j : Nat} (hi : i ≤ problem.constraintCount)
    (hj : j ≤ problem.variableCount + problem.constraintCount) : p.entry i j = q.entry i j := by
  have hbasic : ∀ k, p.basicColumn k = q.basicColumn k := fun k => by
    rw [basicColumn, basicColumn, hbasis]
  have hvalue := hp.basicValue_eq_of_basis hq (congrArg List.toFinset hbasis)
  rcases Nat.lt_or_eq_of_le hj with hj | rfl
  · by_cases hmem : j ∈ p.basis
    · -- a basic column is a unit vector
      obtain ⟨k, hk, rfl⟩ := hp.hasShape.exists_basicColumn hmem
      rw [hp.unit k hk i hi, hbasic k, hq.unit k hk i hi]
    · have hray := hp.direction_eq_of_basis hq hbasis hj hmem
      rcases Nat.lt_or_eq_of_le hi with hi | rfl
      · -- an entry is what a basic variable loses along the ray
        have hchange := hray _ (hp.hasShape.basicColumn_lt hi)
        rw [hp.hasShape.direction_basicColumn hmem hi, hbasic i,
          hq.hasShape.direction_basicColumn (hbasis ▸ hmem) hi] at hchange
        exact neg_inj.mp hchange
      · -- a relative cost is what the objective function loses along the ray
        have hloss : problem.objectiveAt (p.direction j) = problem.objectiveAt (q.direction j) :=
          StandardForm.objectiveAt_congr fun k hk => hray k (by omega)
        rw [hp.objectiveAt_direction hj, hq.objectiveAt_direction hj, relativeCost, relativeCost,
          hp.hasShape.rowCount_eq, hq.hasShape.rowCount_eq] at hloss
        exact neg_inj.mp hloss
  · -- the last column holds the basic solution and its objective value
    rcases Nat.lt_or_eq_of_le hi with hi | rfl
    · have hrhs := hvalue _ (hp.hasShape.basicColumn_lt hi)
      rwa [hp.hasShape.basicValue_basicColumn hi, hbasic i,
        hq.hasShape.basicValue_basicColumn hi, constraintValue, constraintValue,
        hp.hasShape.columnCount_eq, hq.hasShape.columnCount_eq] at hrhs
    · have hobjective := hp.objectiveValue_congr hq hvalue
      rwa [objectiveValue, objectiveValue, hp.hasShape.rowCount_eq, hq.hasShape.rowCount_eq,
        hp.hasShape.columnCount_eq, hq.hasShape.columnCount_eq] at hobjective

omit [Field F] in
/-- Tableaus of one shape are told apart by their entries. -/
theorem HasShape.rows_ext [Zero F] {n m : Nat} (hp : p.HasShape n m) (hq : q.HasShape n m)
    (hentry : ∀ i ≤ m, ∀ j ≤ n + m, p.entry i j = q.entry i j) : p.rows = q.rows := by
  refine List.ext_getElem (hp.length_rows.trans hq.length_rows.symm) fun i hi hi' => ?_
  have him : i ≤ m := by
    rw [hp.length_rows] at hi
    omega
  have hlength := hp.length_row _ (List.getElem_mem hi)
  have hlength' := hq.length_row _ (List.getElem_mem hi')
  refine List.ext_getElem (hlength.trans hlength'.symm) fun j hj hj' => ?_
  have hvalues := hentry i him j (by omega)
  rwa [entry, entry, List.getD_eq_getElem _ _ hi, List.getD_eq_getElem _ _ hi',
    List.getD_eq_getElem _ _ hj, List.getD_eq_getElem _ _ hj'] at hvalues

/-- **A basis determines its tableau.** -/
theorem Represents.rows_eq_of_basis (hp : p.Represents problem) (hq : q.Represents problem)
    (hbasis : p.basis = q.basis) : p.rows = q.rows :=
  hp.hasShape.rows_ext hq.hasShape fun _ hi _ hj => hp.entry_eq_of_basis hq hbasis hi hj

/-- Two tableaus with one basis differ at most in their tolerance. -/
theorem Represents.eq_of_basis (hp : p.Represents problem) (hq : q.Represents problem)
    (hbasis : p.basis = q.basis) (heps : p.eps = q.eps) : p = q := by
  have hrows := hp.rows_eq_of_basis hq hbasis
  have hcount := hp.hasShape.decisionCount_eq.trans hq.hasShape.decisionCount_eq.symm
  cases p
  cases q
  simp only at hrows hbasis hcount heps
  rw [hrows, hbasis, hcount, heps]

end Uniqueness

/-! ## A repeated tableau makes a run periodic

Nothing is assumed about the arithmetic here: that the run goes on as before is due to its being
determined by the tableau alone. -/

section Periodic

variable [Zero F] [Sub F] [Neg F] [Mul F] [Div F] [LT F] [LE F] [DecidableLT F] [DecidableLE F]
  [BEq F] {rule : PivotRule} {t : Tableau F} {i j : Nat}

theorem after_add (rule : PivotRule) (t : Tableau F) (k d : Nat) :
    t.after rule (k + d) = (t.after rule k).after rule d := by
  rw [Nat.add_comm]
  exact Function.iterate_add_apply _ _ _ _

/-- **From a repeated tableau on the sequence is periodic.** -/
theorem after_add_period (hij : i ≤ j) (hrepeat : t.after rule i = t.after rule j) {k : Nat}
    (hk : i ≤ k) : t.after rule (k + (j - i)) = t.after rule k := by
  obtain ⟨d, rfl⟩ := Nat.exists_eq_add_of_le hk
  have hshift : i + d + (j - i) = j + d := by omega
  rw [hshift, after_add rule t j, ← hrepeat, ← after_add]

/-- A sequence that comes back to a tableau by pivots makes pivots forever. -/
theorem exists_step?_of_repeat (hij : i < j) (hrepeat : t.after rule i = t.after rule j)
    (hpivots : ∀ k < j, ∃ step, (t.after rule k).step? rule = some step) (k : Nat) :
    ∃ step, (t.after rule k).step? rule = some step := by
  -- the induction goes back by one period until the time of the first visit
  induction k using Nat.strong_induction_on with
  | _ k ih =>
    rcases Nat.lt_or_ge k j with hk | hk
    · exact hpivots k hk
    · have hback := after_add_period hij.le hrepeat (k := k - (j - i)) (by omega)
      rw [Nat.sub_add_cancel (by omega)] at hback
      rw [hback]
      exact ih _ (by omega)

end Periodic

end Tableau

/-! ## Runs -/

section Runs

variable {F : Type} [Field F] [LinearOrder F] {problem : StandardForm F} {rule : PivotRule}
  {limit : Nat} {eps : F}

omit [Field F] [LinearOrder F] in
/-- A run that pivots forever reaches every limit. -/
theorem nonConvergent_of_forall_step? [Zero F] [One F] [Sub F] [Neg F] [Mul F] [Div F] [LT F]
    [LE F] [DecidableLT F] [DecidableLE F] [BEq F]
    (hpivots : ∀ k, ∃ step, ((Tableau.initial problem eps).after rule k).step? rule = some step)
    (limit : Nat) : ∃ trace, solve rule limit eps problem = .nonConvergent trace := by
  rcases hsolve : solve rule limit eps problem with optimum | trace | trace
  · obtain ⟨k, hnone, -⟩ := optimal_of_solve hsolve
    obtain ⟨step, hstep⟩ := hpivots k
    obtain ⟨entering, row, hentering, -⟩ := Tableau.step?_eq_some_iff.mp hstep
    exact absurd (hentering.symm.trans hnone) (Option.some_ne_none _)
  · obtain ⟨entering, hentering, hnone⟩ := unlimited_of_solve hsolve
    obtain ⟨step, hstep⟩ := hpivots trace.pivotCount
    obtain ⟨entering', row, hentering', hrow, -⟩ := Tableau.step?_eq_some_iff.mp hstep
    obtain rfl := Option.some.inj (hentering'.symm.trans hentering)
    exact absurd (hrow.symm.trans hnone) (Option.some_ne_none _)
  · exact ⟨trace, rfl⟩

/-- Two times at which a run has one basis are two visits of one tableau. -/
theorem after_eq_of_basis (h : problem.IsWellFormed) (heps : 0 ≤ eps) {i j : Nat}
    (hbasis : ((Tableau.initial problem eps).after rule i).basis =
      ((Tableau.initial problem eps).after rule j).basis) :
    (Tableau.initial problem eps).after rule i = (Tableau.initial problem eps).after rule j := by
  refine (Tableau.represents_after h heps rule i).eq_of_basis
    (Tableau.represents_after h heps rule j) hbasis ?_
  rw [Tableau.eps_after, Tableau.eps_after]

/-- **The basis determines the tableau, and a run that repeats a basis is periodic.** Records with
the same basis show the same rows, whatever runs on the problem they come from. So where a run has
the same basis in record `i` and in a later record `j`, it reaches every limit: under any limit
there are as many pivots as it allows, and from record `i` on, the rows, the basis and the flag of
optimality come back after `j - i` records. -/
theorem repeated_basis_is_periodic (h : problem.IsWellFormed) :
    (∀ (rule rule' : PivotRule) (limit limit' : Nat) (eps eps' : F), 0 ≤ eps → 0 ≤ eps' →
      ∀ record ∈ (solve rule limit eps problem).trace.records,
        ∀ record' ∈ (solve rule' limit' eps' problem).trace.records,
          record.basis = record'.basis → record.rows = record'.rows) ∧
      ∀ (rule : PivotRule) (limit : Nat) (eps : F), 0 ≤ eps →
        ∀ (i j : Nat) (first second : Record F), i < j →
          (solve rule limit eps problem).trace.records[i]? = some first →
          (solve rule limit eps problem).trace.records[j]? = some second →
          first.basis = second.basis →
          ∀ limit', ∃ trace, solve rule limit' eps problem = .nonConvergent trace ∧
            trace.records.length = limit' + 1 ∧
            ∀ k, i ≤ k → k + (j - i) ≤ limit' →
              ∃ record record', trace.records[k]? = some record ∧
                trace.records[k + (j - i)]? = some record' ∧ record'.rows = record.rows ∧
                record'.basis = record.basis ∧ record'.isOptimal = record.isOptimal := by
  constructor
  · intro rule rule' limit limit' eps eps' heps heps' record hrecord record' hrecord' hbasis
    obtain ⟨k, pivot, rfl⟩ := exists_eq_of_mem_records hrecord
    obtain ⟨k', pivot', rfl⟩ := exists_eq_of_mem_records hrecord'
    exact (Tableau.represents_after h heps rule k).rows_eq_of_basis
      (Tableau.represents_after h heps' rule' k') hbasis
  · intro rule limit eps heps i j first second hij hfirst hsecond hbasis limit'
    obtain ⟨hi, rfl⟩ := List.getElem?_eq_some_iff.mp hfirst
    obtain ⟨hj, rfl⟩ := List.getElem?_eq_some_iff.mp hsecond
    rw [getElem_records_solve hi, getElem_records_solve hj] at hbasis
    have hrepeat := after_eq_of_basis h heps hbasis
    have hpivots := Tableau.exists_step?_of_repeat hij hrepeat fun k hk => by
      rw [length_records_solve] at hj
      obtain ⟨step, hstep, -⟩ :=
        exists_step?_solve (hk.trans_le (Nat.le_of_lt_succ hj))
      exact ⟨step, hstep⟩
    obtain ⟨trace, hsolve⟩ := nonConvergent_of_forall_step? hpivots limit'
    have hlength : (solve rule limit' eps problem).trace.records.length = limit' + 1 := by
      rw [length_records_solve, pivotCount_of_nonConvergent hsolve]
    have htrace : trace = (solve rule limit' eps problem).trace := by
      rw [hsolve]
      rfl
    refine ⟨trace, hsolve, htrace ▸ hlength, ?_⟩
    rw [htrace]
    intro k hk hkd
    have hlt : k < (solve rule limit' eps problem).trace.records.length := by omega
    have hlt' : k + (j - i) < (solve rule limit' eps problem).trace.records.length := by omega
    refine ⟨_, _, List.getElem?_eq_getElem hlt, List.getElem?_eq_getElem hlt', ?_⟩
    rw [getElem_records_solve hlt, getElem_records_solve hlt',
      Tableau.after_add_period hij.le hrepeat hk]
    exact ⟨rfl, rfl, rfl⟩

/-- On the degenerate problem Dantzig's rule is back at its first basis after six pivots, so no
limit is large enough for it. -/
theorem repeated_basis_is_periodic_degenerate :
    ((solve .dantzig 6 0 StandardForm.degenerate).trace.records.map Record.basis)[6]? =
        some [4, 5, 6] ∧
      ∀ limit, ∃ trace, solve .dantzig limit 0 StandardForm.degenerate = .nonConvergent trace := by
  have hwellFormed : StandardForm.degenerate.IsWellFormed := by decide +kernel
  have hlength : (solve .dantzig 6 0 StandardForm.degenerate).trace.records.length = 7 := by
    decide +kernel
  have hbases : (solve .dantzig 6 0 StandardForm.degenerate).trace.records.map Record.basis =
      [[4, 5, 6], [0, 5, 6], [0, 1, 6], [2, 1, 6], [2, 3, 6], [4, 3, 6], [4, 5, 6]] := by
    decide +kernel
  have hbasis : ∀ k (hk : k < (solve .dantzig 6 0 StandardForm.degenerate).trace.records.length),
      some ((solve .dantzig 6 0 StandardForm.degenerate).trace.records[k]).basis =
        [[4, 5, 6], [0, 5, 6], [0, 1, 6], [2, 1, 6], [2, 3, 6], [4, 3, 6], [4, 5, 6]][k]? := by
    intro k hk
    rw [← hbases, List.getElem?_map, List.getElem?_eq_getElem hk]
    rfl
  refine ⟨by rw [hbases]; rfl, fun limit => ?_⟩
  obtain ⟨trace, hsolve, -⟩ := (repeated_basis_is_periodic hwellFormed).2 .dantzig 6 0 (le_refl 0)
    0 6 _ _ (by decide) (List.getElem?_eq_getElem (by omega)) (List.getElem?_eq_getElem (by omega))
    (Option.some.inj ((hbasis 0 (by omega)).trans (hbasis 6 (by omega)).symm)) limit
  exact ⟨trace, hsolve⟩

end Runs

end PrimalSimplex
