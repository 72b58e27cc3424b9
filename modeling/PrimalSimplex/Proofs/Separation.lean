import Mathlib.Tactic.MkIffOfInductiveProp
import PrimalSimplex.Proofs.OptimalityTest

/-!
# Well-separated problems

A tolerance is there for numbers that are not exact. With exact numbers one would rather do without,
so one may ask when a tolerance makes no difference. It enters a run in four places: a variable may
enter the basis when its relative cost is below minus the tolerance, a row limits the entering
variable when its entry is above the tolerance, rows tie when their ratios are within the tolerance,
and the flag of a record allows for the tolerance. A tableau is *separated* (`Tableau.IsSeparated`)
when no number that is compared in one of these places is so close to the border that the tolerance
decides.

Changing the tolerance of a tableau (`Tableau.withTolerance`) touches neither its rows nor its
basis. In a separated tableau it does not touch the choices of a rule either, and a pivot leads to
the same rows and the same basis. So a run through separated tableaus is the same run with the
tolerance and without (`Tableau.run_withTolerance`).

The one step that needs care is the ratio test. It does not compare the ratios of two rows but the
ratio of a row with the least one so far, and in a tie the smaller ratio is kept. Among separated
ratios a tie means equality, so the one that is kept is that of a row
(`Candidate.foldl_better_of_areSeparated`).
-/

namespace PrimalSimplex

/-! ## The ratio test on separated ratios -/

namespace Candidate

variable {F : Type} [Field F] [LinearOrder F] [IsStrictOrderedRing F] {eps : F}

/-- Two candidates have the same ratio, or ratios that are further apart than the tolerance. -/
def AreSeparated (eps : F) (a b : Candidate F) : Prop :=
  a.ratio = b.ratio ∨ eps < |a.ratio - b.ratio|

/-- Separated candidates tie only when they tie without a tolerance. -/
theorem isTie_of_areSeparated (heps : 0 ≤ eps) {best next : Candidate F}
    (h : AreSeparated eps next best) : isTie eps best next = isTie 0 best next := by
  rw [Bool.eq_iff_iff, isTie_zero, isTie, decide_eq_true_iff, Tableau.magnitude_eq_abs]
  rcases h with heq | hlt
  · refine iff_of_true ?_ heq
    rw [heq, sub_self, abs_zero]
    exact heps
  · refine iff_of_false hlt.not_ge fun heq => ?_
    rw [heq, sub_self, abs_zero] at hlt
    exact hlt.not_ge heps

/-- The better of two separated candidates is the same with the tolerance and without. -/
theorem better_of_areSeparated (tieBreak : TieBreak) (heps : 0 ≤ eps) {best next : Candidate F}
    (h : AreSeparated eps next best) :
    better tieBreak eps best next = better tieBreak 0 best next := by
  simp only [better, isTie_of_areSeparated heps h]

/-- **The ratio test finds the same winner among separated candidates.** -/
theorem foldl_better_of_areSeparated (tieBreak : TieBreak) (heps : 0 ≤ eps) (first : Candidate F)
    (rest : List (Candidate F))
    (h : ∀ a ∈ first :: rest, ∀ b ∈ first :: rest, AreSeparated eps a b) :
    rest.foldl (better tieBreak eps) first = rest.foldl (better tieBreak 0) first := by
  induction rest generalizing first with
  | nil => rfl
  | cons next rest ih =>
    rw [List.foldl_cons, List.foldl_cons, better_of_areSeparated tieBreak heps
      (h next (List.mem_cons_of_mem _ List.mem_cons_self) first List.mem_cons_self)]
    -- the better one is still a candidate, so it is separated from what is to come
    have hmem : better tieBreak 0 first next ∈ first :: next :: rest := by
      rcases better_zero tieBreak first next with ⟨heq, -⟩ | ⟨heq, -⟩ <;> simp [heq]
    have hsub : ∀ a ∈ better tieBreak 0 first next :: rest, a ∈ first :: next :: rest := by
      intro a ha
      rcases List.mem_cons.mp ha with rfl | ha
      · exact hmem
      · exact List.mem_cons_of_mem _ (List.mem_cons_of_mem _ ha)
    exact ih _ fun a ha b hb => h a (hsub a ha) b (hsub b hb)

theorem best?_of_areSeparated (tieBreak : TieBreak) (heps : 0 ≤ eps)
    {candidates : List (Candidate F)}
    (h : ∀ a ∈ candidates, ∀ b ∈ candidates, AreSeparated eps a b) :
    best? tieBreak eps candidates = best? tieBreak 0 candidates := by
  cases candidates with
  | nil => rfl
  | cons first rest => exact congrArg some (foldl_better_of_areSeparated tieBreak heps first rest h)

end Candidate

/-! ## Separated tableaus -/

namespace Tableau

section WithTolerance

variable {F : Type} {t : Tableau F} {eps : F} {n m : Nat}

/-- The tableau with another tolerance. -/
def withTolerance (eps : F) (t : Tableau F) : Tableau F := { t with eps }

/-- Another tolerance does not change the shape. -/
theorem HasShape.withTolerance (h : t.HasShape n m) (eps : F) :
    (t.withTolerance eps).HasShape n m :=
  ⟨h.decisionCount_eq, h.length_basis, h.length_rows, h.length_row, h.basis_lt, h.basis_nodup⟩

end WithTolerance

variable {F : Type} [Field F] [LinearOrder F] {rule : PivotRule} {t : Tableau F} {eps : F}
  {n m : Nat}

/-- No number that a rule compares in the tableau is so close to the border that the tolerance
decides. -/
@[mk_iff]
structure IsSeparated (rule : PivotRule) (eps : F) (t : Tableau F) : Prop where
  /-- no relative cost is negative within the tolerance -/
  cost : ∀ j < t.columnCount, ¬ (-eps ≤ t.relativeCost j ∧ t.relativeCost j < 0)
  /-- no entry in the column of the entering variable is positive within the tolerance -/
  entry : ∀ entering ∈ rule.entering? t, ∀ i < t.rowCount,
    ¬ (0 < t.entry i entering.column ∧ t.entry i entering.column ≤ eps)
  /-- the ratios of the rows that limit the entering variable are equal, or further apart than the
  tolerance -/
  ratio : ∀ entering ∈ rule.entering? t, ∀ i < t.rowCount, ∀ k < t.rowCount,
    0 < t.entry i entering.column → 0 < t.entry k entering.column →
      t.ratio i entering.column = t.ratio k entering.column ∨
        eps < |t.ratio i entering.column - t.ratio k entering.column|

instance (rule : PivotRule) (eps : F) (t : Tableau F) : Decidable (t.IsSeparated rule eps) :=
  decidable_of_iff' _ (isSeparated_iff rule eps t)

namespace IsSeparated

/-- An entry of the entering column is above the tolerance as soon as it is positive. -/
theorem lt_entry_iff (h : t.IsSeparated rule eps) (hshape : t.HasShape n m) (heps : 0 ≤ eps)
    {entering : Entering F} (hentering : rule.entering? t = some entering) {i : Nat} (hi : i < m) :
    eps < t.entry i entering.column ↔ 0 < t.entry i entering.column := by
  refine ⟨fun hlt => heps.trans_lt hlt, fun hpos => ?_⟩
  by_contra! hle
  exact h.entry entering hentering i (hshape.rowCount_eq.symm ▸ hi) ⟨hpos, hle⟩

/-- The same rows limit the entering variable. -/
theorem candidates_withTolerance (h : t.IsSeparated rule eps) (hshape : t.HasShape n m)
    (ht : t.eps = 0) (heps : 0 ≤ eps) {entering : Entering F}
    (hentering : rule.entering? t = some entering) :
    (t.withTolerance eps).candidates entering.column = t.candidates entering.column := by
  refine List.filterMap_congr fun i hi => ?_
  have hi' : i < m := hshape.rowCount_eq ▸ List.mem_range.mp hi
  refine if_congr ?_ rfl rfl
  rw [ht]
  exact h.lt_entry_iff hshape heps hentering hi'

variable [IsStrictOrderedRing F]

/-- A relative cost is beyond the tolerance as soon as it is negative. -/
theorem relativeCost_lt_iff (h : t.IsSeparated rule eps) (hshape : t.HasShape n m) (heps : 0 ≤ eps)
    {j : Nat} (hj : j < n + m) : t.relativeCost j < -eps ↔ t.relativeCost j < 0 := by
  refine ⟨fun hlt => hlt.trans_le (neg_nonpos.mpr heps), fun hneg => ?_⟩
  by_contra! hge
  exact h.cost j (hshape.columnCount_eq.symm ▸ hj) ⟨hge, hneg⟩

/-- The flag is the same with the tolerance and without. -/
theorem isOptimal_withTolerance (h : t.IsSeparated rule eps) (hshape : t.HasShape n m)
    (ht : t.eps = 0) (heps : 0 ≤ eps) : (t.withTolerance eps).isOptimal = t.isOptimal := by
  rw [Bool.eq_iff_iff, hshape.isOptimal_iff, (hshape.withTolerance eps).isOptimal_iff, ht, neg_zero]
  refine forall₂_congr fun j hj => ?_
  rw [← not_lt, ← not_lt]
  exact not_congr (h.relativeCost_lt_iff hshape heps hj)

/-- The same variables may enter the basis. -/
theorem profitable_withTolerance (h : t.IsSeparated rule eps) (hshape : t.HasShape n m)
    (ht : t.eps = 0) (heps : 0 ≤ eps) : (t.withTolerance eps).profitable = t.profitable := by
  refine List.filterMap_congr ?_
  rintro ⟨cost, j⟩ hmem
  have hcost := List.mk_mem_zipIdx_iff_getElem?.mp hmem
  have hj : j < n + m := by
    rw [← hshape.length_relativeCosts]
    exact (List.getElem?_eq_some_iff.mp hcost).1
  obtain rfl := Option.some.inj ((hshape.getElem?_relativeCosts hj).symm.trans hcost)
  have hiff := h.relativeCost_lt_iff hshape heps hj
  simp only [ht, neg_zero, withTolerance, isBasic, hiff]

/-- **A rule lets the same variable enter.** -/
theorem entering?_withTolerance (h : t.IsSeparated rule eps) (hshape : t.HasShape n m)
    (ht : t.eps = 0) (heps : 0 ≤ eps) :
    rule.entering? (t.withTolerance eps) = rule.entering? t := by
  simp only [PivotRule.entering?, h.profitable_withTolerance hshape ht heps]

/-- **A rule chooses the same row.** -/
theorem leavingRow?_withTolerance (h : t.IsSeparated rule eps) (hshape : t.HasShape n m)
    (ht : t.eps = 0) (heps : 0 ≤ eps) {entering : Entering F}
    (hentering : rule.entering? t = some entering) :
    rule.leavingRow? (t.withTolerance eps) entering.column =
      rule.leavingRow? t entering.column := by
  have hseparated : ∀ a ∈ t.candidates entering.column, ∀ b ∈ t.candidates entering.column,
      Candidate.AreSeparated eps a b := by
    intro a ha b hb
    obtain ⟨i, hi, hpos, rfl⟩ := hshape.mem_candidates.mp ha
    obtain ⟨k, hk, hpos', rfl⟩ := hshape.mem_candidates.mp hb
    rw [ht] at hpos hpos'
    rw [← hshape.rowCount_eq] at hi hk
    exact h.ratio entering hentering i hi k hk hpos hpos'
  have hbest := Candidate.best?_of_areSeparated rule.tieBreak heps hseparated
  rw [← ht] at hbest
  simp only [PivotRule.leavingRow?, leavingRow?,
    h.candidates_withTolerance hshape ht heps hentering, ← hbest]
  rfl

end IsSeparated

end Tableau

/-! ## Runs through separated tableaus -/

namespace Run

variable {F : Type}

/-- The run with another tolerance in all its tableaus. -/
def withTolerance (eps : F) (run : Run F) : Run F :=
  ⟨run.steps.map fun (pivot, t) => (pivot, t.withTolerance eps), run.ending⟩

/-- A run with another tolerance ends at the same tableau, up to the tolerance. -/
theorem final_withTolerance (eps : F) (start : Tableau F) (run : Run F) :
    (run.withTolerance eps).final (start.withTolerance eps) =
      (run.final start).withTolerance eps := by
  have htableaus : (run.withTolerance eps).steps.map Prod.snd =
      (run.steps.map Prod.snd).map (Tableau.withTolerance eps) := by
    simp only [withTolerance, List.map_map, Function.comp_def]
  rw [final, htableaus, List.getLastD_map, final]

variable [Neg F] [LE F] [DecidableLE F]

/-- A run with another tolerance has the same trace if it has the same flags. -/
theorem trace_withTolerance {eps : F} {start : Tableau F} {run : Run F}
    (hstart : (start.withTolerance eps).isOptimal = start.isOptimal)
    (hsteps : ∀ step ∈ run.steps, (step.2.withTolerance eps).isOptimal = step.2.isOptimal) :
    (run.withTolerance eps).trace (start.withTolerance eps) = run.trace start := by
  have hrecord : ∀ (k : Nat) (t : Tableau F) (pivot : Option (Pivot F)),
      (t.withTolerance eps).isOptimal = t.isOptimal →
        Record.of k (t.withTolerance eps) pivot = Record.of k t pivot := by
    intro k t pivot hflag
    rw [Record.of, hflag]
    rfl
  have hrecords : (run.withTolerance eps).steps.mapIdx
        (fun k (pivot, t) => Record.of (k + 1) t (some pivot)) =
      run.steps.mapIdx fun k (pivot, t) => Record.of (k + 1) t (some pivot) := by
    refine List.ext_getElem? fun k => ?_
    simp only [withTolerance, List.getElem?_mapIdx, List.getElem?_map]
    rcases hstep : run.steps[k]? with - | step
    · rfl
    · exact congrArg some (hrecord _ _ _ (hsteps step (List.mem_of_getElem? hstep)))
  rw [trace, hrecords, hrecord _ _ _ hstart]
  rfl

/-- A run with another tolerance has the same answer if it has the same flags. -/
theorem outcome_withTolerance [Zero F] {eps : F} {start : Tableau F} {run : Run F}
    (hstart : (start.withTolerance eps).isOptimal = start.isOptimal)
    (hsteps : ∀ step ∈ run.steps, (step.2.withTolerance eps).isOptimal = step.2.isOptimal) :
    (run.withTolerance eps).outcome (start.withTolerance eps) = run.outcome start := by
  simp only [outcome, trace_withTolerance hstart hsteps, final_withTolerance]
  rfl

end Run

section Runs

variable {F : Type} [Field F] [LinearOrder F] [IsStrictOrderedRing F] {rule : PivotRule}
  {t : Tableau F} {eps : F} {n m limit : Nat}

/-- **A run through separated tableaus is the same with the tolerance and without.** -/
theorem Tableau.run_withTolerance (hshape : t.HasShape n m) (ht : t.eps = 0) (heps : 0 ≤ eps)
    (h : ∀ k ≤ (t.run rule limit).steps.length, (t.after rule k).IsSeparated rule eps) :
    (t.withTolerance eps).run rule limit = (t.run rule limit).withTolerance eps := by
  -- the induction is on the limit, which the run recurses on, and takes a tableau off the front
  induction limit generalizing t with
  | zero =>
    have hsame := (h 0 (Nat.zero_le _)).entering?_withTolerance hshape ht heps
    rw [after_zero] at hsame
    rcases hentering : rule.entering? t with - | entering
    · rw [run_optimal _ hentering, run_optimal _ (hsame.trans hentering)]
      rfl
    · rw [run_zero hentering, run_zero (hsame.trans hentering)]
      rfl
  | succ limit ih =>
    have hfirst : t.IsSeparated rule eps := h 0 (Nat.zero_le _)
    have hsame := hfirst.entering?_withTolerance hshape ht heps
    rcases hentering : rule.entering? t with - | entering
    · rw [run_optimal _ hentering, run_optimal _ (hsame.trans hentering)]
      rfl
    have hsame' := hfirst.leavingRow?_withTolerance hshape ht heps hentering
    rcases hrow : rule.leavingRow? t entering.column with - | row
    · rw [run_unbounded _ hentering hrow,
        run_unbounded _ (hsame.trans hentering) (hsame'.trans hrow)]
      rfl
    · have hstep : t.step? rule =
          some (t.pivotAt row entering.column, t.pivot row entering.column) :=
        step?_eq_some_iff.mpr ⟨entering, row, hentering, hrow, rfl⟩
      have hpivot := (hshape.isAdmissible hentering hrow).hasShape_pivot hshape
      have hrest := ih hpivot ht fun k hk => by
        rw [← after_succ_of_step? hstep]
        refine h (k + 1) ?_
        rw [run_of_step? limit hstep]
        exact Nat.succ_le_succ hk
      -- the pivot leads to the same rows and the same basis
      have hcommutes : (t.withTolerance eps).pivot row entering.column =
          (t.pivot row entering.column).withTolerance eps := rfl
      rw [run_pivot _ hentering hrow, run_pivot _ (hsame.trans hentering) (hsame'.trans hrow),
        hcommutes, hrest]
      rfl

end Runs

/-! ## Answers -/

section Answers

variable {F : Type} [Field F] [LinearOrder F] [IsStrictOrderedRing F] {problem : StandardForm F}
  {rule : PivotRule} {limit : Nat} {eps : F}

/-- **A tolerance is transparent on a well-separated problem.** If every tableau that is recorded
without a tolerance is separated, then the answer with the tolerance is the same: the outcome, the
solution and its objective value, and the trace with all its pivots and flags. -/
theorem tolerance_is_transparent (h : problem.IsWellFormed) (heps : 0 ≤ eps)
    (hseparated : ∀ record ∈ (solve rule limit 0 problem).trace.records,
      (record.tableau problem.variableCount 0).IsSeparated rule eps) :
    solve rule limit eps problem = solve rule limit 0 problem := by
  have hshape : ∀ k, ((Tableau.initial problem (0 : F)).after rule k).HasShape
      problem.variableCount problem.constraintCount := Tableau.hasShape_after h rule
  have hzero : ∀ k, ((Tableau.initial problem (0 : F)).after rule k).eps = 0 :=
    fun k => Tableau.eps_after rule k _
  have hruns : ∀ k ≤ ((Tableau.initial problem (0 : F)).run rule limit).steps.length,
      ((Tableau.initial problem (0 : F)).after rule k).IsSeparated rule eps := by
    intro k hk
    have hmem := List.mem_of_getElem? (Tableau.getElem?_records rule limit k _ hk)
    rw [← trace_solve] at hmem
    have hrecord := hseparated _ hmem
    rwa [Record.tableau_of (hshape k).decisionCount_eq (hzero k)] at hrecord
  have hflags : ∀ k ≤ ((Tableau.initial problem (0 : F)).run rule limit).steps.length,
      (((Tableau.initial problem (0 : F)).after rule k).withTolerance eps).isOptimal =
        ((Tableau.initial problem (0 : F)).after rule k).isOptimal :=
    fun k hk => (hruns k hk).isOptimal_withTolerance (hshape k) (hzero k) heps
  have hrun := Tableau.run_withTolerance (Tableau.hasShape_initial h) rfl heps hruns
  calc
    solve rule limit eps problem =
        (((Tableau.initial problem 0).withTolerance eps).run rule limit).outcome
          ((Tableau.initial problem 0).withTolerance eps) := rfl
    _ = (((Tableau.initial problem 0).run rule limit).withTolerance eps).outcome
          ((Tableau.initial problem 0).withTolerance eps) := by rw [hrun]
    _ = solve rule limit 0 problem := by
      refine Run.outcome_withTolerance (hflags 0 (Nat.zero_le _)) fun step hstep => ?_
      obtain ⟨k, hk, heq⟩ := Tableau.exists_eq_after_of_mem_steps hstep
      rw [heq]
      exact hflags k hk

/-- The degenerate problem is well-separated at the tolerance `1 / 20` under Bland's rule: its rows
tie in three of the seven pivots, always with the ratio zero, and the other ratios are at least
`1 / 11`. -/
theorem tolerance_is_transparent_degenerate :
    (∀ record ∈ (solve .bland 100 0 StandardForm.degenerate).trace.records,
      (record.tableau 4 0).IsSeparated .bland (1 / 20)) ∧
      solve .bland 100 (1 / 20) StandardForm.degenerate =
        solve .bland 100 0 StandardForm.degenerate := by
  have hwellFormed : StandardForm.degenerate.IsWellFormed := by decide +kernel
  have hseparated : ∀ record ∈ (solve .bland 100 0 StandardForm.degenerate).trace.records,
      (record.tableau 4 0).IsSeparated .bland (1 / 20) := by
    decide +kernel
  exact ⟨hseparated, tolerance_is_transparent hwellFormed (by decide +kernel) hseparated⟩

end Answers

end PrimalSimplex
