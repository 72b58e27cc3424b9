import PrimalSimplex.Proofs.History

/-!
# The limit on pivots

The limit has no part in the choice of a pivot. It only says where a run is cut off, so a run with a
smaller limit is a run with a larger one, cut short (`Tableau.run_eq_cut`). All else in this module
follows from that one equation.

Where a run has to be cut depends on how it ends. The loop looks for an entering variable first, at
the limit second, and for a leaving row last. So an optimal tableau is recognised with no pivot left
to make, but that nothing limits the entering variable is noticed only while one more pivot is
allowed: a run that ends as optimal after `p` pivots needs the limit `p`, and one that ends as
unbounded after `p` pivots needs the limit `p + 1` (`Run.limitNeeded`).

Nothing is assumed about the arithmetic.
-/

namespace PrimalSimplex

/-! ## Cutting a run -/

namespace Run

variable {F : Type} {limit : Nat}

/-- The least limit under which a run comes to its end. -/
def limitNeeded (run : Run F) : Nat :=
  match run.ending with
  | .optimal => run.steps.length
  | .unbounded _ => run.steps.length + 1
  | .limitReached => run.steps.length

/-- The run, cut off at the limit if it needs a larger one. -/
def cut (limit : Nat) (run : Run F) : Run F :=
  if run.limitNeeded ≤ limit then run else ⟨run.steps.take limit, .limitReached⟩

theorem cut_of_le {run : Run F} (h : run.limitNeeded ≤ limit) : run.cut limit = run := if_pos h

theorem cut_of_lt {run : Run F} (h : limit < run.limitNeeded) :
    run.cut limit = ⟨run.steps.take limit, .limitReached⟩ := if_neg (Nat.not_le.mpr h)

/-- A pivot more needs a larger limit. -/
theorem limitNeeded_cons (step : Pivot F × Tableau F) (run : Run F) :
    (⟨step :: run.steps, run.ending⟩ : Run F).limitNeeded = run.limitNeeded + 1 := by
  obtain ⟨steps, ending⟩ := run
  cases ending <;> rfl

/-- Cutting a run after its first pivot cuts what comes after that pivot. -/
theorem cut_cons (step : Pivot F × Tableau F) (run : Run F) (limit : Nat) :
    (⟨step :: run.steps, run.ending⟩ : Run F).cut (limit + 1) =
      ⟨step :: (run.cut limit).steps, (run.cut limit).ending⟩ := by
  rcases Nat.lt_or_ge limit run.limitNeeded with hlt | hle
  · rw [cut_of_lt hlt, cut_of_lt (by rw [limitNeeded_cons]; omega), List.take_succ_cons]
  · rw [cut_of_le hle, cut_of_le (by rw [limitNeeded_cons]; omega)]

/-- The records of a run that is cut off are the first ones of the run. -/
theorem records_take [Neg F] [LE F] [DecidableLE F] (start : Tableau F) (run : Run F)
    (limit : Nat) (ending : Ending) :
    ((⟨run.steps.take limit, ending⟩ : Run F).trace start).records =
      (run.trace start).records.take (limit + 1) := by
  simp only [trace, List.take_succ_cons, List.cons.injEq, true_and]
  refine List.ext_getElem? fun k => ?_
  simp only [List.getElem?_mapIdx, List.getElem?_take]
  split <;> rfl

end Run

/-! ## Runs with two limits -/

namespace Tableau

variable {F : Type} [Zero F] [Sub F] [Neg F] [Mul F] [Div F] [LT F] [LE F] [DecidableLT F]
  [DecidableLE F] [BEq F] {rule : PivotRule} {t : Tableau F} {limit limit' : Nat}

/-- **A run with a smaller limit is one with a larger limit, cut off.** -/
theorem run_eq_cut (rule : PivotRule) (h : limit ≤ limit') (t : Tableau F) :
    t.run rule limit = (t.run rule limit').cut limit := by
  -- the induction is on the smaller limit, and a pivot takes one off both of them
  induction limit generalizing limit' t with
  | zero =>
    rcases hentering : rule.entering? t with - | entering
    · rw [run_optimal _ hentering, run_optimal _ hentering, Run.cut_of_le (Nat.zero_le _)]
    rw [run_zero hentering]
    cases limit' with
    | zero => rw [run_zero hentering, Run.cut_of_le (Nat.zero_le 0)]
    | succ limit' =>
      rcases hrow : rule.leavingRow? t entering.column with - | row
      · rw [run_unbounded _ hentering hrow, Run.cut_of_lt Nat.one_pos, List.take_zero]
      · rw [run_pivot _ hentering hrow, Run.cut_of_lt (by rw [Run.limitNeeded_cons]; omega),
          List.take_zero]
  | succ limit ih =>
    obtain ⟨limit', rfl⟩ := Nat.exists_eq_succ_of_ne_zero (Nat.ne_zero_of_lt h)
    rcases hentering : rule.entering? t with - | entering
    · rw [run_optimal _ hentering, run_optimal _ hentering, Run.cut_of_le (Nat.zero_le _)]
    rcases hrow : rule.leavingRow? t entering.column with - | row
    · rw [run_unbounded _ hentering hrow, run_unbounded _ hentering hrow,
        Run.cut_of_le (Nat.succ_le_succ (Nat.zero_le _))]
    · rw [run_pivot _ hentering hrow, run_pivot _ hentering hrow, Run.cut_cons,
        ← ih (Nat.le_of_succ_le_succ h)]

/-- A run needs no larger limit than it has. -/
theorem limitNeeded_run_le (rule : PivotRule) (limit : Nat) (t : Tableau F) :
    (t.run rule limit).limitNeeded ≤ limit := by
  by_contra! hlt
  -- otherwise the run would have been cut off, and then it needs as much as it has pivots
  have hcut := run_eq_cut rule (Nat.le_refl limit) t
  rw [Run.cut_of_lt hlt] at hcut
  rw [hcut] at hlt
  exact hlt.not_ge (List.length_take_le _ _)

/-- **A run that comes to its end does so under every limit that is large enough.** -/
theorem run_eq_of_limitNeeded_le (hending : (t.run rule limit).ending ≠ .limitReached)
    (h : (t.run rule limit).limitNeeded ≤ limit') : t.run rule limit' = t.run rule limit := by
  rcases Nat.le_total limit' limit with hle | hle
  · rw [run_eq_cut rule hle, Run.cut_of_le h]
  · have hcut := run_eq_cut rule hle t
    rcases Nat.lt_or_ge limit (t.run rule limit').limitNeeded with hlt | hge
    · rw [Run.cut_of_lt hlt] at hcut
      exact absurd (congrArg Run.ending hcut) hending
    · rw [Run.cut_of_le hge] at hcut
      exact hcut.symm

/-- **A run does not come to its end under a limit that is too small.** -/
theorem ending_run_of_lt_limitNeeded (h : limit' < (t.run rule limit).limitNeeded) :
    (t.run rule limit').ending = .limitReached := by
  have hle : limit' ≤ limit := (h.trans_le (limitNeeded_run_le rule limit t)).le
  rw [run_eq_cut rule hle, Run.cut_of_lt h]

/-- **A run that reaches its limit has made the first pivots of a longer one.** -/
theorem steps_run_of_limitReached (hending : (t.run rule limit).ending = .limitReached)
    (h : limit ≤ limit') : (t.run rule limit).steps = (t.run rule limit').steps.take limit := by
  have hends := endsAt_run rule limit t
  rw [hending] at hends
  have hcut := run_eq_cut rule h t
  rcases Nat.lt_or_ge limit (t.run rule limit').limitNeeded with hlt | hge
  · rw [Run.cut_of_lt hlt] at hcut
    rw [hcut]
  · rw [Run.cut_of_le hge] at hcut
    rw [← hcut, List.take_of_length_le hends.1.le]

end Tableau

/-! ## Answers -/

section Answers

variable {F : Type} [Zero F] [One F] [Sub F] [Neg F] [Mul F] [Div F] [LT F] [LE F] [DecidableLT F]
  [DecidableLE F] [BEq F] {rule : PivotRule} {limit limit' : Nat} {eps : F}
  {problem : StandardForm F}

/-- The limit that an optimum needs is the number of its pivots. -/
theorem limitNeeded_of_optimal {optimum : Optimum F}
    (h : solve rule limit eps problem = .optimal optimum) :
    ((Tableau.initial problem eps).run rule limit).ending ≠ .limitReached ∧
      ((Tableau.initial problem eps).run rule limit).limitNeeded = optimum.trace.pivotCount := by
  obtain ⟨hending, -⟩ := Run.outcome_eq_optimal_iff.mp h
  have hcount := pivotCount_solve rule limit eps problem
  simp only [h, Outcome.trace] at hcount
  simp [Run.limitNeeded, hending, hcount]

/-- The limit that is needed to find a problem unbounded is one more than the number of pivots. -/
theorem limitNeeded_of_unbounded {trace : Trace F}
    (h : solve rule limit eps problem = .unbounded trace) :
    ((Tableau.initial problem eps).run rule limit).ending ≠ .limitReached ∧
      ((Tableau.initial problem eps).run rule limit).limitNeeded = trace.pivotCount + 1 := by
  obtain ⟨⟨column, hending⟩, -⟩ := Run.outcome_eq_unbounded_iff.mp h
  have hcount := pivotCount_solve rule limit eps problem
  simp only [h, Outcome.trace] at hcount
  simp [Run.limitNeeded, hending, hcount]

/-- An answer is open under a limit that is too small for the run. -/
theorem nonConvergent_of_lt_limitNeeded
    (h : limit' < ((Tableau.initial problem eps).run rule limit).limitNeeded) :
    ∃ trace, solve rule limit' eps problem = .nonConvergent trace :=
  ⟨_, Run.outcome_eq_nonConvergent_iff.mpr ⟨Tableau.ending_run_of_lt_limitNeeded h, rfl⟩⟩

/-- An answer is the same under every limit that is large enough for the run. -/
theorem solve_eq_of_limitNeeded_le
    (hending : ((Tableau.initial problem eps).run rule limit).ending ≠ .limitReached)
    (h : ((Tableau.initial problem eps).run rule limit).limitNeeded ≤ limit') :
    solve rule limit' eps problem = solve rule limit eps problem := by
  simp only [solve, Tableau.run_eq_of_limitNeeded_le hending h]

/-- The trace of a run that reaches its limit is the beginning of that of a longer run. -/
theorem trace_of_nonConvergent {trace : Trace F}
    (h : solve rule limit eps problem = .nonConvergent trace) (hle : limit ≤ limit') :
    trace.pivotCount = limit ∧ trace.records.length = limit + 1 ∧
      trace.names = (solve rule limit' eps problem).trace.names ∧
      trace.records = (solve rule limit' eps problem).trace.records.take (limit + 1) := by
  have hcount := pivotCount_of_nonConvergent h
  have hlength := length_records_solve rule limit eps problem
  rw [hcount] at hlength
  rw [h] at hcount hlength
  refine ⟨hcount, hlength, ?_⟩
  obtain ⟨hending, rfl⟩ := Run.outcome_eq_nonConvergent_iff.mp h
  rw [trace_solve, ← Run.records_take _ _ _ .limitReached,
    ← Tableau.steps_run_of_limitReached hending hle]
  exact ⟨rfl, rfl⟩

/-- **The limit on pivots only truncates a run**, whatever the arithmetic does. An optimum or an
unbounded problem is found again, with the same trace, under every larger limit; a run that reaches
its limit has made that many pivots, and its records are the first ones under any larger limit. An
optimum is found under exactly those limits that allow for its pivots, and an unbounded problem
under exactly those that allow for one pivot more. -/
theorem limit_only_truncates (rule : PivotRule) (eps : F) (problem : StandardForm F) :
    (∀ limit limit', limit ≤ limit' →
      (∀ optimum, solve rule limit eps problem = .optimal optimum →
        solve rule limit' eps problem = .optimal optimum) ∧
      (∀ trace, solve rule limit eps problem = .unbounded trace →
        solve rule limit' eps problem = .unbounded trace) ∧
      ∀ trace, solve rule limit eps problem = .nonConvergent trace →
        trace.pivotCount = limit ∧ trace.records.length = limit + 1 ∧
          trace.names = (solve rule limit' eps problem).trace.names ∧
          trace.records = (solve rule limit' eps problem).trace.records.take (limit + 1)) ∧
      (∀ limit optimum, solve rule limit eps problem = .optimal optimum →
        (∀ limit', optimum.trace.pivotCount ≤ limit' →
          solve rule limit' eps problem = .optimal optimum) ∧
        ∀ limit' < optimum.trace.pivotCount,
          ∃ trace, solve rule limit' eps problem = .nonConvergent trace) ∧
      ∀ limit trace, solve rule limit eps problem = .unbounded trace →
        (∀ limit', trace.pivotCount + 1 ≤ limit' →
          solve rule limit' eps problem = .unbounded trace) ∧
        ∀ limit' ≤ trace.pivotCount,
          ∃ trace', solve rule limit' eps problem = .nonConvergent trace' := by
  have hoptimal : ∀ limit optimum, solve rule limit eps problem = .optimal optimum →
      ∀ limit', optimum.trace.pivotCount ≤ limit' →
        solve rule limit' eps problem = .optimal optimum := by
    intro limit optimum hsolve limit' hle
    obtain ⟨hending, hneeded⟩ := limitNeeded_of_optimal hsolve
    rw [← hsolve]
    exact solve_eq_of_limitNeeded_le hending (hneeded.trans_le hle)
  have hunbounded : ∀ limit trace, solve rule limit eps problem = .unbounded trace →
      ∀ limit', trace.pivotCount + 1 ≤ limit' →
        solve rule limit' eps problem = .unbounded trace := by
    intro limit trace hsolve limit' hle
    obtain ⟨hending, hneeded⟩ := limitNeeded_of_unbounded hsolve
    rw [← hsolve]
    exact solve_eq_of_limitNeeded_le hending (hneeded.trans_le hle)
  refine ⟨fun limit limit' hle => ⟨?_, ?_, ?_⟩, ?_, ?_⟩
  · intro optimum hsolve
    obtain ⟨-, hneeded⟩ := limitNeeded_of_optimal hsolve
    have hlimit := Tableau.limitNeeded_run_le rule limit (Tableau.initial problem eps)
    exact hoptimal limit optimum hsolve limit' (by omega)
  · intro trace hsolve
    obtain ⟨-, hneeded⟩ := limitNeeded_of_unbounded hsolve
    have hlimit := Tableau.limitNeeded_run_le rule limit (Tableau.initial problem eps)
    exact hunbounded limit trace hsolve limit' (by omega)
  · exact fun trace hsolve => trace_of_nonConvergent hsolve hle
  · intro limit optimum hsolve
    refine ⟨hoptimal limit optimum hsolve, fun limit' hlt => ?_⟩
    obtain ⟨-, hneeded⟩ := limitNeeded_of_optimal hsolve
    exact nonConvergent_of_lt_limitNeeded (hlt.trans_eq hneeded.symm)
  · intro limit trace hsolve
    refine ⟨hunbounded limit trace hsolve, fun limit' hle => ?_⟩
    obtain ⟨-, hneeded⟩ := limitNeeded_of_unbounded hsolve
    exact nonConvergent_of_lt_limitNeeded ((Nat.lt_succ_of_le hle).trans_eq hneeded.symm)

/-- Two problems of one or two pivots. The unbounded one takes a pivot, and a limit of two to be
found unbounded. The one whose numbers overflow takes two pivots, and a limit of two is enough. -/
theorem limit_only_truncates_smallest :
    (∃ trace, trace.pivotCount = 1 ∧
      (∀ limit, 2 ≤ limit → solve .bland limit 0 StandardForm.diagonal = .unbounded trace) ∧
      ∀ limit ≤ 1, ∃ trace', solve .bland limit 0 StandardForm.diagonal = .nonConvergent trace') ∧
      ∃ optimum, optimum.trace.pivotCount = 2 ∧
        (∀ limit, 2 ≤ limit →
          solve .bland limit 1e-10 StandardForm.overflowing = .optimal optimum) ∧
        ∀ limit < 2, ∃ trace,
          solve .bland limit 1e-10 StandardForm.overflowing = .nonConvergent trace := by
  refine ⟨?_, ?_⟩
  · have hsolve : solve .bland 2 0 StandardForm.diagonal =
        .unbounded (solve .bland 2 0 StandardForm.diagonal).trace := by
      decide +kernel
    have hcount : (solve .bland 2 0 StandardForm.diagonal).trace.pivotCount = 1 := by
      decide +kernel
    obtain ⟨hlarge, hsmall⟩ := (limit_only_truncates .bland 0 StandardForm.diagonal).2.2 2 _ hsolve
    rw [hcount] at hlarge hsmall
    exact ⟨_, hcount, hlarge, hsmall⟩
  · have hanswer : (solve .bland 2 1e-10 StandardForm.overflowing).optimum?.map
        (fun optimum => optimum.trace.pivotCount) = some 2 := by
      decide +kernel
    rcases hsolve : solve .bland 2 1e-10 StandardForm.overflowing with optimum | trace | trace
    · rw [hsolve] at hanswer
      have hcount : optimum.trace.pivotCount = 2 := Option.some.inj hanswer
      obtain ⟨hlarge, hsmall⟩ :=
        (limit_only_truncates .bland 1e-10 StandardForm.overflowing).2.1 2 optimum hsolve
      rw [hcount] at hlarge hsmall
      exact ⟨optimum, hcount, hlarge, hsmall⟩
    · rw [hsolve] at hanswer
      cases hanswer
    · rw [hsolve] at hanswer
      cases hanswer

end Answers

end PrimalSimplex
