import Mathlib.Data.Prod.Lex
import Mathlib.Order.Bounds.Basic
import PrimalSimplex.Proofs.Answer
import PrimalSimplex.Proofs.History

/-!
# Tests for optimality

Whether a tableau is optimal is asked in three places. The flag of a record looks at the relative
costs of *all* variables (`Tableau.isOptimal`); each of the two rules looks for a variable that may
enter the basis, and passes over the basic ones. That the three answers agree is not due to these
definitions: a tableau with a negative relative cost at a basic variable would be optimal to the
rules and not to the flag. But no run reaches such a tableau, since a pivot keeps the relative costs
of the basic variables at zero (`Tableau.Represents.relativeCost_of_mem`).

For the same reason what the rules choose can be said without the basis. Bland's rule takes the
first of all variables with a relative cost beyond the tolerance
(`Tableau.Represents.isLeast_of_bland`), and Dantzig's rule the first of all variables with the
least relative cost (`Tableau.Represents.isLeast_of_dantzig`).
-/

namespace PrimalSimplex

/-! ## The cheapest variable -/

namespace Entering

variable {F : Type} [LinearOrder F]

/-- What Dantzig's rule compares variables by: the cost, and between equal costs the column. -/
def rank (entering : Entering F) : F ×ₗ Nat := toLex (entering.cost, entering.column)

/-- The cheaper of two variables has the lower rank, if the first comes first. -/
theorem cheaper_cases {best next : Entering F} (h : best.column < next.column) :
    best.cheaper next = best ∧ best.rank ≤ next.rank ∨
      best.cheaper next = next ∧ next.rank ≤ best.rank := by
  simp only [cheaper, rank, Prod.Lex.toLex_le_toLex']
  split
  · rename_i hlt
    exact Or.inr ⟨rfl, hlt.le, fun heq => absurd heq hlt.ne⟩
  · rename_i hge
    exact Or.inl ⟨rfl, not_lt.mp hge, fun _ => h.le⟩

end Entering

namespace Tableau

/-- **Dantzig's rule chooses the variable of the lowest rank** among those that may enter. -/
theorem rank_le_of_dantzig {F : Type} [Neg F] [LinearOrder F] {t : Tableau F}
    {entering : Entering F} (h : PivotRule.dantzig.entering? t = some entering) :
    ∀ other ∈ t.profitable, entering.rank ≤ other.rank := by
  have hpairwise := t.pairwise_profitable
  simp only [PivotRule.entering?] at h
  rcases hprofitable : t.profitable with - | ⟨first, rest⟩
  · simp
  · rw [hprofitable] at h hpairwise
    obtain rfl := Option.some.inj h
    exact (foldl_choice (fun a b => a.rank ≤ b.rank) (fun a b => a.column < b.column)
      (fun _ => le_refl _) (fun _ _ _ => le_trans) (fun _ _ => Entering.cheaper_cases) first rest
      hpairwise).2

/-! ## The flag and the rules -/

/-- The flag looks at all relative costs. -/
theorem HasShape.isOptimal_iff {F : Type} [Zero F] [Neg F] [LE F] [DecidableLE F] {t : Tableau F}
    {n m : Nat} (h : t.HasShape n m) :
    t.isOptimal = true ↔ ∀ j < n + m, -t.eps ≤ t.relativeCost j := by
  simp only [isOptimal, List.all_eq_true, decide_eq_true_eq]
  refine ⟨fun hall j hj => ?_, fun hall cost hcost => ?_⟩
  · exact hall _ (List.mem_of_getElem? (h.getElem?_relativeCosts hj))
  · obtain ⟨j, hj⟩ := List.mem_iff_getElem?.mp hcost
    have hlt : j < n + m := by
      rw [← h.length_relativeCosts]
      exact (List.getElem?_eq_some_iff.mp hj).1
    rw [h.getElem?_relativeCosts hlt] at hj
    rw [← Option.some.inj hj]
    exact hall j hlt

variable {F : Type} [Field F] [LinearOrder F] [IsStrictOrderedRing F] {problem : StandardForm F}
  {t : Tableau F} {rule : PivotRule} {entering : Entering F}

/-- **The flag says what both rules say.** -/
theorem Represents.isOptimal_iff (h : t.Represents problem) (heps : 0 ≤ t.eps) :
    t.isOptimal = true ↔ rule.entering? t = none := by
  rw [h.hasShape.isOptimal_iff]
  refine ⟨fun hall => ?_, fun hnone j hj => h.neg_eps_le_relativeCost heps hnone hj⟩
  exact h.hasShape.entering?_eq_none_iff.mpr fun j hj _ => not_lt.mpr (hall j hj)

/-- A variable may enter the basis as soon as its relative cost is beyond the tolerance: it is not
basic then. -/
theorem Represents.mem_profitable_iff (h : t.Represents problem) (heps : 0 ≤ t.eps) :
    entering ∈ t.profitable ↔
      entering.column < problem.variableCount + problem.constraintCount ∧
        entering.cost = t.relativeCost entering.column ∧
        t.relativeCost entering.column < -t.eps := by
  rw [h.hasShape.mem_profitable]
  refine ⟨fun ⟨hlt, _, hcost, hneg⟩ => ⟨hlt, hcost, hneg⟩,
    fun ⟨hlt, hcost, hneg⟩ => ⟨hlt, fun hbasic => ?_, hcost, hneg⟩⟩
  rw [h.relativeCost_of_mem hbasic] at hneg
  exact hneg.not_ge (neg_nonpos.mpr heps)

/-- **Bland's rule chooses the first variable with a relative cost beyond the tolerance.** -/
theorem Represents.isLeast_of_bland (h : t.Represents problem) (heps : 0 ≤ t.eps)
    (hentering : PivotRule.bland.entering? t = some entering) :
    IsLeast {j | j < problem.variableCount + problem.constraintCount ∧
      t.relativeCost j < -t.eps} entering.column := by
  obtain ⟨hlt, -, hneg⟩ := (h.mem_profitable_iff heps).mp (mem_profitable_of_entering? hentering)
  refine ⟨⟨hlt, hneg⟩, fun j ⟨hj, hcost⟩ => ?_⟩
  have hmem : (⟨j, t.relativeCost j⟩ : Entering F) ∈ t.profitable :=
    (h.mem_profitable_iff heps).mpr ⟨hj, rfl, hcost⟩
  obtain ⟨-, hbasic, -, -⟩ := h.hasShape.mem_profitable.mp hmem
  exact h.hasShape.le_of_bland_entering? hentering hj hbasic hcost

/-- **Dantzig's rule chooses the first variable with the least relative cost.** -/
theorem Represents.isLeast_of_dantzig (h : t.Represents problem) (heps : 0 ≤ t.eps)
    (hentering : PivotRule.dantzig.entering? t = some entering) :
    IsLeast {j | j < problem.variableCount + problem.constraintCount ∧
      ∀ k < problem.variableCount + problem.constraintCount,
        t.relativeCost j ≤ t.relativeCost k} entering.column := by
  obtain ⟨hlt, hcost, hneg⟩ :=
    (h.mem_profitable_iff heps).mp (mem_profitable_of_entering? hentering)
  have hrank : ∀ j < problem.variableCount + problem.constraintCount,
      t.relativeCost j < -t.eps →
        entering.cost ≤ t.relativeCost j ∧
          (entering.cost = t.relativeCost j → entering.column ≤ j) := by
    intro j hj hj'
    have hmem : (⟨j, t.relativeCost j⟩ : Entering F) ∈ t.profitable :=
      (h.mem_profitable_iff heps).mpr ⟨hj, rfl, hj'⟩
    exact Prod.Lex.toLex_le_toLex'.mp (rank_le_of_dantzig hentering _ hmem)
  have hleast : ∀ k < problem.variableCount + problem.constraintCount,
      t.relativeCost entering.column ≤ t.relativeCost k := by
    intro k hk
    -- a variable that may not enter costs more than any that may
    rcases lt_or_ge (t.relativeCost k) (-t.eps) with hk' | hk'
    · rw [← hcost]
      exact (hrank k hk hk').1
    · exact hneg.le.trans hk'
  refine ⟨⟨hlt, hleast⟩, fun j ⟨hj, hj'⟩ => ?_⟩
  have heq : t.relativeCost j = t.relativeCost entering.column :=
    le_antisymm (hj' _ hlt) (hleast j hj)
  exact (hrank j hj (heq.trans_lt hneg)).2 (hcost.trans heq.symm)

/-- Where the flag is not set, both rules choose a variable. -/
theorem Represents.exists_chosen (h : t.Represents problem) (heps : 0 ≤ t.eps)
    (hflag : t.isOptimal = false) (rule : PivotRule) :
    ∃ entering, rule.entering? t = some entering ∧
      entering.cost = t.relativeCost entering.column := by
  obtain ⟨entering, hentering⟩ := Option.ne_none_iff_exists'.mp fun hnone =>
    Bool.false_ne_true (hflag.symm.trans ((h.isOptimal_iff heps).mpr hnone))
  obtain ⟨-, hcost, -⟩ := (h.mem_profitable_iff heps).mp (mem_profitable_of_entering? hentering)
  exact ⟨entering, hentering, hcost⟩

end Tableau

/-! ## Traces -/

section Traces

variable {F : Type} [Field F] [LinearOrder F] [IsStrictOrderedRing F] {problem : StandardForm F}
  {rule : PivotRule} {limit : Nat} {eps : F}

omit [IsStrictOrderedRing F] in
/-- Every record shows a tableau that represents the problem, and the flag of that tableau. -/
theorem tableau_of_mem_records (h : problem.IsWellFormed) (heps : 0 ≤ eps) {record : Record F}
    (hrecord : record ∈ (solve rule limit eps problem).trace.records) :
    (record.tableau problem.variableCount eps).Represents problem ∧
      record.isOptimal = (record.tableau problem.variableCount eps).isOptimal := by
  obtain ⟨k, pivot, rfl⟩ := exists_eq_of_mem_records hrecord
  have ht := Tableau.represents_after h heps rule k
  have hteps : ((Tableau.initial problem eps).after rule k).eps = eps := Tableau.eps_after rule k _
  rw [Record.tableau_of ht.hasShape.decisionCount_eq hteps]
  exact ⟨ht, rfl⟩

/-- The flag of a record is set exactly where no variable may enter the basis. -/
theorem isOptimal_of_iff (h : problem.IsWellFormed) (heps : 0 ≤ eps) (k : Nat)
    (pivot : Option (Pivot F)) :
    (Record.of k ((Tableau.initial problem eps).after rule k) pivot).isOptimal = true ↔
      rule.entering? ((Tableau.initial problem eps).after rule k) = none := by
  refine (Tableau.represents_after h heps rule k).isOptimal_iff ?_
  rw [Tableau.eps_after]
  exact heps

/-- The flag of a record before the last one is not set. -/
theorem isOptimal_of_lt_pivotCount (h : problem.IsWellFormed) (heps : 0 ≤ eps) {k : Nat}
    (hk : k < (solve rule limit eps problem).trace.pivotCount) (pivot : Option (Pivot F)) :
    (Record.of k ((Tableau.initial problem eps).after rule k) pivot).isOptimal = false := by
  obtain ⟨step, hstep, -⟩ := exists_step?_solve hk
  obtain ⟨entering, row, hentering, -⟩ := Tableau.step?_eq_some_iff.mp hstep
  rw [← Bool.not_eq_true, isOptimal_of_iff h heps, hentering]
  exact Option.some_ne_none _

/-- **The tests for optimality agree** on every recorded tableau: the flag is set exactly when
Bland's rule chooses no variable, and exactly when Dantzig's rule chooses none. Otherwise Bland's
rule chooses the first column with a relative cost beyond the tolerance, and Dantzig's rule the
first one with the least relative cost. So the flag is not set before the last record, and in the
last one it says whether the answer is an optimum. -/
theorem optimality_tests_agree (h : problem.IsWellFormed) (heps : 0 ≤ eps) :
    (∀ record ∈ (solve rule limit eps problem).trace.records,
      ∀ t, t = record.tableau problem.variableCount eps →
        record.isOptimal = t.isOptimal ∧
        (t.isOptimal = true ↔ PivotRule.bland.entering? t = none) ∧
        (t.isOptimal = true ↔ PivotRule.dantzig.entering? t = none) ∧
        (t.isOptimal = false → ∃ first cheapest,
          PivotRule.bland.entering? t = some first ∧
          first.cost = t.relativeCost first.column ∧
          IsLeast {j | j < problem.variableCount + problem.constraintCount ∧
            t.relativeCost j < -eps} first.column ∧
          PivotRule.dantzig.entering? t = some cheapest ∧
          cheapest.cost = t.relativeCost cheapest.column ∧
          IsLeast {j | j < problem.variableCount + problem.constraintCount ∧
            ∀ k < problem.variableCount + problem.constraintCount,
              t.relativeCost j ≤ t.relativeCost k} cheapest.column)) ∧
      (∀ (k : Nat) (record : Record F),
        (solve rule limit eps problem).trace.records[k]? = some record →
        k + 1 < (solve rule limit eps problem).trace.records.length →
        record.isOptimal = false) ∧
      ∃ last, (solve rule limit eps problem).trace.records.getLast? = some last ∧
        (last.isOptimal = true ↔
          ∃ optimum, solve rule limit eps problem = .optimal optimum) := by
  refine ⟨?_, ?_, ?_⟩
  · rintro record hrecord t rfl
    obtain ⟨ht, hflag⟩ := tableau_of_mem_records h heps hrecord
    refine ⟨hflag, ht.isOptimal_iff heps, ht.isOptimal_iff heps, fun hfalse => ?_⟩
    obtain ⟨first, hfirst, hcost⟩ := ht.exists_chosen heps hfalse .bland
    obtain ⟨cheapest, hcheapest, hcost'⟩ := ht.exists_chosen heps hfalse .dantzig
    exact ⟨first, cheapest, hfirst, hcost, ht.isLeast_of_bland heps hfirst, hcheapest, hcost',
      ht.isLeast_of_dantzig heps hcheapest⟩
  · intro k record hrecord hlt
    obtain rfl := eq_of_getElem?_records hrecord
    rw [length_records_solve] at hlt
    exact isOptimal_of_lt_pivotCount h heps (Nat.lt_of_succ_lt_succ hlt) _
  · obtain ⟨pivot, hlast⟩ := getLast?_records_solve rule limit eps problem
    refine ⟨_, hlast, ?_⟩
    rw [isOptimal_of_iff h heps, exists_optimal_iff]

/-- The flags of the degenerate run under Bland's rule. Dantzig's rule would have cycled, but it
finds the same tableau to be optimal. -/
theorem optimality_tests_agree_degenerate :
    StandardForm.degenerate.IsWellFormed ∧
      (solve .bland 100 0 StandardForm.degenerate).trace.records.map Record.isOptimal =
        [false, false, false, false, false, false, false, true] ∧
      ∀ record ∈ (solve .bland 100 0 StandardForm.degenerate).trace.records,
        record.isOptimal = true ↔ PivotRule.dantzig.entering? (record.tableau 4 0) = none := by
  have hwellFormed : StandardForm.degenerate.IsWellFormed := by decide +kernel
  refine ⟨hwellFormed, by decide +kernel, fun record hrecord => ?_⟩
  obtain ⟨hflag, -, htest, -⟩ :=
    (optimality_tests_agree hwellFormed (le_refl 0)).1 record hrecord _ rfl
  rw [hflag]
  exact htest

end Traces

end PrimalSimplex
