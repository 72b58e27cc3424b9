import Mathlib.Data.Finset.Powerset
import PrimalSimplex.Proofs.BasicSolution

/-!
# Bland's rule never cycles

A run can come back to a basis only through pivots that do not move the basic solution, since the
objective value never falls and two tableaus with one basis have one basic solution. Nothing in the
arithmetic forbids such pivots; it is the choice of the lowest index, *twice*, that does.

Suppose a run comes back to a basis. Call a variable *fickle* (`IsFickle`) when it is basic at one
time on the way and not basic at another, and look at the last of the fickle variables. It leaves
the basis in some tableau `p` and enters it in some tableau `q`. The ray of `p` along its entering
column improves the objective, so `q` has a variable whose relative cost has the other sign than the
ray. That variable is fickle. It is not the last one, where the signs agree; and an earlier one
would have been a better choice than the last one, in `q` to enter or in `p` to leave. This clash of
two pivots is `Tableau.IsBland.clash`; the rest of the module finds the two pivots.

A basis is a set of `m` out of `n + m` columns, so a run that repeats none of them is short, and it
stops by itself when the limit allows for all of them.
-/

namespace PrimalSimplex

variable {F : Type} [Field F] [LinearOrder F] [IsStrictOrderedRing F] {problem : StandardForm F}

namespace Tableau

variable {t : Tableau F} {n m row column : Nat}

/-! ## Two pivots of Bland's rule -/

/-- What Bland's rule promises of a pivot when there is no tolerance: it is exact, and its two
choices are the first ones. -/
structure IsBland (n m : Nat) (t : Tableau F) (row column : Nat) : Prop
    extends t.IsExact n m row column where
  /-- the entering variable is the first that may enter -/
  column_le : ∀ j < n + m, j ∉ t.basis → t.relativeCost j < 0 → column ≤ j
  /-- the leaving variable is the first of those that limit the entering one most -/
  basicColumn_le : ∀ i < m, 0 < t.entry i column → t.ratio i column = t.ratio row column →
    t.basicColumn row ≤ t.basicColumn i

/-- The pivots of Bland's rule when there is no tolerance. -/
theorem HasShape.isBland_of_step? (h : t.HasShape n m) (heps : t.eps = 0)
    {step : Pivot F × Tableau F} (hstep : t.step? .bland = some step) :
    ∃ row column, t.IsBland n m row column ∧ step.2 = t.pivot row column := by
  obtain ⟨entering, row, hentering, hrow, rfl⟩ := step?_eq_some_iff.mp hstep
  refine ⟨row, entering.column, ⟨h.isExact heps hentering hrow, ?_, ?_⟩, rfl⟩
  · intro j hj hbasic hneg
    refine h.le_of_bland_entering? hentering hj hbasic ?_
    rwa [heps, neg_zero]
  · intro i hi hpos hratio
    exact (h.ratio_le_of_leavingRow? heps hrow hi hpos).2 rfl hratio

omit [LinearOrder F] [IsStrictOrderedRing F] in
/-- The ray of one tableau in the relative costs of another: they meet in the relative cost that the
first tableau gives to the column of its ray. -/
theorem Represents.sum_relativeCost_mul_direction {p q : Tableau F} (hp : p.Represents problem)
    (hq : q.Represents problem)
    (hcolumn : column < problem.variableCount + problem.constraintCount) :
    ∑ j ∈ Finset.range (problem.variableCount + problem.constraintCount),
      q.relativeCost j * p.direction column j = p.relativeCost column := by
  have hstart := hq.objectiveAt_eq_sub ((hp.isSolvedBy_iff _).mp hp.isSolvedBy_basicValue)
  have hend := hq.objectiveAt_eq_sub ((hp.isSolvedBy_iff _).mp (hp.isSolvedBy_along hcolumn 1))
  rw [hp.objectiveAt_basicValue] at hstart
  have hsplit : ∀ j, q.relativeCost j * p.along column 1 j =
      q.relativeCost j * p.basicValue j + q.relativeCost j * p.direction column j := by
    intro j
    rw [along]
    ring
  rw [hp.objectiveAt_along hcolumn, Finset.sum_congr rfl fun j _ => hsplit j,
    Finset.sum_add_distrib] at hend
  linear_combination hend - hstart

/-- Where a ray of one tableau improves the objective, another tableau has a variable whose relative
cost and whose change along the ray have opposite signs. -/
theorem Represents.exists_opposite_signs {p q : Tableau F} (hp : p.Represents problem)
    (hq : q.Represents problem)
    (hcolumn : column < problem.variableCount + problem.constraintCount)
    (hcost : p.relativeCost column < 0) :
    ∃ j < problem.variableCount + problem.constraintCount, (j = column ∨ j ∈ p.basis) ∧
      j ∉ q.basis ∧ q.relativeCost j * p.direction column j < 0 := by
  obtain ⟨j, hj, hneg⟩ : ∃ j ∈ Finset.range (problem.variableCount + problem.constraintCount),
      q.relativeCost j * p.direction column j < 0 := by
    by_contra! hnonneg
    have hsum := Finset.sum_nonneg hnonneg
    rw [hp.sum_relativeCost_mul_direction hq hcolumn] at hsum
    exact hsum.not_gt hcost
  refine ⟨j, Finset.mem_range.mp hj, ?_, ?_, hneg⟩
  · by_contra! hboth
    rw [direction_of_not_mem hboth.1 hboth.2, mul_zero] at hneg
    exact lt_irrefl 0 hneg
  · intro hbasic
    rw [hq.relativeCost_of_mem hbasic, zero_mul] at hneg
    exact lt_irrefl 0 hneg

/-- **Two pivots of Bland's rule clash** when they are made at the same basic solution, the variable
that leaves in the first enters in the second, and no variable after it is involved. -/
theorem IsBland.clash {p q : Tableau F} {row' : Nat} (hp : p.Represents problem)
    (hq : q.Represents problem)
    (hleaving : p.IsBland problem.variableCount problem.constraintCount row column)
    (hentering : q.IsBland problem.variableCount problem.constraintCount row' (p.basicColumn row))
    (hvalue : ∀ j < problem.variableCount + problem.constraintCount,
      p.basicValue j = q.basicValue j)
    (hlast : ∀ j, j = column ∨ j ∈ p.basis → j ∉ q.basis → j ≤ p.basicColumn row) : False := by
  have hzero : ∀ i < problem.constraintCount, p.basicColumn i ∉ q.basis →
      p.ratio i column = 0 := by
    intro i hi hnot
    rw [ratio, ← hp.hasShape.basicValue_basicColumn hi, hvalue _ (hp.hasShape.basicColumn_lt hi),
      basicValue_of_not_mem hnot, zero_div]
  obtain ⟨j, hj, hinvolved, hnot, hneg⟩ :=
    hp.exists_opposite_signs hq hleaving.column_lt hleaving.cost_neg
  rcases (hlast j hinvolved hnot).eq_or_lt with rfl | hlt
  · -- the last variable: its cost is negative in `q`, and it decreases along the ray of `p`
    rw [hp.hasShape.direction_basicColumn hleaving.not_mem hleaving.row_lt] at hneg
    exact (mul_pos_of_neg_of_neg hentering.cost_neg
      (neg_neg_of_pos hleaving.entry_pos)).not_gt hneg
  -- an earlier variable may not enter in `q`, so it decreases along the ray of `p`
  have hcost : 0 ≤ q.relativeCost j := by
    by_contra! hcost
    exact (hentering.column_le j hj hnot hcost).not_gt hlt
  have hdirection : p.direction column j < 0 := by
    by_contra! hdirection
    exact (mul_nonneg hcost hdirection).not_gt hneg
  rcases hinvolved with rfl | hbasic
  · rw [direction_self hleaving.not_mem] at hdirection
    exact zero_lt_one.not_gt hdirection
  · obtain ⟨i, hi, rfl⟩ := hp.hasShape.exists_basicColumn hbasic
    rw [hp.hasShape.direction_basicColumn hleaving.not_mem hi, neg_neg_iff_pos] at hdirection
    -- both rows have the ratio zero, and the earlier variable should have left
    have hratio : p.ratio i column = p.ratio row column := by
      rw [hzero i hi hnot, hzero row hleaving.row_lt hentering.not_mem]
    exact (hleaving.basicColumn_le i hi hdirection hratio).not_gt hlt

/-! ## Pivots that stay at the basic solution -/

/-- A pivot that does not change the objective value does not move the basic solution. -/
theorem Represents.basicValue_pivot_of_objectiveValue_eq (h : t.Represents problem)
    (hpivot : t.IsExact problem.variableCount problem.constraintCount row column)
    (hvalue : (t.pivot row column).objectiveValue = t.objectiveValue) :
    ∀ j < problem.variableCount + problem.constraintCount,
      (t.pivot row column).basicValue j = t.basicValue j := by
  rw [h.objectiveValue_pivot hpivot.row_lt hpivot.column_lt hpivot.not_mem hpivot.entry_pos.ne',
    sub_eq_self, mul_eq_zero, or_iff_left hpivot.cost_neg.ne] at hvalue
  intro j hj
  rw [h.basicValue_pivot hpivot.row_lt hpivot.column_lt hpivot.not_mem hpivot.entry_pos.ne' j hj,
    hvalue, along_zero]

end Tableau

/-! ## Sequences of pivots -/

/-- A sequence of feasible tableaus of a problem, of which the first `length` are followed by a
pivot of Bland's rule. -/
structure IsBlandRun (problem : StandardForm F) (s : Nat → Tableau F) (length : Nat) : Prop where
  /-- the tableaus represent the problem -/
  represents : ∀ k, (s k).Represents problem
  /-- their basic solutions are feasible -/
  isFeasible : ∀ k, (s k).IsFeasible
  /-- the pivots -/
  exists_pivot : ∀ k < length, ∃ row column,
    (s k).IsBland problem.variableCount problem.constraintCount row column ∧
      s (k + 1) = (s k).pivot row column

/-- A variable is fickle between two times when it is basic at one time and not basic at another
one. -/
def IsFickle (s : Nat → Tableau F) (first last column : Nat) : Prop :=
  (∃ k, first ≤ k ∧ k ≤ last ∧ column ∈ (s k).basis) ∧
    ∃ k, first ≤ k ∧ k ≤ last ∧ column ∉ (s k).basis

/-- What holds at one time and not at a later one stops holding in between. -/
theorem exists_stops {P : Nat → Prop} {a b : Nat} (hab : a ≤ b) (ha : P a) (hb : ¬ P b) :
    ∃ k, a ≤ k ∧ k < b ∧ P k ∧ ¬ P (k + 1) := by
  induction b, hab using Nat.le_induction with
  | base => exact absurd ha hb
  | succ b hab ih =>
    by_cases hP : P b
    · exact ⟨b, hab, Nat.lt_succ_self b, hP, hb⟩
    · obtain ⟨k, hak, hkb, hk⟩ := ih hP
      exact ⟨k, hak, Nat.lt_succ_of_lt hkb, hk⟩

/-- What holds at some but not all times of a round trip stops holding at some time: before the time
where it does not hold, or after the time where it does. -/
theorem exists_stops_of_round_trip {P : Nat → Prop} {first last a b : Nat}
    (htrip : P first ↔ P last) (ha : first ≤ a ∧ a ≤ last) (hb : first ≤ b ∧ b ≤ last) (hPa : P a)
    (hPb : ¬ P b) : ∃ k, first ≤ k ∧ k < last ∧ P k ∧ ¬ P (k + 1) := by
  by_cases hlast : P last
  · obtain ⟨k, hk, hkb, hstops⟩ := exists_stops hb.1 (htrip.mpr hlast) hPb
    exact ⟨k, hk, hkb.trans_le hb.2, hstops⟩
  · obtain ⟨k, hak, hk, hstops⟩ := exists_stops ha.2 hPa hlast
    exact ⟨k, ha.1.trans hak, hk, hstops⟩

namespace IsBlandRun

variable {s : Nat → Tableau F} {length first last k j : Nat}

/-- The objective value never falls. -/
theorem objectiveValue_le (h : IsBlandRun problem s length) {a b : Nat} (hab : a ≤ b)
    (hb : b ≤ length) : (s a).objectiveValue ≤ (s b).objectiveValue := by
  induction b, hab using Nat.le_induction with
  | base => exact le_refl _
  | succ b hab ih =>
    obtain ⟨row, column, hpivot, hnext⟩ := h.exists_pivot b hb
    refine (ih (Nat.le_of_succ_le hb)).trans ?_
    rw [hnext]
    exact (h.represents b).objectiveValue_le_pivot (h.isFeasible b) hpivot.toIsExact

/-- **A round trip stays at its basic solution.** -/
theorem basicValue_eq (h : IsBlandRun problem s length) (hlast : last ≤ length)
    (hbasis : (s first).basis.toFinset = (s last).basis.toFinset) (hk : first ≤ k)
    (hklast : k ≤ last) :
    ∀ j < problem.variableCount + problem.constraintCount,
      (s k).basicValue j = (s first).basicValue j := by
  -- the objective value never falls and ends where it began, so it never changes
  have hreturn : (s first).objectiveValue = (s last).objectiveValue :=
    (h.represents first).objectiveValue_congr (h.represents last)
      ((h.represents first).basicValue_eq_of_basis (h.represents last) hbasis)
  have hconstant : ∀ k, first ≤ k → k ≤ last →
      (s k).objectiveValue = (s first).objectiveValue := by
    intro k hk hklast
    refine le_antisymm ?_ (h.objectiveValue_le hk (hklast.trans hlast))
    rw [hreturn]
    exact h.objectiveValue_le hklast hlast
  induction k, hk using Nat.le_induction with
  | base => exact fun j _ => rfl
  | succ k hk ih =>
    obtain ⟨row, column, hpivot, hnext⟩ := h.exists_pivot k (by omega)
    have hvalue : ((s k).pivot row column).objectiveValue = (s k).objectiveValue := by
      rw [← hnext, hconstant (k + 1) (by omega) hklast, hconstant k hk (by omega)]
    intro j hj
    rw [hnext, (h.represents k).basicValue_pivot_of_objectiveValue_eq hpivot.toIsExact hvalue j hj]
    exact ih (by omega) j hj

omit [IsStrictOrderedRing F] in
/-- The variable that is basic before a pivot and not after it is the one that leaves. -/
theorem leaves (h : IsBlandRun problem s length) (hk : k < length) (hbefore : j ∈ (s k).basis)
    (hafter : j ∉ (s (k + 1)).basis) :
    ∃ row column, (s k).IsBland problem.variableCount problem.constraintCount row column ∧
      s (k + 1) = (s k).pivot row column ∧ j = (s k).basicColumn row := by
  obtain ⟨row, column, hpivot, hnext⟩ := h.exists_pivot k hk
  refine ⟨row, column, hpivot, hnext, ?_⟩
  rw [hnext, hpivot.mem_basis_pivot (h.represents k).hasShape, not_or] at hafter
  by_contra hne
  exact hafter.2 ⟨hbefore, hne⟩

omit [IsStrictOrderedRing F] in
/-- The variable that is not basic before a pivot and basic after it is the one that enters. -/
theorem enters (h : IsBlandRun problem s length) (hk : k < length) (hbefore : j ∉ (s k).basis)
    (hafter : j ∈ (s (k + 1)).basis) :
    ∃ row, (s k).IsBland problem.variableCount problem.constraintCount row j := by
  obtain ⟨row, column, hpivot, hnext⟩ := h.exists_pivot k hk
  rw [hnext, hpivot.mem_basis_pivot (h.represents k).hasShape] at hafter
  rcases hafter with rfl | ⟨hbasic, -⟩
  · exact ⟨row, hpivot⟩
  · exact absurd hbasic hbefore

omit [IsStrictOrderedRing F] in
/-- There is a last fickle variable as soon as there is a pivot. -/
theorem exists_last_fickle (h : IsBlandRun problem s length) (hlt : first < last)
    (hlast : last ≤ length) :
    ∃ j, IsFickle s first last j ∧ ∀ i, IsFickle s first last i → i ≤ j := by
  classical
  have hbound : ∀ i, IsFickle s first last i →
      i < problem.variableCount + problem.constraintCount := by
    rintro i ⟨⟨k, -, -, hbasic⟩, -⟩
    exact (h.represents k).hasShape.basis_lt i hbasic
  let fickle := (Finset.range (problem.variableCount + problem.constraintCount)).filter
    (IsFickle s first last)
  have hmem : ∀ i, i ∈ fickle ↔ IsFickle s first last i := by
    intro i
    rw [Finset.mem_filter, Finset.mem_range, and_iff_right_of_imp (hbound i)]
  -- the variable that enters first is fickle
  have hnonempty : fickle.Nonempty := by
    obtain ⟨row, column, hpivot, hnext⟩ := h.exists_pivot first (by omega)
    refine ⟨column, (hmem column).mpr ⟨⟨first + 1, by omega, by omega, ?_⟩,
      first, by omega, by omega, hpivot.not_mem⟩⟩
    rw [hnext, hpivot.mem_basis_pivot (h.represents first).hasShape]
    exact Or.inl rfl
  obtain ⟨j, hj, hmax⟩ := fickle.exists_max_image id hnonempty
  exact ⟨j, (hmem j).mp hj, fun i hi => hmax i ((hmem i).mpr hi)⟩

/-- **Bland's rule never comes back to a basis.** -/
theorem basis_ne (h : IsBlandRun problem s length) (hlt : first < last) (hlast : last ≤ length) :
    (s first).basis.toFinset ≠ (s last).basis.toFinset := by
  intro hbasis
  obtain ⟨j, ⟨⟨a, ha, ha', hin⟩, b, hb, hb', hout⟩, hmax⟩ := h.exists_last_fickle hlt hlast
  have htrip : j ∈ (s first).basis ↔ j ∈ (s last).basis := by
    rw [← List.mem_toFinset, hbasis, List.mem_toFinset]
  -- the last fickle variable leaves at some time and enters at some time
  obtain ⟨p, hp, hp', hbefore, hafter⟩ :=
    exists_stops_of_round_trip (P := fun k => j ∈ (s k).basis) htrip ⟨ha, ha'⟩ ⟨hb, hb'⟩ hin hout
  obtain ⟨q, hq, hq', hbefore', hafter'⟩ :=
    exists_stops_of_round_trip (P := fun k => j ∉ (s k).basis) (not_congr htrip) ⟨hb, hb'⟩
      ⟨ha, ha'⟩ hout (not_not_intro hin)
  obtain ⟨row, column, hleaving, hnext, rfl⟩ := h.leaves (by omega) hbefore hafter
  obtain ⟨row', hentering⟩ := h.enters (by omega) hbefore' (not_not.mp hafter')
  have hvalue : ∀ i < problem.variableCount + problem.constraintCount,
      (s p).basicValue i = (s q).basicValue i := by
    intro i hi
    rw [h.basicValue_eq hlast hbasis hp hp'.le i hi, h.basicValue_eq hlast hbasis hq hq'.le i hi]
  refine hleaving.clash (h.represents p) (h.represents q) hentering hvalue ?_
  -- a variable that the first pivot involves is basic before it or after it
  intro i hinvolved hnot
  refine hmax i ⟨?_, q, hq, hq'.le, hnot⟩
  rcases hinvolved with rfl | hbasic
  · refine ⟨p + 1, by omega, hp', ?_⟩
    rw [hnext, hleaving.mem_basis_pivot (h.represents p).hasShape]
    exact Or.inl rfl
  · exact ⟨p, hp, hp'.le, hbasic⟩

end IsBlandRun

/-! ## Runs of Bland's rule -/

section Runs

variable {limit : Nat}

/-- The tableaus of a run without a tolerance. -/
theorem isBlandRun_solve (h : problem.IsWellFormed) (limit : Nat) :
    IsBlandRun problem (fun k => (Tableau.initial problem (0 : F)).after .bland k)
      (solve .bland limit 0 problem).trace.pivotCount where
  represents := Tableau.represents_after h (le_refl 0) .bland
  isFeasible := Tableau.isFeasible_after h .bland
  exists_pivot := by
    intro k hk
    obtain ⟨step, hstep, hnext⟩ := exists_step?_solve hk
    have hshape := (Tableau.represents_after h (le_refl (0 : F)) .bland k).hasShape
    obtain ⟨row, column, hpivot, hafter⟩ :=
      hshape.isBland_of_step? (Tableau.eps_after .bland k _) hstep
    exact ⟨row, column, hpivot, hnext.trans hafter⟩

/-- No two records of Bland's rule show the same basis. -/
theorem nodup_bases (h : problem.IsWellFormed) (limit : Nat) :
    ((solve .bland limit (0 : F) problem).trace.records.map
      fun record => record.basis.toFinset).Nodup := by
  rw [List.Nodup, List.pairwise_map, List.pairwise_iff_getElem]
  intro i j hi hj hij
  rw [getElem_records_solve hi, getElem_records_solve hj]
  refine (isBlandRun_solve h limit).basis_ne hij ?_
  rw [length_records_solve] at hj
  exact Nat.le_of_lt_succ hj

omit [IsStrictOrderedRing F] in
/-- A basis is a set of as many columns as there are constraints. -/
theorem basis_mem_powersetCard (h : problem.IsWellFormed) {rule : PivotRule} {eps : F}
    (heps : 0 ≤ eps) {record : Record F}
    (hrecord : record ∈ (solve rule limit eps problem).trace.records) :
    record.basis.toFinset ∈
      (Finset.range (problem.variableCount + problem.constraintCount)).powersetCard
        problem.constraintCount := by
  obtain ⟨k, pivot, rfl⟩ := exists_eq_of_mem_records hrecord
  have hshape := (Tableau.represents_after h heps rule k).hasShape
  rw [Finset.mem_powersetCard]
  constructor
  · intro column hcolumn
    exact Finset.mem_range.mpr (hshape.basis_lt column (List.mem_toFinset.mp hcolumn))
  · exact (List.toFinset_card_of_nodup hshape.basis_nodup).trans hshape.length_basis

/-- Bland's rule makes fewer pivots than there are bases. -/
theorem pivotCount_lt_choose (h : problem.IsWellFormed) (limit : Nat) :
    (solve .bland limit (0 : F) problem).trace.pivotCount <
      (problem.variableCount + problem.constraintCount).choose problem.constraintCount := by
  have hsubset : ((solve .bland limit (0 : F) problem).trace.records.map
      fun record => record.basis.toFinset).toFinset ⊆
      (Finset.range (problem.variableCount + problem.constraintCount)).powersetCard
        problem.constraintCount := by
    intro basis hbasis
    obtain ⟨record, hrecord, rfl⟩ := List.mem_map.mp (List.mem_toFinset.mp hbasis)
    exact basis_mem_powersetCard h (le_refl 0) hrecord
  have hcard := Finset.card_le_card hsubset
  rw [List.toFinset_card_of_nodup (nodup_bases h limit), List.length_map, length_records_solve,
    Finset.card_powersetCard, Finset.card_range] at hcard
  exact hcard

/-- **Bland's rule never cycles.** Without a tolerance, no two recorded tableaus have the same
basis, whatever the limit is. So there are fewer pivots than bases, and with a limit of that many
pivots the run ends in an optimum or finds the problem to be unbounded. -/
theorem bland_never_cycles (h : problem.IsWellFormed) (limit : Nat) :
    ((solve .bland limit (0 : F) problem).trace.records.map
        fun record => record.basis.toFinset).Nodup ∧
      (solve .bland limit (0 : F) problem).trace.pivotCount <
        (problem.variableCount + problem.constraintCount).choose problem.constraintCount ∧
      ((problem.variableCount + problem.constraintCount).choose problem.constraintCount ≤ limit →
        (∃ optimum, solve .bland limit 0 problem = .optimal optimum) ∨
          ∃ trace, solve .bland limit 0 problem = .unbounded trace) := by
  refine ⟨nodup_bases h limit, pivotCount_lt_choose h limit, fun hlimit => ?_⟩
  rcases hsolve : solve .bland limit 0 problem with optimum | trace | trace
  · exact Or.inl ⟨optimum, rfl⟩
  · exact Or.inr ⟨trace, rfl⟩
  · have hlt := pivotCount_lt_choose h limit
    rw [pivotCount_of_nonConvergent hsolve] at hlt
    exact absurd hlimit hlt.not_ge

/-- Seven columns have 35 bases of three, so 35 pivots are enough for the degenerate problem, on
which Dantzig's rule comes back to its first basis after six. -/
theorem bland_never_cycles_degenerate :
    ((solve .dantzig 100 0 StandardForm.degenerate).trace.records.map Record.basis)[6]? =
        ((solve .dantzig 100 0 StandardForm.degenerate).trace.records.map Record.basis)[0]? ∧
      (solve .bland 35 0 StandardForm.degenerate).trace.pivotCount < 35 ∧
      ((∃ optimum, solve .bland 35 0 StandardForm.degenerate = .optimal optimum) ∨
        ∃ trace, solve .bland 35 0 StandardForm.degenerate = .unbounded trace) := by
  have hwellFormed : StandardForm.degenerate.IsWellFormed := by decide +kernel
  obtain ⟨-, hlt, hends⟩ := bland_never_cycles hwellFormed 35
  exact ⟨by decide +kernel, hlt, hends (by decide)⟩

end Runs

end PrimalSimplex
