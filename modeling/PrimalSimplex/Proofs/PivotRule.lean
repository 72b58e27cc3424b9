import PrimalSimplex.Proofs.RatioTest
import PrimalSimplex.Proofs.Run

/-!
# What the pivot rules choose

Both rules choose among the variables that may enter the basis, and both leave the row to the ratio
test. So a pivot of either rule is *admissible* (`Tableau.IsAdmissible`): its column is not basic
and has a negative relative cost, its element is positive, both beyond the tolerance. That is all
the theory of a single pivot needs, and it is said once, in `Tableau.HasShape.of_step?`.

Bland's rule promises more: its column is the first that may enter
(`Tableau.HasShape.le_of_bland_entering?`).

Nothing is assumed about the arithmetic.
-/

namespace PrimalSimplex

variable {F : Type} {n m : Nat} {rule : PivotRule} {t : Tableau F}

namespace Tableau

/-! ## The entering variable -/

section Entering

/-- The relative costs are the entries of the objective row. -/
theorem HasShape.getElem?_relativeCosts [Zero F] (h : t.HasShape n m) {j : Nat} (hj : j < n + m) :
    t.relativeCosts[j]? = some (t.relativeCost j) := by
  have hlt : j < (t.rows.getD m []).length := by
    rw [h.length_getD (Nat.le_refl m)]
    omega
  rw [relativeCosts, objectiveRow, relativeCost, entry, h.columnCount_eq, h.rowCount_eq,
    List.getElem?_take_of_lt hj, List.getElem?_eq_getElem hlt, List.getD_eq_getElem _ 0 hlt]

theorem HasShape.length_relativeCosts (h : t.HasShape n m) : t.relativeCosts.length = n + m := by
  rw [relativeCosts, List.length_take, objectiveRow, h.columnCount_eq, h.rowCount_eq,
    h.length_getD (Nat.le_refl m)]
  omega

variable [Zero F] [Neg F] [LT F] [DecidableLT F]

/-- A variable may enter the basis when it is not basic and its relative cost is negative beyond the
tolerance. -/
theorem HasShape.mem_profitable (h : t.HasShape n m) {entering : Entering F} :
    entering ∈ t.profitable ↔
      entering.column < n + m ∧ entering.column ∉ t.basis ∧
        entering.cost = t.relativeCost entering.column ∧
        t.relativeCost entering.column < -t.eps := by
  simp only [profitable, List.mem_filterMap, Prod.exists, List.mk_mem_zipIdx_iff_getElem?]
  constructor
  · rintro ⟨cost, column, hcost, hsome⟩
    have hlt : column < n + m := by
      rw [← h.length_relativeCosts]
      exact (List.getElem?_eq_some_iff.mp hcost).1
    rw [h.getElem?_relativeCosts hlt, Option.some.injEq] at hcost
    obtain ⟨hcond, hentering⟩ := Option.ite_none_right_eq_some.mp hsome
    obtain rfl := Option.some.inj hentering
    simp only [Bool.and_eq_true, Bool.not_eq_true', decide_eq_true_eq] at hcond
    refine ⟨hlt, ?_, hcost.symm, hcost ▸ hcond.2⟩
    rw [← isBasic_iff]
    simp [hcond.1]
  · rintro ⟨hlt, hbasic, hcost, hneg⟩
    refine ⟨entering.cost, entering.column, ?_, ?_⟩
    · rw [h.getElem?_relativeCosts hlt, hcost]
    · rw [← isBasic_iff] at hbasic
      rw [← hcost] at hneg
      simp [hbasic, hneg]

omit [Zero F] in
/-- The variables that may enter come in the order of their columns. -/
theorem pairwise_profitable (t : Tableau F) :
    t.profitable.Pairwise fun a b => a.column < b.column := by
  have hindices : (t.relativeCosts.zipIdx).Pairwise fun a b => a.2 < b.2 := by
    rw [List.pairwise_iff_getElem]
    intro i j hi hj hij
    simpa using hij
  refine List.Pairwise.filterMap _ ?_ hindices
  rintro ⟨cost, column⟩ ⟨cost', column'⟩ hlt entering hentering entering' hentering'
  obtain ⟨-, hentering⟩ := Option.ite_none_right_eq_some.mp hentering
  obtain ⟨-, hentering'⟩ := Option.ite_none_right_eq_some.mp hentering'
  obtain rfl := Option.some.inj hentering
  obtain rfl := Option.some.inj hentering'
  exact hlt

omit [Zero F] [Neg F] in
/-- The cheapest variable is one of those compared. -/
theorem foldl_cheaper_mem (first : Entering F) (rest : List (Entering F)) :
    rest.foldl Entering.cheaper first ∈ first :: rest := by
  refine (foldl_choice (fun _ _ => True) (fun _ _ => True) (fun _ => trivial)
    (fun _ _ _ _ _ => trivial) ?_ first rest (List.pairwise_of_forall fun _ _ => trivial)).1
  intro best next _
  rw [Entering.cheaper]
  split
  · exact Or.inr ⟨rfl, trivial⟩
  · exact Or.inl ⟨rfl, trivial⟩

omit [Zero F] in
/-- Both rules choose among the variables that may enter. -/
theorem mem_profitable_of_entering? {entering : Entering F}
    (h : rule.entering? t = some entering) : entering ∈ t.profitable := by
  unfold PivotRule.entering? at h
  rcases hprofitable : t.profitable with - | ⟨first, rest⟩
  · rw [hprofitable] at h
    cases rule <;> cases h
  · rw [hprofitable] at h
    cases rule with
    | dantzig =>
      obtain rfl := Option.some.inj h
      exact foldl_cheaper_mem first rest
    | bland =>
      obtain rfl := Option.some.inj h
      exact List.mem_cons_self

/-- No variable is chosen exactly when none may enter. -/
theorem HasShape.entering?_eq_none_iff (h : t.HasShape n m) :
    rule.entering? t = none ↔ ∀ j < n + m, j ∉ t.basis → ¬ t.relativeCost j < -t.eps := by
  constructor
  · intro hnone j hj hbasic hneg
    have hmem : (⟨j, t.relativeCost j⟩ : Entering F) ∈ t.profitable :=
      h.mem_profitable.mpr ⟨hj, hbasic, rfl, hneg⟩
    unfold PivotRule.entering? at hnone
    rcases hprofitable : t.profitable with - | ⟨first, rest⟩
    · rw [hprofitable] at hmem
      cases hmem
    · rw [hprofitable] at hnone
      cases rule <;> cases hnone
  · intro hall
    rcases hentering : rule.entering? t with - | entering
    · rfl
    · obtain ⟨hlt, hbasic, -, hneg⟩ :=
        h.mem_profitable.mp (mem_profitable_of_entering? hentering)
      exact absurd hneg (hall _ hlt hbasic)

/-- **Bland's rule lets the first variable enter** of those that may. -/
theorem HasShape.le_of_bland_entering? (h : t.HasShape n m) {entering : Entering F}
    (hentering : PivotRule.bland.entering? t = some entering) {j : Nat} (hj : j < n + m)
    (hbasic : j ∉ t.basis) (hneg : t.relativeCost j < -t.eps) : entering.column ≤ j := by
  have hmem : (⟨j, t.relativeCost j⟩ : Entering F) ∈ t.profitable :=
    h.mem_profitable.mpr ⟨hj, hbasic, rfl, hneg⟩
  have hpairwise := t.pairwise_profitable
  unfold PivotRule.entering? at hentering
  rcases hprofitable : t.profitable with - | ⟨first, rest⟩
  · rw [hprofitable] at hmem
    cases hmem
  · rw [hprofitable] at hentering hmem hpairwise
    obtain rfl := Option.some.inj hentering
    rcases List.mem_cons.mp hmem with heq | hmem
    · rw [← heq]
    · exact Nat.le_of_lt ((List.pairwise_cons.mp hpairwise).1 _ hmem)

end Entering

/-! ## Admissible pivots -/

/-- What both rules promise of a pivot. -/
structure IsAdmissible [Zero F] [Neg F] [LT F] (n m : Nat) (t : Tableau F) (row column : Nat) :
    Prop where
  /-- the row is that of a constraint -/
  row_lt : row < m
  /-- the column is that of a variable -/
  column_lt : column < n + m
  /-- the entering variable is not basic -/
  not_mem : column ∉ t.basis
  /-- the entering variable improves the objective value -/
  cost_lt : t.relativeCost column < -t.eps
  /-- the pivot element is positive -/
  eps_lt : t.eps < t.entry row column

section Steps

variable [Zero F] [Sub F] [Neg F] [Mul F] [Div F] [LT F] [LE F] [DecidableLT F] [DecidableLE F]
  [BEq F]

omit [Mul F] [BEq F] in
/-- The two choices of a rule make an admissible pivot. -/
theorem HasShape.isAdmissible (h : t.HasShape n m) {entering : Entering F} {row : Nat}
    (hentering : rule.entering? t = some entering)
    (hrow : rule.leavingRow? t entering.column = some row) :
    t.IsAdmissible n m row entering.column := by
  obtain ⟨hlt, hbasic, -, hneg⟩ := h.mem_profitable.mp (mem_profitable_of_entering? hentering)
  obtain ⟨hrow, heps⟩ := h.of_leavingRow?_eq_some hrow
  exact ⟨hrow, hlt, hbasic, hneg, heps⟩

/-- **A pivot of either rule is admissible.** -/
theorem HasShape.of_step? (h : t.HasShape n m) {step : Pivot F × Tableau F}
    (hstep : t.step? rule = some step) :
    ∃ row column, t.IsAdmissible n m row column ∧
      step = (t.pivotAt row column, t.pivot row column) := by
  obtain ⟨entering, row, hentering, hrow, rfl⟩ := step?_eq_some_iff.mp hstep
  exact ⟨row, entering.column, h.isAdmissible hentering hrow, rfl⟩

omit [LE F] [DecidableLT F] [DecidableLE F] in
/-- An admissible pivot keeps the shape. -/
theorem IsAdmissible.hasShape_pivot {row column : Nat} (hpivot : t.IsAdmissible n m row column)
    (h : t.HasShape n m) : (t.pivot row column).HasShape n m :=
  h.pivot hpivot.row_lt hpivot.column_lt hpivot.not_mem

omit [LE F] [DecidableLT F] [DecidableLE F] in
/-- The basis after an admissible pivot. -/
theorem IsAdmissible.mem_basis_pivot {row column : Nat} (hpivot : t.IsAdmissible n m row column)
    (h : t.HasShape n m) {k : Nat} :
    k ∈ (t.pivot row column).basis ↔ k = column ∨ k ∈ t.basis ∧ k ≠ t.basicColumn row :=
  h.mem_basis_pivot hpivot.row_lt hpivot.column_lt hpivot.not_mem

/-- The tolerance is the same all along the sequence. -/
theorem eps_after (rule : PivotRule) (k : Nat) (t : Tableau F) : (t.after rule k).eps = t.eps := by
  refine after_induction rule (P := fun t' => t'.eps = t.eps) rfl ?_ k
  intro t' step heps hstep
  obtain ⟨entering, row, -, -, rfl⟩ := step?_eq_some_iff.mp hstep
  exact heps

/-- The number of decision variables is the same all along the sequence. -/
theorem decisionCount_after (rule : PivotRule) (k : Nat) (t : Tableau F) :
    (t.after rule k).decisionCount = t.decisionCount := by
  refine after_induction rule (P := fun t' => t'.decisionCount = t.decisionCount) rfl ?_ k
  intro t' step hcount hstep
  obtain ⟨entering, row, -, -, rfl⟩ := step?_eq_some_iff.mp hstep
  exact hcount

end Steps

end Tableau

end PrimalSimplex
