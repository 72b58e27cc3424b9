import Mathlib.Data.Finset.Card
import Mathlib.Data.Prod.Lex
import Mathlib.Order.Bounds.Basic
import Mathlib.Tactic.Linarith
import Mathlib.Tactic.Ring
import PrimalSimplex.Proofs.RatioTest

/-!
# How far the ratio test is from the minimum

With a tolerance, the row that the ratio test chooses need not have the least ratio. In a tie the
best candidate so far takes over the smaller ratio and may keep its row, so a row can survive a
whole chain of ties in which the ratio falls by the tolerance each time.

What the fold knows about the candidates that it has seen is `Candidate.Summarizes`: the ratio that
it carries along is exactly their minimum, and the row that it carries along had a ratio at most one
tolerance larger for each comparison made. One comparison keeps this
(`Candidate.Summarizes.better`), so the chosen row is off by one tolerance less than there are
candidates (`Tableau.HasShape.le_of_leavingRow?`), and the bound is attained.

Without a tolerance the minimum is attained, and the two ways to break ties choose the first row and
the lowest basic variable among the rows that attain it.
-/

namespace PrimalSimplex

/-! ## One comparison and all of them -/

namespace Candidate

section

variable {F : Type} [Field F] [LinearOrder F] [IsStrictOrderedRing F] {tieBreak : TieBreak}
  {eps : F}

omit [Field F] [IsStrictOrderedRing F] in
theorem smaller_eq_min (first second : F) : smaller first second = min first second := by
  unfold smaller
  split
  · rename_i hlt
    exact (min_eq_right hlt.le).symm
  · rename_i hge
    exact (min_eq_left (not_lt.mp hge)).symm

omit [IsStrictOrderedRing F] in
/-- The better of two candidates has the smaller ratio of the two, whichever row it has. -/
theorem ratio_better (tieBreak : TieBreak) (eps : F) (best next : Candidate F) :
    (better tieBreak eps best next).ratio = min best.ratio next.ratio := by
  unfold better
  split
  · dsimp only
    split <;> exact smaller_eq_min _ _
  · split
    · rename_i hlt
      exact (min_eq_right hlt.le).symm
    · rename_i hge
      exact (min_eq_left (not_lt.mp hge)).symm

/-- The better of two candidates has the row of one whose ratio is the smaller one, up to the
tolerance. -/
theorem row_better_le (tieBreak : TieBreak) (heps : 0 ≤ eps) (best next : Candidate F) :
    ((better tieBreak eps best next).row = best.row ∧
        best.ratio ≤ min best.ratio next.ratio + eps) ∨
      ((better tieBreak eps best next).row = next.row ∧
        next.ratio ≤ min best.ratio next.ratio + eps) := by
  by_cases htie : isTie eps best next = true
  · have habs : |next.ratio - best.ratio| ≤ eps := by
      rw [isTie, decide_eq_true_iff, Tableau.magnitude_eq_abs] at htie
      exact htie
    obtain ⟨hlow, hhigh⟩ := abs_le.mp habs
    -- either row will do, since both ratios are close to the smaller one
    rcases row_better tieBreak eps best next with hrow | hrow
    · exact .inl ⟨hrow, by rw [← min_add_add_right]; exact le_min (by linarith) (by linarith)⟩
    · exact .inr ⟨hrow, by rw [← min_add_add_right]; exact le_min (by linarith) (by linarith)⟩
  · rw [better, if_neg htie]
    split
    · rename_i hlt
      right
      refine ⟨rfl, ?_⟩
      rw [min_eq_right hlt.le]
      exact le_add_of_nonneg_right heps
    · rename_i hge
      left
      refine ⟨rfl, ?_⟩
      rw [min_eq_left (not_lt.mp hge)]
      exact le_add_of_nonneg_right heps

/-- What the best candidate so far tells about the candidates that have been seen. -/
structure Summarizes (eps : F) (best : Candidate F) (seen : List (Candidate F)) : Prop where
  /-- its ratio is the least of all -/
  isLeast : IsLeast {ratio | ∃ candidate ∈ seen, candidate.ratio = ratio} best.ratio
  /-- its row is that of a candidate which is off by a tolerance for each comparison at most -/
  exists_row : ∃ candidate ∈ seen, candidate.row = best.row ∧
    candidate.ratio ≤ best.ratio + ((seen.length : F) - 1) * eps

omit [IsStrictOrderedRing F] in
/-- A single candidate is the best one. -/
theorem summarizes_singleton (eps : F) (first : Candidate F) : Summarizes eps first [first] where
  isLeast := by simp
  exists_row := ⟨first, List.mem_singleton_self first, rfl, by simp⟩

/-- **A comparison keeps the summary.** -/
theorem Summarizes.better {best : Candidate F} {seen : List (Candidate F)}
    (h : Summarizes eps best seen) (heps : 0 ≤ eps) (next : Candidate F) :
    Summarizes eps (Candidate.better tieBreak eps best next) (seen ++ [next]) := by
  obtain ⟨kept, hkept, hrow, hbound⟩ := h.exists_row
  obtain ⟨⟨attained, hattained, hratio⟩, hleast⟩ := h.isLeast
  have hlength :
      (((seen ++ [next]).length : F) - 1) * eps = ((seen.length : F) - 1) * eps + eps := by
    rw [List.length_append, List.length_singleton, Nat.cast_add, Nat.cast_one]
    ring
  have hnonneg : 0 ≤ ((seen.length : F) - 1) * eps := by
    have hpos : (1 : F) ≤ seen.length := by
      exact_mod_cast List.length_pos_of_mem hkept
    exact mul_nonneg (sub_nonneg.mpr hpos) heps
  constructor
  · rw [ratio_better]
    constructor
    · rcases min_choice best.ratio next.ratio with hmin | hmin <;> rw [hmin]
      · exact ⟨attained, List.mem_append_left _ hattained, hratio⟩
      · exact ⟨next, List.mem_append_right _ (List.mem_singleton_self next), rfl⟩
    · rintro _ ⟨candidate, hmem, rfl⟩
      rcases List.mem_append.mp hmem with hmem | hmem
      · exact (min_le_left _ _).trans (hleast ⟨candidate, hmem, rfl⟩)
      · rw [List.mem_singleton.mp hmem]
        exact min_le_right _ _
  · rw [ratio_better, hlength]
    rcases row_better_le tieBreak heps best next with ⟨hbetter, hle⟩ | ⟨hbetter, hle⟩
    · refine ⟨kept, List.mem_append_left _ hkept, hrow.trans hbetter.symm, ?_⟩
      linarith
    · refine ⟨next, List.mem_append_right _ (List.mem_singleton_self next), hbetter.symm, ?_⟩
      linarith

/-- All comparisons keep it. -/
theorem Summarizes.foldl_better {best : Candidate F} {seen : List (Candidate F)}
    (h : Summarizes eps best seen) (heps : 0 ≤ eps) (rest : List (Candidate F)) :
    Summarizes eps (rest.foldl (Candidate.better tieBreak eps) best) (seen ++ rest) := by
  induction rest generalizing best seen with
  | nil =>
    rw [List.append_nil]
    exact h
  | cons next rest ih =>
    rw [List.foldl_cons, List.append_cons]
    exact ih (h.better heps next)

/-- **The winner summarizes all candidates.** -/
theorem summarizes_of_best? {candidates : List (Candidate F)} {best : Candidate F} (heps : 0 ≤ eps)
    (h : best? tieBreak eps candidates = some best) : Summarizes eps best candidates := by
  cases candidates with
  | nil => cases h
  | cons first rest =>
    obtain rfl := Option.some.inj h
    exact (summarizes_singleton eps first).foldl_better heps rest

end

/-! ## The first of equal ratios -/

section

variable {F : Type} [Field F] [LinearOrder F] [IsStrictOrderedRing F]

/-- What candidates are compared by when the first row wins a tie. -/
def rank (candidate : Candidate F) : F ×ₗ Nat := toLex (candidate.ratio, candidate.row)

/-- Without a tolerance the better of two candidates has the lower rank, if the first has the
earlier row. -/
theorem better_firstRow {best next : Candidate F} (h : best.row < next.row) :
    better .firstRow 0 best next = best ∧ best.rank ≤ next.rank ∨
      better .firstRow 0 best next = next ∧ next.rank ≤ best.rank := by
  simp only [rank, Prod.Lex.toLex_le_toLex']
  by_cases htie : next.ratio = best.ratio
  · left
    rw [better, if_pos (isTie_zero.mpr htie), htie, smaller_self]
    exact ⟨by simp, le_rfl, fun _ => h.le⟩
  · rw [better, if_neg (isTie_zero.not.mpr htie)]
    split
    · rename_i hlt
      exact Or.inr ⟨rfl, hlt.le, fun heq => absurd heq htie⟩
    · rename_i hge
      exact Or.inl ⟨rfl, not_lt.mp hge, fun _ => h.le⟩

end

end Candidate

/-! ## The rows that limit a variable -/

namespace Tableau

section Rows

variable {F : Type} [Zero F] [Div F] [LT F] [DecidableLT F] {t : Tableau F} {n m column : Nat}

/-- The rows that limit the variable of a column: those with an entry above the tolerance. -/
def limitingRows (t : Tableau F) (column : Nat) : Finset Nat :=
  (Finset.range t.rowCount).filter fun row => t.eps < t.entry row column

omit [Div F] in
theorem HasShape.mem_limitingRows (h : t.HasShape n m) {row : Nat} :
    row ∈ t.limitingRows column ↔ row < m ∧ t.eps < t.entry row column := by
  rw [limitingRows, Finset.mem_filter, Finset.mem_range, h.rowCount_eq]

/-- The candidates have the rows that limit the variable, in order. -/
theorem map_row_candidates (t : Tableau F) (column : Nat) :
    (t.candidates column).map Candidate.row =
      (List.range t.rowCount).filter fun row => t.eps < t.entry row column := by
  rw [candidates, List.map_filterMap, ← List.filterMap_eq_filter]
  refine List.filterMap_congr fun row _ => ?_
  rw [candidate?, Option.guard]
  by_cases hlt : t.eps < t.entry row column <;> simp [hlt]

/-- There are as many candidates as rows that limit the variable. -/
theorem length_candidates (t : Tableau F) (column : Nat) :
    (t.candidates column).length = (t.limitingRows column).card := by
  rw [← List.length_map, map_row_candidates]
  rfl

/-- The candidates are in the order of their rows. -/
theorem pairwise_candidates (t : Tableau F) (column : Nat) :
    (t.candidates column).Pairwise (fun a b => a.row < b.row) := by
  rw [← List.pairwise_map, map_row_candidates]
  exact List.pairwise_lt_range.filter _

end Rows

section Minimum

variable {F : Type} [Field F] [LinearOrder F] [IsStrictOrderedRing F] {t : Tableau F}
  {n m row column : Nat} {tieBreak : TieBreak}

/-- The rows that attain the least ratio. -/
def minimalRows (t : Tableau F) (column : Nat) : Set Nat :=
  {row | row ∈ t.limitingRows column ∧
    ∀ other ∈ t.limitingRows column, t.ratio row column ≤ t.ratio other column}

omit [IsStrictOrderedRing F] in
theorem HasShape.ratios_eq (h : t.HasShape n m) :
    {ratio | ∃ candidate ∈ t.candidates column, candidate.ratio = ratio} =
      (t.ratio · column) '' t.limitingRows column := by
  ext value
  constructor
  · rintro ⟨candidate, hmem, rfl⟩
    obtain ⟨i, hi, hlt, rfl⟩ := h.mem_candidates.mp hmem
    exact ⟨i, Finset.mem_coe.mpr (h.mem_limitingRows.mpr ⟨hi, hlt⟩), rfl⟩
  · rintro ⟨i, hi, rfl⟩
    obtain ⟨hi, hlt⟩ := h.mem_limitingRows.mp hi
    exact ⟨_, h.mem_candidates.mpr ⟨i, hi, hlt, rfl⟩, rfl⟩

/-- **The chosen row exceeds the least ratio by one tolerance less than there are rows to choose
from**, at most. -/
theorem HasShape.le_of_leavingRow? (h : t.HasShape n m) (heps : 0 ≤ t.eps)
    (hrow : t.leavingRow? tieBreak column = some row) :
    ∃ least, IsLeast ((t.ratio · column) '' t.limitingRows column) least ∧
      t.ratio row column ≤ least + (((t.limitingRows column).card : F) - 1) * t.eps := by
  obtain ⟨best, hbest, rfl⟩ := Option.map_eq_some_iff.mp hrow
  have hsummary := Candidate.summarizes_of_best? heps hbest
  obtain ⟨candidate, hmem, heq, hbound⟩ := hsummary.exists_row
  obtain ⟨i, hi, hlt, rfl⟩ := h.mem_candidates.mp hmem
  refine ⟨best.ratio, h.ratios_eq ▸ hsummary.isLeast, ?_⟩
  rw [← heq, ← length_candidates]
  exact hbound

/-- Without a tolerance the chosen row attains the least ratio. -/
theorem HasShape.mem_minimalRows (h : t.HasShape n m) (heps : t.eps = 0)
    (hrow : t.leavingRow? tieBreak column = some row) : row ∈ t.minimalRows column := by
  refine ⟨h.mem_limitingRows.mpr (h.of_leavingRow?_eq_some hrow), fun other hother => ?_⟩
  obtain ⟨hlt, hpos⟩ := h.mem_limitingRows.mp hother
  exact (h.ratio_le_of_leavingRow? heps hrow hlt (heps ▸ hpos)).1

/-- **The first row of least ratio** is chosen when ties go to the first row. -/
theorem HasShape.isLeast_of_firstRow (h : t.HasShape n m) (heps : t.eps = 0)
    (hrow : t.leavingRow? .firstRow column = some row) : IsLeast (t.minimalRows column) row := by
  refine ⟨h.mem_minimalRows heps hrow, fun other ⟨hother, hleast⟩ => ?_⟩
  have hpairwise := t.pairwise_candidates column
  obtain ⟨hlt, hpos⟩ := h.mem_limitingRows.mp hother
  have hmem := h.mem_candidates.mpr ⟨other, hlt, hpos, rfl⟩
  obtain ⟨best, hbest, rfl⟩ := Option.map_eq_some_iff.mp hrow
  rw [heps] at hbest
  rcases hcandidates : t.candidates column with - | ⟨first, rest⟩
  · rw [hcandidates] at hbest
    cases hbest
  · rw [hcandidates] at hbest hpairwise hmem
    obtain rfl := Option.some.inj hbest
    obtain ⟨hbest, hall⟩ := foldl_choice (fun a b : Candidate F => a.rank ≤ b.rank)
      (fun a b => a.row < b.row) (fun _ => le_refl _) (fun _ _ _ => le_trans)
      (fun _ _ => Candidate.better_firstRow) first rest hpairwise
    -- the chosen candidate has the ratio of its row, which is the least one
    rw [← hcandidates] at hbest
    obtain ⟨i, hi, hpos', heq⟩ := h.mem_candidates.mp hbest
    have hrank := Prod.Lex.toLex_le_toLex'.mp (hall _ hmem)
    refine hrank.2 (le_antisymm hrank.1 ?_)
    rw [heq]
    exact hleast i (h.mem_limitingRows.mpr ⟨hi, hpos'⟩)

/-- **The row of the lowest basic variable among those of least ratio** is chosen when ties go to
the lowest leaving variable. -/
theorem HasShape.lt_of_lowestLeaving (h : t.HasShape n m) (heps : t.eps = 0)
    (hrow : t.leavingRow? .lowestLeaving column = some row) {other : Nat}
    (hother : other ∈ t.minimalRows column) (hne : other ≠ row) :
    t.basicColumn row < t.basicColumn other := by
  obtain ⟨hmem, hleast⟩ := hother
  obtain ⟨hlt, hpos⟩ := h.mem_limitingRows.mp hmem
  have hlimits := h.of_leavingRow?_eq_some hrow
  obtain ⟨hle, hlowest⟩ := h.ratio_le_of_leavingRow? heps hrow hlt (heps ▸ hpos)
  have heq := le_antisymm (hleast row (h.mem_limitingRows.mpr hlimits)) hle
  -- no variable is basic in two rows
  exact lt_of_le_of_ne (hlowest rfl heq) fun hcolumn =>
    hne (h.basicColumn_inj hlt hlimits.1 hcolumn.symm)

end Minimum

end Tableau

/-! ## The ratio test -/

/-- **The ratio test picks a minimum up to the accumulated tolerance.** It finds a row exactly when
some row limits the entering variable, and the row it finds exceeds the least ratio by less than a
tolerance for each such row. Without a tolerance the least ratio is attained, by the first such row
or by that of the lowest basic variable. -/
theorem ratio_test_finds_minimum {F : Type} [Field F] [LinearOrder F] [IsStrictOrderedRing F]
    {t : Tableau F} {n m : Nat} (h : t.HasShape n m) (heps : 0 ≤ t.eps) (column : Nat) :
    (∀ tieBreak, t.leavingRow? tieBreak column = none ↔ t.limitingRows column = ∅) ∧
    (∀ tieBreak row, t.leavingRow? tieBreak column = some row →
      row ∈ t.limitingRows column ∧
      ∃ least, IsLeast ((t.ratio · column) '' t.limitingRows column) least ∧
        t.ratio row column ≤ least + (((t.limitingRows column).card : F) - 1) * t.eps) ∧
    (t.eps = 0 →
      (∀ row, t.leavingRow? .firstRow column = some row → IsLeast (t.minimalRows column) row) ∧
      ∀ row, t.leavingRow? .lowestLeaving column = some row →
        row ∈ t.minimalRows column ∧
        ∀ other ∈ t.minimalRows column, other ≠ row →
          t.basicColumn row < t.basicColumn other) := by
  refine ⟨fun tieBreak => ?_, fun tieBreak row hrow => ?_, fun hzero => ⟨fun row hrow => ?_,
    fun row hrow => ?_⟩⟩
  · rw [h.leavingRow?_eq_none_iff, Finset.eq_empty_iff_forall_notMem]
    simp only [h.mem_limitingRows, not_and]
  · exact ⟨h.mem_limitingRows.mpr (h.of_leavingRow?_eq_some hrow), h.le_of_leavingRow? heps hrow⟩
  · exact h.isLeast_of_firstRow hzero hrow
  · exact ⟨h.mem_minimalRows hzero hrow, fun other hother hne =>
      h.lt_of_lowestLeaving hzero hrow hother hne⟩

/-- A tableau in which the ratios of the rows are two, one and zero, with a tolerance to be
chosen. -/
def chainOfTies (eps : ℚ) : Tableau ℚ where
  rows := [[2, 1, 0, 0, 4], [2, 0, 1, 0, 2], [2, 0, 0, 1, 0], [-1, 0, 0, 0, 0]]
  basis := [1, 2, 3]
  decisionCount := 1
  eps := eps

theorem hasShape_chainOfTies (eps : ℚ) : (chainOfTies eps).HasShape 1 3 :=
  ⟨rfl, rfl, rfl, by simp [chainOfTies], by simp [chainOfTies], by simp [chainOfTies]⟩

/-- With a tolerance of one the first row survives two ties, and its ratio is off by two; without a
tolerance the last row wins. -/
theorem ratio_test_finds_minimum_chain :
    (chainOfTies 1).HasShape 1 3 ∧ 0 ≤ (chainOfTies 1).eps ∧
    (chainOfTies 1).leavingRow? .firstRow 0 = some 0 ∧ (chainOfTies 1).ratio 0 0 = 2 ∧
    (∃ least, IsLeast (((chainOfTies 1).ratio · 0) '' (chainOfTies 1).limitingRows 0) least ∧
      (chainOfTies 1).ratio 0 0 ≤
        least + ((((chainOfTies 1).limitingRows 0).card : ℚ) - 1) * (chainOfTies 1).eps) ∧
    IsLeast ((chainOfTies 0).minimalRows 0) 2 := by
  have hfirst : (chainOfTies 1).leavingRow? .firstRow 0 = some 0 := by decide +kernel
  have hlast : (chainOfTies 0).leavingRow? .firstRow 0 = some 2 := by decide +kernel
  have hone : 0 ≤ (chainOfTies 1).eps := by decide +kernel
  refine ⟨hasShape_chainOfTies 1, hone, hfirst, by decide +kernel, ?_, ?_⟩
  · exact ((ratio_test_finds_minimum (hasShape_chainOfTies 1) hone 0).2.1 _ _ hfirst).2
  · exact ((ratio_test_finds_minimum (hasShape_chainOfTies 0) le_rfl 0).2.2 rfl).1 _ hlast

end PrimalSimplex
