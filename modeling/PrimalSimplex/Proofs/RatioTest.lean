import PrimalSimplex.Proofs.Shape
import PrimalSimplex.Tableau.RatioTest

/-!
# What the ratio test chooses

The ratio test folds over the rows that limit the entering variable. Whatever the arithmetic is
like, the winner is one of these rows (`Tableau.HasShape.of_leavingRow?_eq_some`), and there is a
winner unless there is no such row (`Tableau.HasShape.leavingRow?_eq_none_iff`).

With exact arithmetic and no tolerance, a tie means equal ratios. A candidate then keeps its ratio
when it wins a tie, and the fold finds a least candidate: `Candidate.Precedes` is the order in which
candidates are compared, by ratio first and then, where the rule says so, by leaving variable. That
the winner precedes *all* candidates (`Candidate.precedes_of_best?`) is what keeps basic solutions
feasible and Bland's rule from cycling. It holds of every fold that chooses between two values
(`foldl_choice`), and so of Dantzig's choice of the entering variable too.
-/

namespace PrimalSimplex

/-! ## Folds that choose -/

/-- **A fold that chooses one of two values finds one that precedes all**, as long as the chosen
value precedes the other whenever it is compared with one that comes later. -/
theorem foldl_choice {α : Type} {choose : α → α → α} (precedes comesBefore : α → α → Prop)
    (hrefl : ∀ a, precedes a a)
    (htrans : ∀ a b c, precedes a b → precedes b c → precedes a c)
    (hchoose : ∀ a b, comesBefore a b →
      choose a b = a ∧ precedes a b ∨ choose a b = b ∧ precedes b a)
    (first : α) (rest : List α) (h : (first :: rest).Pairwise comesBefore) :
    rest.foldl choose first ∈ first :: rest ∧
      ∀ a ∈ first :: rest, precedes (rest.foldl choose first) a := by
  induction rest generalizing first with
  | nil =>
    refine ⟨List.mem_cons_self, fun a ha => ?_⟩
    obtain rfl := List.mem_singleton.mp ha
    exact hrefl _
  | cons next rest ih =>
    rw [List.foldl_cons]
    obtain ⟨hfirst, hnext⟩ := List.pairwise_cons.mp h
    obtain ⟨-, hrest⟩ := List.pairwise_cons.mp hnext
    -- what the better of the first two precedes, the winner precedes too
    rcases hchoose first next (hfirst next List.mem_cons_self) with ⟨heq, hle⟩ | ⟨heq, hle⟩
    · obtain ⟨hmem, hall⟩ := ih first
        (List.pairwise_cons.mpr ⟨fun a ha => hfirst a (List.mem_cons_of_mem _ ha), hrest⟩)
      have hhead := hall _ List.mem_cons_self
      rw [heq]
      refine ⟨?_, ?_⟩
      · rcases List.mem_cons.mp hmem with hmem | hmem
        · rw [hmem]
          exact List.mem_cons_self
        · exact List.mem_cons_of_mem _ (List.mem_cons_of_mem _ hmem)
      · intro a ha
        rcases List.mem_cons.mp ha with rfl | ha
        · exact hhead
        rcases List.mem_cons.mp ha with rfl | ha
        · exact htrans _ _ _ hhead hle
        · exact hall a (List.mem_cons_of_mem _ ha)
    · obtain ⟨hmem, hall⟩ := ih next hnext
      rw [heq]
      refine ⟨List.mem_cons_of_mem _ hmem, ?_⟩
      intro a ha
      rcases List.mem_cons.mp ha with rfl | ha
      · exact htrans _ _ _ (hall _ List.mem_cons_self) hle
      · exact hall a ha

/-! ## The winner is a candidate -/

section Choice

variable {F : Type} [Zero F] [Sub F] [Neg F] [LT F] [LE F] [DecidableLT F] [DecidableLE F]
  {tieBreak : TieBreak}

namespace Candidate

/-- The better of two candidates has the row of one of them. -/
theorem row_better (tieBreak : TieBreak) (eps : F) (best next : Candidate F) :
    (better tieBreak eps best next).row = best.row ∨
      (better tieBreak eps best next).row = next.row := by
  unfold better
  split
  · dsimp only
    split
    · right
      rfl
    · left
      rfl
  · split
    · right
      rfl
    · left
      rfl

/-- The winner has the row of a candidate. -/
theorem exists_row_foldl (tieBreak : TieBreak) (eps : F) (first : Candidate F)
    (rest : List (Candidate F)) :
    ∃ candidate ∈ first :: rest,
      candidate.row = (rest.foldl (better tieBreak eps) first).row := by
  induction rest generalizing first with
  | nil => exact ⟨first, List.mem_cons_self, rfl⟩
  | cons next rest ih =>
    rw [List.foldl_cons]
    obtain ⟨candidate, hmem, hrow⟩ := ih (better tieBreak eps first next)
    rcases List.mem_cons.mp hmem with rfl | hmem
    · rcases row_better tieBreak eps first next with heq | heq
      · exact ⟨first, List.mem_cons_self, by rw [← hrow, heq]⟩
      · exact ⟨next, List.mem_cons_of_mem _ List.mem_cons_self, by rw [← hrow, heq]⟩
    · exact ⟨candidate, List.mem_cons_of_mem _ (List.mem_cons_of_mem _ hmem), hrow⟩

end Candidate

namespace Tableau

variable [Div F] {t : Tableau F} {n m column : Nat}

omit [Sub F] [Neg F] [LE F] [DecidableLE F] in
/-- The candidates are the rows with an entry above the tolerance. -/
theorem HasShape.mem_candidates (h : t.HasShape n m) {candidate : Candidate F} :
    candidate ∈ t.candidates column ↔
      ∃ i < m, t.eps < t.entry i column ∧
        candidate = ⟨i, t.constraintValue i / t.entry i column, t.basicColumn i⟩ := by
  simp only [candidates, List.mem_filterMap, List.mem_range, h.rowCount_eq, candidate?,
    Option.ite_none_right_eq_some, Option.some.injEq, eq_comm (a := candidate)]

/-- Nothing limits the entering variable when no entry of its column is above the tolerance. -/
theorem HasShape.leavingRow?_eq_none_iff (h : t.HasShape n m) :
    t.leavingRow? tieBreak column = none ↔ ∀ i < m, ¬ t.eps < t.entry i column := by
  rw [leavingRow?, Option.map_eq_none_iff]
  rcases hcandidates : t.candidates column with - | ⟨first, rest⟩
  · refine iff_of_true rfl fun i hi hlt => ?_
    have hmem : ⟨i, t.constraintValue i / t.entry i column, t.basicColumn i⟩ ∈
        t.candidates column := h.mem_candidates.mpr ⟨i, hi, hlt, rfl⟩
    rw [hcandidates] at hmem
    cases hmem
  · refine iff_of_false (by simp [Candidate.best?]) fun hnone => ?_
    have hmem : first ∈ t.candidates column := by
      rw [hcandidates]
      exact List.mem_cons_self
    obtain ⟨i, hi, hlt, -⟩ := h.mem_candidates.mp hmem
    exact hnone i hi hlt

/-- **The leaving row is a row with an entry above the tolerance.** -/
theorem HasShape.of_leavingRow?_eq_some (h : t.HasShape n m) {row : Nat}
    (hrow : t.leavingRow? tieBreak column = some row) : row < m ∧ t.eps < t.entry row column := by
  obtain ⟨best, hbest, rfl⟩ := Option.map_eq_some_iff.mp hrow
  rcases hcandidates : t.candidates column with - | ⟨first, rest⟩
  · rw [hcandidates] at hbest
    cases hbest
  · rw [hcandidates] at hbest
    obtain rfl := Option.some.inj hbest
    obtain ⟨candidate, hmem, hrow⟩ :=
      Candidate.exists_row_foldl tieBreak t.eps first rest
    rw [← hcandidates] at hmem
    obtain ⟨i, hi, hlt, rfl⟩ := h.mem_candidates.mp hmem
    rw [← hrow]
    exact ⟨hi, hlt⟩

end Tableau

end Choice

/-! ## The order of candidates -/

section Order

variable {F : Type} [LinearOrder F] {tieBreak : TieBreak}

namespace Candidate

theorem smaller_self (ratio : F) : smaller ratio ratio = ratio := if_neg (lt_irrefl _)

/-- The order in which candidates are compared: by ratio, and between equal ratios by leaving
variable if that is how ties are broken. -/
def Precedes (tieBreak : TieBreak) (a b : Candidate F) : Prop :=
  a.ratio < b.ratio ∨ a.ratio = b.ratio ∧ (tieBreak = .lowestLeaving → a.leaving ≤ b.leaving)

theorem Precedes.refl (a : Candidate F) : Precedes tieBreak a a :=
  Or.inr ⟨rfl, fun _ => Nat.le_refl _⟩

theorem Precedes.trans {a b c : Candidate F} (hab : Precedes tieBreak a b)
    (hbc : Precedes tieBreak b c) : Precedes tieBreak a c := by
  rcases hab with hab | ⟨hab, hab'⟩
  · left
    rcases hbc with hbc | ⟨hbc, -⟩
    · exact hab.trans hbc
    · exact hbc ▸ hab
  · rcases hbc with hbc | ⟨hbc, hbc'⟩
    · left
      exact hab ▸ hbc
    · right
      exact ⟨hab.trans hbc, fun hlowest => Nat.le_trans (hab' hlowest) (hbc' hlowest)⟩

theorem Precedes.ratio_le {a b : Candidate F} (h : Precedes tieBreak a b) : a.ratio ≤ b.ratio := by
  rcases h with h | ⟨h, -⟩
  · exact h.le
  · exact h.le

end Candidate

end Order

/-! ## Exact comparisons -/

section Exact

variable {F : Type} [Field F] [LinearOrder F] [IsStrictOrderedRing F] {tieBreak : TieBreak}

theorem Tableau.magnitude_eq_abs (value : F) : Tableau.magnitude value = |value| := by
  unfold Tableau.magnitude
  split
  · rename_i hneg
    exact (abs_of_neg hneg).symm
  · rename_i hneg
    exact (abs_of_nonneg (not_lt.mp hneg)).symm

namespace Candidate

/-- Without a tolerance, a tie means equal ratios. -/
theorem isTie_zero {best next : Candidate F} :
    isTie 0 best next = true ↔ next.ratio = best.ratio := by
  rw [isTie, decide_eq_true_iff, Tableau.magnitude_eq_abs, abs_nonpos_iff, sub_eq_zero]

/-- Without a tolerance, the better of two candidates is the one that precedes the other. -/
theorem better_zero (tieBreak : TieBreak) (best next : Candidate F) :
    (better tieBreak 0 best next = best ∧ Precedes tieBreak best next) ∨
      (better tieBreak 0 best next = next ∧ Precedes tieBreak next best) := by
  by_cases htie : next.ratio = best.ratio
  · -- the smaller of equal ratios is either one, so the winner is unchanged
    rw [better, if_pos (isTie_zero.mpr htie)]
    simp only [htie, smaller_self]
    by_cases hleaving : tieBreak = .lowestLeaving ∧ next.leaving < best.leaving
    · rw [if_pos hleaving]
      right
      refine ⟨?_, Or.inr ⟨htie, fun _ => hleaving.2.le⟩⟩
      rw [← htie]
    · rw [if_neg hleaving]
      left
      exact ⟨rfl, Or.inr ⟨htie.symm, fun hlowest => not_lt.mp fun hlt => hleaving ⟨hlowest, hlt⟩⟩⟩
  · rw [better, if_neg (isTie_zero.not.mpr htie)]
    by_cases hlt : next.ratio < best.ratio
    · rw [if_pos hlt]
      right
      exact ⟨rfl, Or.inl hlt⟩
    · rw [if_neg hlt]
      left
      exact ⟨rfl, Or.inl (lt_of_le_of_ne (not_lt.mp hlt) (Ne.symm htie))⟩

/-- The fold finds a candidate that precedes all of them. -/
theorem foldl_better_zero (tieBreak : TieBreak) (first : Candidate F) (rest : List (Candidate F)) :
    rest.foldl (better tieBreak 0) first ∈ first :: rest ∧
      ∀ candidate ∈ first :: rest,
        Precedes tieBreak (rest.foldl (better tieBreak 0) first) candidate := by
  refine foldl_choice (Precedes tieBreak) (fun _ _ => True) Precedes.refl
    (fun _ _ _ => Precedes.trans) (fun best next _ => better_zero tieBreak best next) first rest ?_
  exact List.pairwise_of_forall fun _ _ => trivial

/-- **The winner precedes all candidates**, and is one of them. -/
theorem precedes_of_best? {candidates : List (Candidate F)} {best : Candidate F}
    (h : best? tieBreak 0 candidates = some best) :
    best ∈ candidates ∧ ∀ candidate ∈ candidates, Precedes tieBreak best candidate := by
  cases candidates with
  | nil => cases h
  | cons first rest =>
    obtain rfl := Option.some.inj h
    exact foldl_better_zero tieBreak first rest

end Candidate

namespace Tableau

variable {t : Tableau F} {n m row column : Nat}

/-- The ratio of a row: how far the variable of the column can grow before the row's basic variable
is zero. -/
def ratio (t : Tableau F) (row column : Nat) : F := t.constraintValue row / t.entry row column

/-- **The leaving row has the least ratio**, and the lowest leaving variable among those that have
it if that is how ties are broken. -/
theorem HasShape.ratio_le_of_leavingRow? (h : t.HasShape n m) (heps : t.eps = 0)
    (hrow : t.leavingRow? tieBreak column = some row) {i : Nat} (hi : i < m)
    (hpos : 0 < t.entry i column) :
    t.ratio row column ≤ t.ratio i column ∧
      (tieBreak = .lowestLeaving → t.ratio i column = t.ratio row column →
        t.basicColumn row ≤ t.basicColumn i) := by
  obtain ⟨best, hbest, rfl⟩ := Option.map_eq_some_iff.mp hrow
  rw [heps] at hbest
  obtain ⟨hmem, hall⟩ := Candidate.precedes_of_best? hbest
  obtain ⟨k, hk, -, rfl⟩ := h.mem_candidates.mp hmem
  have hprecedes := hall _ (h.mem_candidates.mpr ⟨i, hi, heps.symm ▸ hpos, rfl⟩)
  refine ⟨hprecedes.ratio_le, fun hlowest htie => ?_⟩
  rcases hprecedes with hlt | ⟨-, hleaving⟩
  · exact absurd htie hlt.ne'
  · exact hleaving hlowest

end Tableau

end Exact

end PrimalSimplex
