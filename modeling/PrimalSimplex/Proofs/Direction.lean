import PrimalSimplex.Proofs.FileLines
import PrimalSimplex.Proofs.KeptLines
import PrimalSimplex.Proofs.ObjectiveHeader

/-!
# The direction of a problem file

A direction may be given in the objective line and on lines before it, but of these only the last
one is carried to the objective line and checked with it. So a problem is refused for its direction
if and only if its objective line or the last direction before that mentions a minimisation
(`ProblemText.minimization_is_refused`). A line that asks for a minimisation is passed over if
another line after it starts like a direction (`ProblemText.not_forall_minimization_is_refused`).
-/

namespace PrimalSimplex

/-! ## The objective line -/

/-- The line in front of an objective line is looked at as well. -/
theorem Objective.mentionsMinimum_withDirection (direction : Option (List Char))
    (line : List Char) :
    mentionsMinimum (ProblemText.withDirection direction line) =
      (direction.any mentionsMinimum || mentionsMinimum line) := by
  cases direction with
  | none => rfl
  | some keyword =>
    exact Text.occursIn_lower_append_cons (by decide) (by decide) (by decide) (by decide) keyword
      line

/-! ## Reading a problem -/

section Reading

variable {F : Type} [Zero F] [One F] [Add F] [Sub F] [Neg F] [Finiteness F] [Numeral F]

/-- What makes reading stop is the fault of a line. -/
theorem exists_isFaultOf_of_failure {index : Nat} {lines : List String} {fault : ProblemError}
    (h : (readLines index lines : Reading F).failure = some fault) :
    ∃ line, IsFaultOf F line fault := by
  induction lines generalizing index with
  | nil => cases h
  | cons raw lines ih =>
    simp only [readLines] at h
    split at h
    · exact ih h
    · split at h
      · rename_i e hentry
        obtain rfl := Option.some.inj h
        exact ⟨_, Entry.read_eq_error_iff.mp hentry⟩
      · exact ih h

/-- A problem is refused for its direction when its objective function is. -/
theorem Problem.read_eq_unsupportedDirection_iff [LT F] [LE F] [DecidableLT F] [DecidableLE F]
    [BEq F] {objective : String} {lines : List String} {eps : F} {t : String} :
    Problem.read objective lines eps = .error (.unsupportedDirection t) ↔
      Objective.mentionsMinimum objective.toList = true ∧
        t = String.ofList (Text.trim objective.toList) := by
  rw [← LinearExpression.readObjective_eq_unsupportedDirection_iff (F := F), Problem.read,
    bind_eq_error_iff, or_iff_left]
  rintro ⟨e, -, h⟩
  dsimp only at h
  -- the faults of lines and of the whole problem are of other kinds
  split at h
  · rename_i fault hfailure
    obtain rfl := Except.error.inj h
    obtain ⟨line, hfault⟩ := exists_isFaultOf_of_failure hfailure
    cases hfault
  · rw [ofEntries, map_eq_error_iff, StandardForm.ofRows] at h
    split at h <;> cases h

end Reading

namespace ProblemText

/-! ## Files -/

theorem lastDirection?_eq_some_iff {lines : List (List Char)} {line : List Char} :
    lastDirection? lines = some line ↔
      ∃ earlier later, lines = earlier ++ line :: later ∧ isDirection line = true ∧
        ∀ l ∈ later, isDirection l = false := by
  rw [lastDirection?, List.getLast?_eq_some_iff]
  constructor
  · rintro ⟨directions, hfilter⟩
    obtain ⟨front, back, rfl, -, hback⟩ := List.filter_eq_append_iff.mp hfilter
    obtain ⟨middle, later, rfl, -, hline, hlater⟩ := List.filter_eq_cons_iff.mp hback
    exact ⟨front ++ middle, later, by simp, hline, by simpa using hlater⟩
  · rintro ⟨earlier, later, rfl, hline, hlater⟩
    have hnone : later.filter isDirection = [] := List.filter_eq_nil_iff.mpr (by simpa using hlater)
    refine ⟨earlier.filter isDirection, ?_⟩
    rw [List.filter_append, List.filter_cons_of_pos hline, hnone]

variable {contents : String} {text : ProblemText}

/-- **A minimisation is refused** if the objective line mentions it or the last direction before the
objective line does, whatever the tolerance. No other problem is refused for its direction. -/
theorem minimization_is_refused {F : Type} [Zero F] [One F] [Add F] [Sub F] [Neg F] [LT F] [LE F]
    [DecidableLT F] [DecidableLE F] [BEq F] [Finiteness F] [Numeral F]
    (h : ofContents? contents = some text) :
    (∃ before first after, IsObjectiveLine contents before first after) ∧
    ∀ before first after, IsObjectiveLine contents before first after → ∀ (eps : F) (t : String),
      Problem.read text.objective text.constraints eps = .error (.unsupportedDirection t) ↔
        ("min".toList <:+: Text.lower first.text ∨
          ∃ earlier direction later, contentOf before = earlier ++ direction :: later ∧
            isDirection direction = true ∧ (∀ line ∈ later, isDirection line = false) ∧
            "min".toList <:+: Text.lower direction) ∧
        t = String.ofList (Text.trim text.objective.toList) := by
  refine ⟨exists_isObjectiveLine h, fun before first after hline eps t => ?_⟩
  rw [hline.ofContents?_eq] at h
  obtain rfl := Option.some.inj h
  rw [Problem.read_eq_unsupportedDirection_iff]
  refine and_congr_left' ?_
  rw [textAt, String.toList_ofList, Objective.mentionsMinimum_withDirection, Bool.or_eq_true,
    Option.any_eq_true, Objective.mentionsMinimum_iff, or_comm]
  refine or_congr_right ?_
  simp only [lastDirection?_eq_some_iff, Objective.mentionsMinimum_iff]
  constructor
  · rintro ⟨direction, ⟨earlier, later, heq, hdirection, hlater⟩, hminimum⟩
    exact ⟨earlier, direction, later, heq, hdirection, hlater, hminimum⟩
  · rintro ⟨earlier, direction, later, heq, hdirection, hlater, hminimum⟩
    exact ⟨direction, ⟨earlier, later, heq, hdirection, hlater⟩, hminimum⟩

/-- A direction on its own line. -/
theorem minimization_is_refused_own_line :
    ∃ text, ofContents? "Minimize\nZ = x1 + x2\nx1 + x2 <= 4" = some text ∧
      Problem.read text.objective text.constraints (0 : ℚ) =
        .error (.unsupportedDirection "Minimize Z = x1 + x2") := by
  have hline : IsObjectiveLine "Minimize\nZ = x1 + x2\nx1 + x2 <= 4"
      [⟨"Minimize".toList, by decide⟩] ⟨"Z = x1 + x2".toList, by decide⟩
      [⟨"x1 + x2 <= 4".toList, by decide⟩] :=
    ⟨by decide +kernel, by decide +kernel, by decide +kernel⟩
  refine ⟨_, hline.ofContents?_eq, ?_⟩
  refine ((minimization_is_refused hline.ofContents?_eq).2 _ _ _ hline 0 _).mpr ⟨.inr ?_, ?_⟩
  · exact ⟨[], "Minimize".toList, [], by decide +kernel, by decide, List.forall_mem_nil _,
      by decide +kernel⟩
  · decide +kernel

/-- It is not so that a minimisation is refused wherever before the objective line it is asked for:
a later line may happen to start like a direction. -/
theorem not_forall_minimization_is_refused :
    ¬ ∀ (contents : String) (text : ProblemText), ofContents? contents = some text →
      ∀ before first after, IsObjectiveLine contents before first after →
        ("min".toList <:+: Text.lower first.text ∨
          ∃ line ∈ contentOf before, hasDigit line = false ∧ "min".toList <+: Text.lower line) →
        ∀ eps : ℚ, ∃ t, Problem.read text.objective text.constraints eps =
          .error (.unsupportedDirection t) := by
  intro h
  have hline : IsObjectiveLine
      "Minimize\nMaximum stock per item:\nZ = 3x1 + 2x2\nx1 <= 4\nx2 <= 3\n"
      [⟨"Minimize".toList, by decide⟩, ⟨"Maximum stock per item:".toList, by decide⟩]
      ⟨"Z = 3x1 + 2x2".toList, by decide⟩
      [⟨"x1 <= 4".toList, by decide⟩, ⟨"x2 <= 3".toList, by decide⟩, ⟨[], by decide⟩] :=
    ⟨by decide +kernel, by decide +kernel, by decide +kernel⟩
  obtain ⟨t, ht⟩ := h _ _ hline.ofContents?_eq _ _ _ hline
    (.inr ⟨"Minimize".toList, by decide +kernel, by decide, by decide +kernel⟩) 0
  obtain ⟨hminimum, -⟩ := Problem.read_eq_unsupportedDirection_iff.mp ht
  exact absurd hminimum (by decide +kernel)

end ProblemText

end PrimalSimplex
