import PrimalSimplex.Proofs.Reading

/-!
# Exchanging the sides of a constraint

`5 >= x1` says the same as `x1 <= 5`, and it becomes the same row. When the sides are exchanged all
numbers of the constraint change their signs (`Constraint.between_mirrored`), and in the row of a
`>=` constraint they change once more (`Constraint.toRow_mirror`).

An equation is its own mirror image, and there the signs are not changed back. A row keeps one
direction of an equation only, and it is the one that goes from left to right as the equation is
written: `x1 = 4` becomes the row of `x1 <= 4`, and `4 = x1` that of `4 <= x1`, which the origin
violates. So the two writings of an equation have the same row only if their sides agree
(`Constraint.toRow_between_comm_iff`). At least one of them is satisfied by the origin.
-/

namespace PrimalSimplex

/-- The relation as it is seen from the other side. -/
def Relation.mirrored : Relation → Relation
  | equal => equal
  | atLeast => atMost
  | atMost => atLeast

section Rows

variable {F : Type} [Field F]

/-! ## Lists of coefficients -/

theorem eq_of_getD_eq {as bs : List F} (hlength : as.length = bs.length)
    (h : ∀ j, as.getD j 0 = bs.getD j 0) : as = bs := by
  refine List.ext_getElem hlength fun j hj hj' => ?_
  rw [← List.getD_eq_getElem as 0 hj, ← List.getD_eq_getElem bs 0 hj', h j]

theorem padTo_map_neg (n : Nat) (coefficients : List F) :
    padTo n (coefficients.map (- ·)) = (padTo n coefficients).map (- ·) := by
  simp [padTo]

namespace Constraint

/-- The constraint with its sides exchanged, again with the variables on the left. -/
def mirror (c : Constraint F) : Constraint F :=
  ⟨c.coefficients.map (- ·), c.relation.mirrored, -c.rhs⟩

/-- **Exchanging the sides changes all signs.** -/
theorem between_mirrored (left right : LinearExpression F) (relation : Relation) :
    between right relation.mirrored left = (between left relation right).mirror := by
  simp only [between, mirror, neg_sub, List.map_zipWith, Nat.max_comm right.variableCount]
  rw [List.zipWith_comm]

/-- Entries of a padded constraint between two expressions. -/
theorem getD_padTo_between (n : Nat) (left right : LinearExpression F) (relation : Relation)
    (j : Nat) : (padTo n (between left relation right).coefficients).getD j 0 =
      (padTo n left.coefficients).getD j 0 - (padTo n right.coefficients).getD j 0 := by
  rw [getD_padTo, getD_padTo, getD_padTo, getD_between]

theorem length_padTo_between {left right : LinearExpression F} {n : Nat} (relation : Relation)
    (hn : max left.variableCount right.variableCount ≤ n) :
    (padTo n (between left relation right).coefficients).length = n :=
  length_padTo ((length_between left relation right).trans_le hn)

variable [LinearOrder F] {n : Nat} {eps : F}

/-- **An inequality and its mirror image have the same row.** -/
theorem toRow_mirror {c : Constraint F} (h : c.relation ≠ .equal) :
    c.mirror.toRow n eps = c.toRow n eps := by
  obtain ⟨coefficients, relation, rhs⟩ := c
  cases relation with
  | equal => exact absurd rfl h
  | atLeast => simp only [mirror, Relation.mirrored, toRow, padTo_map_neg]
  | atMost => simp [mirror, Relation.mirrored, toRow, padTo_map_neg]

variable [IsStrictOrderedRing F]

/-- Snapping tells a value from its opposite. -/
theorem snapToZero_neg_eq_iff (eps value : F) :
    snapToZero eps (-value) = snapToZero eps value ↔ value = 0 := by
  have hpos : ∀ {v : F}, 0 < v → snapToZero eps v = v ∧ snapToZero eps (-v) ≤ 0 := by
    intro v hv
    have hneg : -v < 0 := neg_lt_zero.mpr hv
    refine ⟨if_neg fun h => absurd h.1 (not_lt.mpr hv.le), ?_⟩
    unfold snapToZero
    split_ifs
    · exact le_rfl
    · exact hneg.le
  rcases lt_trichotomy value 0 with hlt | rfl | hgt
  · obtain ⟨heq, hle⟩ := hpos (neg_pos.mpr hlt)
    rw [neg_neg] at hle
    rw [heq]
    refine iff_of_false (fun h => ?_) hlt.ne
    exact absurd (h ▸ hle) (not_le.mpr (neg_pos.mpr hlt))
  · simp
  · obtain ⟨heq, hle⟩ := hpos hgt
    rw [heq]
    refine iff_of_false (fun h => ?_) hgt.ne'
    exact absurd (h ▸ hle) (not_le.mpr hgt)

/-- **The two directions of an equation have the same row only if its sides agree.** -/
theorem toRow_between_comm_iff {left right : LinearExpression F}
    (hn : max left.variableCount right.variableCount ≤ n) :
    (between right .atMost left).toRow n eps = (between left .atMost right).toRow n eps ↔
      padTo n left.coefficients = padTo n right.coefficients ∧
        left.constant = right.constant := by
  have hrow : ∀ l r : LinearExpression F, (between l .atMost r).toRow n eps =
      ⟨padTo n (between l .atMost r).coefficients, snapToZero eps (r.constant - l.constant)⟩ :=
    fun _ _ => rfl
  have hlength : (padTo n (between right .atMost left).coefficients).length =
      (padTo n (between left .atMost right).coefficients).length := by
    rw [length_padTo_between _ hn, length_padTo_between _ (by rwa [Nat.max_comm])]
  rw [hrow, hrow, Row.mk.injEq, ← neg_sub right.constant, snapToZero_neg_eq_iff, sub_eq_zero]
  refine and_congr ⟨fun h => ?_, fun h => ?_⟩ eq_comm
  · have hleft := length_padTo (le_of_max_le_left hn)
    have hright := length_padTo (le_of_max_le_right hn)
    refine eq_of_getD_eq (hleft.trans hright.symm) fun j => ?_
    -- an entry that equals its opposite is zero
    have hj := congrArg (·.getD j 0) h
    simp only [getD_padTo_between] at hj
    linarith
  · refine eq_of_getD_eq hlength fun j => ?_
    rw [getD_padTo_between, getD_padTo_between, h]

/-- The origin satisfies the direction of an equation that is kept. -/
theorem feasibleAtOrigin_toRow_between_iff (heps : 0 ≤ eps) (left right : LinearExpression F) :
    ((between left .atMost right).toRow n eps).FeasibleAtOrigin ↔
      left.constant ≤ right.constant + eps := by
  have hrhs : ((between left .atMost right).toRow n eps).rhs =
      snapToZero eps (right.constant - left.constant) := rfl
  rw [Row.FeasibleAtOrigin, hrhs, snapToZero_nonneg_iff heps, neg_le_sub_iff_le_add]

end Constraint

end Rows

/-! ## Texts -/

section Texts

variable {F : Type} [Field F] [LinearOrder F] [IsStrictOrderedRing F] [Numeral F]

omit [LinearOrder F] [IsStrictOrderedRing F] in
/-- Two texts that are expressions make a constraint, whatever the spelling of the relation. -/
theorem Constraint.read_append {left right spelling : String} {l r : LinearExpression F}
    {relation : Relation} (hleft : LinearExpression.read left = .ok l)
    (hright : LinearExpression.read right = .ok r)
    (hvariable : l.coefficients ≠ [] ∨ r.coefficients ≠ [])
    (hspelling : spelling ∈ relation.spellings) :
    Constraint.read (left ++ spelling ++ right) = .ok (.between l relation r) := by
  obtain ⟨before, hbefore, rfl⟩ := LinearExpression.read_eq_ok_iff.mp hleft
  obtain ⟨after, hafter, rfl⟩ := LinearExpression.read_eq_ok_iff.mp hright
  refine Constraint.read_eq_ok_iff.mpr ⟨⟨before, relation, after⟩,
    ⟨_, _, hbefore, hafter, spelling, hspelling, by simp⟩, rfl, ?_⟩
  rw [← List.length_pos_iff, length_between, lt_max_iff, List.length_pos_iff, List.length_pos_iff]
  exact hvariable

/-- **An inequality can be written from either side.** Two texts that are expressions make a
constraint in either order when the relation is turned around, and the row is the same, so it is
kept or dropped alike. An equation can be written from either side as well, but as its row only
keeps the direction in which it is written, the rows are those of two inequalities. They are the
same only if the sides agree, and at least one of them is kept. -/
theorem constraint_read_from_either_side {left right : String} {l r : LinearExpression F}
    (hleft : LinearExpression.read left = .ok l) (hright : LinearExpression.read right = .ok r)
    (hvariable : l.coefficients ≠ [] ∨ r.coefficients ≠ [])
    {relation : Relation} {spelling spelling' : String} (hspelling : spelling ∈ relation.spellings)
    (hspelling' : spelling' ∈ relation.mirrored.spellings)
    {n : Nat} (hn : max l.variableCount r.variableCount ≤ n) {eps : F} (heps : 0 ≤ eps) :
    ∃ c c' : Constraint F,
      Constraint.read (left ++ spelling ++ right) = .ok c ∧
      Constraint.read (right ++ spelling' ++ left) = .ok c' ∧
      (relation ≠ .equal →
        c'.toRow n eps = c.toRow n eps ∧
        ∀ (index : Nat) (line line' : String),
          (Entry.constraint index line' c').row? n eps =
            (Entry.constraint index line c).row? n eps) ∧
      (relation = .equal →
        (∃ b, Constraint.read (left ++ "<=" ++ right) = .ok b ∧
          c.toRow n eps = b.toRow n eps) ∧
        (∃ b, Constraint.read (right ++ "<=" ++ left) = .ok b ∧
          c'.toRow n eps = b.toRow n eps) ∧
        (c'.toRow n eps = c.toRow n eps ↔
          padTo n l.coefficients = padTo n r.coefficients ∧ l.constant = r.constant) ∧
        ((c.toRow n eps).FeasibleAtOrigin ∨ (c'.toRow n eps).FeasibleAtOrigin)) := by
  refine ⟨_, _, Constraint.read_append hleft hright hvariable hspelling,
    Constraint.read_append hright hleft hvariable.symm hspelling', fun hne => ?_, ?_⟩
  · have hrow : (Constraint.between r relation.mirrored l).toRow n eps =
        (Constraint.between l relation r).toRow n eps := by
      rw [Constraint.between_mirrored, Constraint.toRow_mirror hne]
    exact ⟨hrow, fun index line line' => by rw [Entry.row?, Entry.row?, hrow]⟩
  · rintro rfl
    have hatMost : "<=" ∈ Relation.atMost.spellings := List.mem_cons_self
    refine ⟨⟨_, Constraint.read_append hleft hright hvariable hatMost, rfl⟩,
      ⟨_, Constraint.read_append hright hleft hvariable.symm hatMost, rfl⟩,
      Constraint.toRow_between_comm_iff hn, ?_⟩
    have hkept := Constraint.feasibleAtOrigin_toRow_between_iff (n := n) heps l r
    have hkept' := Constraint.feasibleAtOrigin_toRow_between_iff (n := n) heps r l
    refine (le_total l.constant r.constant).imp (fun hle => hkept.mpr ?_) fun hle => hkept'.mpr ?_
    · exact le_add_of_le_of_nonneg hle heps
    · exact le_add_of_le_of_nonneg hle heps

end Texts

/-! ## A variable and a constant -/

theorem read_variable : LinearExpression.read "x1" = .ok (⟨[1], 0⟩ : LinearExpression ℚ) := by
  have hterms : Term.ofText "x1" = .ok [⟨.plus, none, some 0⟩] := by cbv
  rw [LinearExpression.read, hterms]
  decide +kernel

theorem read_constant : LinearExpression.read "4" = .ok (⟨[], 4⟩ : LinearExpression ℚ) := by
  have hterms : Term.ofText "4" = .ok [⟨.plus, some ⟨4, 0⟩, none⟩] := by cbv
  rw [LinearExpression.read, hterms]
  decide +kernel

/-- A variable and a constant around an inequality and around an equation. -/
theorem constraint_read_from_either_side_constant :
    (∃ c c' : Constraint ℚ, Constraint.read ("x1" ++ ">=" ++ "4") = .ok c ∧
      Constraint.read ("4" ++ "\u2264" ++ "x1") = .ok c' ∧ c'.toRow 2 0 = c.toRow 2 0) ∧
    ∃ c c' : Constraint ℚ, Constraint.read ("x1" ++ "=" ++ "4") = .ok c ∧
      Constraint.read ("4" ++ "==" ++ "x1") = .ok c' ∧
        ((c.toRow 2 0).FeasibleAtOrigin ∨ (c'.toRow 2 0).FeasibleAtOrigin) := by
  have hvariable : ([1] : List ℚ) ≠ [] ∨ ([] : List ℚ) ≠ [] := .inl (List.cons_ne_nil _ _)
  have hge : ">=" ∈ Relation.atLeast.spellings := by decide
  have hle : "\u2264" ∈ Relation.atLeast.mirrored.spellings := by decide
  have heq : "=" ∈ Relation.equal.spellings := by decide
  have heq' : "==" ∈ Relation.equal.mirrored.spellings := by decide
  obtain ⟨c, c', hc, hc', hrow, -⟩ := constraint_read_from_either_side (n := 2) read_variable
    read_constant hvariable hge hle (by decide) le_rfl
  obtain ⟨d, d', hd, hd', -, hkept⟩ := constraint_read_from_either_side (n := 2) read_variable
    read_constant hvariable heq heq' (by decide) le_rfl
  exact ⟨⟨c, c', hc, hc', (hrow (by decide)).1⟩, d, d', hd, hd', (hkept rfl).2.2.2⟩

/-- **An equation does not become the same row from either side.** `x1 = 4` becomes the row of
`x1 <= 4`, and `4 = x1` the row of `4 <= x1`. -/
theorem not_forall_constraint_read_from_either_side :
    ¬ ∀ (left right : String) (l r : LinearExpression ℚ) (relation : Relation)
        (spelling spelling' : String) (n : Nat) (eps : ℚ),
        LinearExpression.read left = .ok l → LinearExpression.read right = .ok r →
        (l.coefficients ≠ [] ∨ r.coefficients ≠ []) →
        spelling ∈ relation.spellings → spelling' ∈ relation.mirrored.spellings →
        max l.variableCount r.variableCount ≤ n → 0 ≤ eps →
        ∃ c c' : Constraint ℚ,
          Constraint.read (left ++ spelling ++ right) = .ok c ∧
          Constraint.read (right ++ spelling' ++ left) = .ok c' ∧
          c'.toRow n eps = c.toRow n eps := by
  intro hall
  have hvariable : ([1] : List ℚ) ≠ [] ∨ ([] : List ℚ) ≠ [] := .inl (List.cons_ne_nil _ _)
  have hspelling : "=" ∈ Relation.equal.spellings := by decide
  obtain ⟨c, c', hc, hc', hrow⟩ := hall "x1" "4" _ _ .equal "=" "=" 1 0 read_variable read_constant
    hvariable hspelling hspelling (by decide) le_rfl
  rw [Constraint.read_append read_variable read_constant hvariable hspelling] at hc
  rw [Constraint.read_append read_constant read_variable hvariable.symm hspelling] at hc'
  cases hc
  cases hc'
  exact absurd hrow (by decide +kernel)

end PrimalSimplex
