import PrimalSimplex.Expression

/-!
# Rows of a problem in standard form

A row states `a x ≤ b` for coefficients `a` and a right hand side `b`. The relation is not stored,
since a problem in standard form knows no other. When `b` is not negative the origin satisfies the
row, and the slack variable of the row can start in the basis.
-/

namespace PrimalSimplex

/-- A row `a x ≤ b`. -/
structure Row (F : Type) where
  /-- the coefficients, that of `x1` first -/
  coefficients : List F
  /-- the right hand side -/
  rhs : F
  deriving DecidableEq

namespace Row

variable {F : Type}

/-- The number of variables that a row has coefficients for. -/
def variableCount (row : Row F) : Nat := row.coefficients.length

/-- Whether the origin satisfies a row. -/
def FeasibleAtOrigin [Zero F] [LE F] (row : Row F) : Prop := 0 ≤ row.rhs

instance [Zero F] [LE F] [DecidableLE F] (row : Row F) : Decidable row.FeasibleAtOrigin :=
  inferInstanceAs (Decidable (0 ≤ row.rhs))

/-- Writes a row such that it can be read back. -/
def render [Zero F] [Neg F] [LT F] [DecidableLT F] [BEq F] [Numeral F] (row : Row F) : String :=
  renderCoefficients row.coefficients ++ " <= " ++ Numeral.text (positiveZero row.rhs)

end Row

end PrimalSimplex
