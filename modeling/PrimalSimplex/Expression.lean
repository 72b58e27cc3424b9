import PrimalSimplex.Expression.Term
import PrimalSimplex.Numeral

/-!
# Linear expressions

A linear expression is a dense list of coefficients, that of `x1` first, and a constant. Reading
adds up the terms of a text from left to right (`LinearExpression.ofTerms`); writing shows every
coefficient, zeros included, so that the number of variables survives (`LinearExpression.render`).

Two readers differ only in what they accept: `read` takes any expression, `readWithVariable` wants a
variable in it, because a constant is no row of a problem.
-/

namespace PrimalSimplex

/-- A linear expression in the variables `x1`, `x2`, … -/
structure LinearExpression (F : Type) where
  /-- the coefficients, that of `x1` first; there are as many as the largest subscript says -/
  coefficients : List F
  /-- the sum of the terms without a variable -/
  constant : F
  deriving DecidableEq

/-- Extends a list of coefficients with zeros to a number of variables. -/
def padTo {F : Type} [Zero F] (n : Nat) (coefficients : List F) : List F :=
  coefficients ++ List.replicate (n - coefficients.length) 0

/-- Adds a value to one entry of a list, which grows by zeros if it is too short. -/
def addAt {F : Type} [Zero F] [Add F] (value : F) : Nat → List F → List F
  | 0, [] => [0 + value]
  | 0, c :: cs => (c + value) :: cs
  | j + 1, [] => 0 :: addAt value j []
  | j + 1, c :: cs => c :: addAt value j cs

/-- Padding reaches the number of variables asked for. -/
theorem length_padTo {F : Type} [Zero F] {n : Nat} {coefficients : List F}
    (h : coefficients.length ≤ n) : (padTo n coefficients).length = n := by
  simp only [padTo, List.length_append, List.length_replicate]
  omega

/-- Adding to an entry makes the list just long enough for it. -/
theorem length_addAt {F : Type} [Zero F] [Add F] (value : F) (j : Nat) (coefficients : List F) :
    (addAt value j coefficients).length = max coefficients.length (j + 1) := by
  induction j generalizing coefficients with
  | zero => cases coefficients <;> simp [addAt]
  | succ j ih =>
    cases coefficients with
    | nil => simp [addAt, ih]
    | cons c cs =>
      simp only [addAt, List.length_cons, ih]
      omega

namespace Term

/-- The signed value of a term, without its variable. -/
def value {F : Type} [One F] [Neg F] [Numeral F] (term : Term) : F :=
  let magnitude := match term.magnitude with
    | some d => ofDecimal d
    | none => 1
  match term.sign with
  | .plus => magnitude
  | .minus => -magnitude

end Term

/-! ## Writing -/

section Rendering

variable {F : Type} [Zero F] [Neg F] [LT F] [DecidableLT F] [BEq F] [Numeral F]

/-- Replaces a negative zero by the ordinary one, which has no sign to show. -/
def positiveZero (value : F) : F := if value == 0 then 0 else value

/-- The name of the variable with the given index. -/
def variableName (index : Nat) : String := "x" ++ toString (index + 1)

/-- Writes a term after the first, with its sign between blanks. -/
def renderTerm (coefficient : F) (index : Nat) : String :=
  let coefficient := positiveZero coefficient
  if coefficient < 0 then " - " ++ Numeral.text (-coefficient) ++ variableName index
  else " + " ++ Numeral.text coefficient ++ variableName index

/-- Writes all terms of a list of coefficients, zeros included. -/
def renderCoefficients : List F → String
  | [] => ""
  | c :: cs =>
    Numeral.text (positiveZero c) ++ variableName 0 ++
      String.join (cs.mapIdx fun j c => renderTerm c (j + 1))

/-- Writes the constant of an expression, if there is one. -/
def renderConstant (constant : F) : String :=
  if constant < 0 then " - " ++ Numeral.text (-constant)
  else if 0 < constant then " + " ++ Numeral.text constant
  else ""

/-- Writes an expression such that it can be read back. -/
def LinearExpression.render (e : LinearExpression F) : String :=
  renderCoefficients e.coefficients ++ renderConstant e.constant

end Rendering

/-! ## Reading -/

namespace LinearExpression

section Reading

variable {F : Type} [Zero F] [One F] [Add F] [Neg F] [Numeral F]

/-- Adds a term to an expression. -/
def add (e : LinearExpression F) (term : Term) : LinearExpression F :=
  match term.index with
  | some j => { e with coefficients := addAt term.value j e.coefficients }
  | none => { e with constant := e.constant + term.value }

/-- Adds up terms from left to right. -/
def ofTerms (terms : List Term) : LinearExpression F :=
  terms.foldl add ⟨[], 0⟩

/-- Reads an expression, which may be a constant. -/
def read (text : String) : Except ParseError (LinearExpression F) :=
  (Term.ofText text).map ofTerms

/-- Reads an expression with a variable in it. -/
def readWithVariable (text : String) : Except ParseError (LinearExpression F) :=
  match read text with
  | .error e => .error e
  | .ok expression =>
    if expression.coefficients.isEmpty then .error (.noVariable text) else .ok expression

end Reading

variable {F : Type}

/-- The number of variables: the largest subscript. -/
def variableCount (e : LinearExpression F) : Nat := e.coefficients.length

/-- Whether some variable has a coefficient other than zero. -/
def hasNonzeroCoefficient [Zero F] [BEq F] (e : LinearExpression F) : Bool :=
  e.coefficients.any (· != 0)

end LinearExpression

end PrimalSimplex
