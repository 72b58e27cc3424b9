/-!
# What can be wrong with a problem

Errors are causes; their wording is a function of the cause (`ParseError.message`,
`Formulation.message`, `ProblemError.message`), so a caller can decide by the cause and a reader of
a message never has to.

* `ParseError` — a piece of text does not follow the grammar of expressions and relations. Positions
  count characters from zero.
* `Formulation` — a text can be read, but it is no linear program that can be solved by starting
  from the slack basis. Numbers are kept as the text that a message shows, because an error does not
  depend on the number type.
* `ProblemError` — either of these, or an objective function that is to be minimised.

That a problem turns out to be unbounded is not an error but an answer.
-/

namespace PrimalSimplex

/-- The largest subscript that a variable may have. Coefficients are stored densely, so a stray
large subscript would otherwise cost as much memory as it says. -/
def maximumSubscript : Nat := 10000

/-- A piece of text that does not follow the grammar. -/
inductive ParseError where
  /-- there is nothing to read -/
  | empty
  /-- no term of the text has a variable -/
  | noVariable (text : String)
  /-- a character outside the grammar, or a multiplication sign with nothing to multiply -/
  | unexpectedCharacter (character : Char) (position : Nat) (text : String)
  /-- a sign that no term follows -/
  | danglingSign (position : Nat) (text : String)
  /-- two terms with no sign between them; the position is that of the second -/
  | missingSign (position : Nat) (text : String)
  /-- a number that is not a literal -/
  | invalidNumber (literal : String) (text : String)
  /-- a subscript that is missing, zero or too large -/
  | invalidSubscript (subscript : String) (text : String)
  /-- a constraint without a relation -/
  | missingRelation (text : String)
  /-- an objective line in which no expression can be found -/
  | missingObjective (text : String)
  deriving DecidableEq

/-- Puts a text between double quotes, as it is. -/
def quoted (text : String) : String := "\"" ++ text ++ "\""

/-- The wording of a parse error. -/
def ParseError.message : ParseError → String
  | empty => "the expression is empty"
  | noVariable text => "no variable term (like `3x1`) found in " ++ quoted text
  | unexpectedCharacter character position text =>
    "unexpected character '" ++ String.singleton character ++ "' at position " ++
      toString position ++ " in " ++ quoted text
  | danglingSign position text =>
    "expected a term after the sign at position " ++ toString position ++ " in " ++ quoted text
  | missingSign position text =>
    "missing '+' or '-' before the term at position " ++ toString position ++ " in " ++ quoted text
  | invalidNumber literal text =>
    "could not read " ++ quoted literal ++ " as a number in " ++ quoted text
  | invalidSubscript subscript text =>
    "variable subscripts should be between 1 and " ++ toString maximumSubscript ++ ", found " ++
      quoted ("x" ++ subscript) ++ " in " ++ quoted text
  | missingRelation text =>
    "no relational operator (<=, >=, =) found in constraint " ++ quoted text
  | missingObjective text =>
    "could not find the objective function (`Z = ...`) in " ++ quoted text

/-- A problem that can be read but not solved from the slack basis. Constraints are counted from
zero. -/
inductive Formulation where
  /-- a matrix with another number of rows than there are right hand sides -/
  | rowCount (rows values : Nat)
  /-- a row of the matrix with another number of entries than the objective function has -/
  | rowLength (row entries width : Nat)
  /-- a constraint with another number of coefficients than the objective function has -/
  | constraintLength (constraint coefficients width : Nat)
  /-- a right hand side below zero -/
  | negativeRhs (constraint : Nat) (value : String)
  /-- an objective function without variables -/
  | noVariables
  /-- an objective function with a constant term -/
  | objectiveConstant (value : String)
  /-- no constraint is left -/
  | noConstraints
  /-- a constraint line with a number outside the range of the number type -/
  | tooLarge (line : String)
  /-- a coefficient or right hand side that is not a finite number -/
  | notFinite
  deriving DecidableEq

/-- The wording of a fault of formulation. -/
def Formulation.message : Formulation → String
  | rowCount rows values =>
    "the constraint matrix has " ++ toString rows ++ " rows, but there are " ++
      toString values ++ " right hand side values"
  | rowLength row entries width =>
    "row " ++ toString row ++ " of the constraint matrix has " ++ toString entries ++
      " entries, but the objective has " ++ toString width ++ " variables"
  | constraintLength constraint coefficients width =>
    "constraint " ++ toString constraint ++ " has " ++ toString coefficients ++
      " coefficients, but the objective has " ++ toString width ++ " variables"
  | negativeRhs constraint value =>
    "the right hand side of constraint " ++ toString constraint ++ " is " ++ value ++
      ", the slack basis would not be feasible"
  | noVariables => "the objective function has no decision variables"
  | objectiveConstant value =>
    "the objective function contains the constant " ++ value ++ ", which is not supported"
  | noConstraints => "there are no constraints to solve with"
  | tooLarge line =>
    "constraint " ++ quoted line ++ " contains a number that is too large to represent"
  | notFinite => "all coefficients should be finite numbers"

/-- Why a problem cannot be solved. -/
inductive ProblemError where
  /-- a line does not follow the grammar -/
  | parse (line : String) (error : ParseError)
  /-- the objective function is to be minimised -/
  | unsupportedDirection (text : String)
  /-- the problem is no linear program that starts from a feasible slack basis -/
  | formulation (fault : Formulation)
  deriving DecidableEq

/-- The wording of a problem error. -/
def ProblemError.message : ProblemError → String
  | parse line error => "could not parse " ++ quoted line ++ ": " ++ error.message
  | unsupportedDirection text =>
    "only maximization problems are supported, but the objective reads " ++ quoted text
  | formulation fault => "the problem is not well formulated: " ++ fault.message

end PrimalSimplex
