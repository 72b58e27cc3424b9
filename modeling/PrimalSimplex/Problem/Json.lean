import PrimalSimplex.Json.Decode
import PrimalSimplex.Problem

/-!
# Problems in JSON

A problem is stored in standard form together with the lines that were skipped. What is read is
taken as it is; whether it can be solved is not checked.
-/

namespace PrimalSimplex

open Json

namespace Row

variable {F : Type} [JsonNumeral F]

/-- Writes a row. -/
def toJson (row : Row F) : Json :=
  .record [("coefficients", .ofList .ofNumeral row.coefficients), ("rhs", .ofNumeral row.rhs)]

/-- Reads a row. -/
def ofJson? (json : Json) : Option (Row F) := do
  match ← json.fields? .opened ["coefficients", "rhs"] with
  | [coefficients, rhs] =>
    return ⟨← required? (list? numeral?) coefficients, ← required? numeral? rhs⟩
  | _ => none

end Row

namespace StandardForm

variable {F : Type} [JsonNumeral F]

/-- Writes a problem in standard form. -/
def toJson (problem : StandardForm F) : Json :=
  .record [
    ("objective", .ofList .ofNumeral problem.objective),
    ("constraints", .ofList Row.toJson problem.constraints)]

/-- Reads a problem in standard form. -/
def ofJson? (json : Json) : Option (StandardForm F) := do
  match ← json.fields? .opened ["objective", "constraints"] with
  | [objective, constraints] =>
    return ⟨← required? (list? numeral?) objective, ← required? (list? Row.ofJson?) constraints⟩
  | _ => none

end StandardForm

namespace SkipReason

/-- The name of a reason. -/
def name : SkipReason → String
  | nonnegativity => "NonNegativity"
  | infeasibleAtOrigin => "InfeasibleAtOrigin"

/-- The reason with a name. -/
def ofName? (name : String) : Option SkipReason :=
  if name = "NonNegativity" then some nonnegativity
  else if name = "InfeasibleAtOrigin" then some infeasibleAtOrigin
  else none

/-- A reason is found by its name. -/
theorem ofName?_name (reason : SkipReason) : ofName? reason.name = some reason := by
  cases reason <;> rfl

end SkipReason

namespace Skipped

/-- Writes a skipped line. -/
def toJson (skipped : Skipped) : Json :=
  .record [
    ("index", .ofNat skipped.index),
    ("line", .ofString skipped.line),
    ("reason", .ofString skipped.reason.name)]

/-- Reads a skipped line. -/
def ofJson? (json : Json) : Option Skipped := do
  match ← json.fields? .opened ["index", "line", "reason"] with
  | [index, line, reason] =>
    return ⟨← required? nat? index, ← required? text? line,
      ← SkipReason.ofName? (← required? choice? reason)⟩
  | _ => none

end Skipped

namespace Problem

variable {F : Type} [JsonNumeral F]

/-- Writes a problem. -/
def toJson (problem : Problem F) : Json :=
  .record [
    ("standard_form", problem.standardForm.toJson),
    ("skipped", .ofList Skipped.toJson problem.skipped)]

/-- Reads a problem. -/
def ofJson? (json : Json) : Option (Problem F) := do
  match ← json.fields? .opened ["standard_form", "skipped"] with
  | [standardForm, skipped] =>
    return ⟨← required? StandardForm.ofJson? standardForm,
      ← required? (list? Skipped.ofJson?) skipped⟩
  | _ => none

/-- Reads the text of a problem. -/
def ofJsonText? (text : String) : Option (Problem F) := do ofJson? (← Json.read? text)

end Problem

end PrimalSimplex
