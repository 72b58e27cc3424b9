import PrimalSimplex.Json.Numeral
import PrimalSimplex.Json.Reader

/-!
# From JSON values to structures

A structure is written as an object with its fields, or as the array of their values in order. The
rules are the same for all structures (`Json.fields?`): no field may occur twice, and fields that
the structure does not have are ignored unless it is a *closed* one. A field that is absent is left
to the decoder of the structure, which knows whether there is a default.
-/

namespace PrimalSimplex

namespace Json

/-- The value of a truth value. -/
def bool? : Json → Option Bool
  | bool value => some value
  | _ => none

/-- The value of a count or an index. -/
def nat? : Json → Option Nat
  | number lexeme => lexeme.toNat?
  | _ => none

/-- The value of a number. -/
def numeral? {F : Type} [JsonNumeral F] : Json → Option F
  | number lexeme => JsonNumeral.ofNumber? lexeme
  | _ => none

/-- The value of a text. -/
def text? : Json → Option String
  | string text => text
  | _ => none

/-- The values of the elements of an array. -/
def list? {α : Type} (decode : Json → Option α) : Json → Option (List α)
  | array items => items.mapM decode
  | _ => none

/-- The value of something that may be absent. -/
def option? {α : Type} (decode : Json → Option α) : Json → Option (Option α)
  | null => some none
  | json => (decode json).map some

/-- The name of a choice: a string, or an object with null under that name. -/
def choice? : Json → Option String
  | string text => text
  | object [(key, null)] => key
  | _ => none

/-- The values of an object under a key. -/
def valuesAt (key : String) (members : List (Option String × Json)) : List Json :=
  (members.filter fun (name, _) => name == some key).map Prod.snd

/-- Looks a field up that may be there once. -/
def field? (members : List (Option String × Json)) (key : String) : Option (Option Json) :=
  match valuesAt key members with
  | [] => some none
  | [value] => some (some value)
  | _ => none

/-- What a structure makes of fields that it does not have, and of arrays that end early. -/
inductive Openness where
  /-- other fields are ignored, and an array has all values -/
  | opened
  /-- other fields are refused, and an array may end early -/
  | closed
  deriving DecidableEq

/-- The values of the given fields, in their order. -/
def fields? (openness : Openness) (names : List String) : Json → Option (List (Option Json))
  | object members =>
    if members.all fun (key, _) =>
        match key with
        | some key => openness = .opened || names.contains key
        | none => false then
      names.mapM (field? members)
    else none
  | array items =>
    if items.length = names.length ∨ (openness = .closed ∧ items.length ≤ names.length) then
      some (items.map some ++ List.replicate (names.length - items.length) none)
    else none
  | _ => none

/-- The value of a field that has to be there. -/
def required? {α : Type} (decode : Json → Option α) : Option Json → Option α
  | some json => decode json
  | none => none

/-- The value of a field that may be absent altogether. -/
def optional? {α : Type} (decode : Json → Option α) : Option Json → Option (Option α)
  | some json => option? decode json
  | none => some none

/-- The value of a field with a default. -/
def defaulted? {α : Type} (default : α) (decode : Json → Option α) : Option Json → Option α
  | some json => decode json
  | none => some default

end Json

end PrimalSimplex
