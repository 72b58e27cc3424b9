import PrimalSimplex.Error

/-!
# What is worth telling while a problem is read and solved

Reading drops lines and relaxes equations, and solving passes through many tableaus. None of this
changes an answer, but a user may want to know, so it is reported as a list of events next to the
answer. An event is a cause with its data; level and wording are functions of it.

Nothing in this library writes a log. Events are values, and whoever calls decides what to show.
-/

namespace PrimalSimplex

/-- How urgent an event is. -/
inductive Level where
  /-- the answer may not be what the user expects -/
  | warn
  /-- a step of reading or solving -/
  | debug
  /-- a detail of a step -/
  | trace
  deriving DecidableEq

/-- Something that happened while a problem was read or solved. Numbers and variables are kept as
the texts that a message shows. -/
inductive Event where
  /-- a line only declares variables to be nonnegative -/
  | declarationSkipped (line : String)
  /-- an equation is solved as an inequality -/
  | equalityRelaxed (line : String)
  /-- a constraint is not satisfied at the origin -/
  | constraintDropped (line rhs : String)
  /-- a problem of the given size was read -/
  | problemRead (width constraints : Nat)
  /-- two rows have the same ratio -/
  | ratioTie (first second : Nat)
  /-- the given number of pivots did not suffice -/
  | limitReached (limit : Nat)
  /-- a pivot was made -/
  | pivoted (iteration : Nat) (entering cost leaving element objective : String)
  /-- a variable can grow without bound -/
  | unbounded (entering : String)
  /-- no pivot improves the objective value any more -/
  | optimal (pivots : Nat) (objective : String)
  deriving DecidableEq

namespace Event

/-- The level of an event. -/
def level : Event → Level
  | equalityRelaxed _ | constraintDropped _ _ | limitReached _ => .warn
  | ratioTie _ _ => .trace
  | _ => .debug

/-- The wording of an event. -/
def message : Event → String
  | declarationSkipped line => "Skipping non-negativity declaration " ++ quoted line
  | equalityRelaxed line => "Equality constraint " ++ quoted line ++ " is relaxed to \"<=\""
  | constraintDropped line rhs =>
    "Dropping constraint " ++ quoted line ++ ": right hand side " ++ rhs ++
      " is negative after normalization"
  | problemRead width constraints =>
    "Read a problem with " ++ toString width ++ " variables and " ++
      toString constraints ++ " constraints"
  | ratioTie first second =>
    "Ratio test tie between rows " ++ toString first ++ " and " ++ toString second
  | limitReached limit => "No optimum found within " ++ toString limit ++ " pivots"
  | pivoted iteration entering cost leaving element objective =>
    "Iteration " ++ toString iteration ++ ": " ++ entering ++ " enters (relative cost " ++ cost ++
      "), " ++ leaving ++ " leaves, pivot element " ++ element ++ ", objective value " ++ objective
  | unbounded entering => "Unbounded along " ++ entering
  | optimal pivots objective =>
    "Optimal after " ++ toString pivots ++ " pivots, objective value " ++ objective

end Event

end PrimalSimplex
