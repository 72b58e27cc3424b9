import PrimalSimplex.Numeral

/-!
# Tolerances

With finite precision a value that should be zero is often only close to it, so every decision of
the method is made up to a tolerance. A tolerance is a nonnegative finite number; what the settings
give is a 64 bit number, and `tolerance` is what the number type of the run makes of it.
-/

namespace PrimalSimplex

variable {F : Type}

/-- The tolerance that a setting stands for: the value itself when it is finite and not negative in
the number type of the run, and the machine epsilon otherwise. -/
def tolerance [Zero F] [LE F] [DecidableLE F] [Finiteness F] [Precision F] (setting : Float) : F :=
  let value : F := Precision.ofFloat setting
  if isFinite value ∧ 0 ≤ value then value else Precision.machineEpsilon

/-- Whether a value is zero or more, up to a tolerance. -/
def IsNonnegativeWithin [Neg F] [LE F] (eps value : F) : Prop :=
  -eps ≤ value

instance [Neg F] [LE F] [DecidableLE F] (eps value : F) :
    Decidable (IsNonnegativeWithin eps value) :=
  inferInstanceAs (Decidable (-eps ≤ value))

/-- Snaps a negative value within the tolerance to zero, and leaves any other alone. -/
def snapToZero [Zero F] [Neg F] [LT F] [LE F] [DecidableLT F] [DecidableLE F]
    (eps value : F) : F :=
  if value < 0 ∧ IsNonnegativeWithin eps value then 0 else value

end PrimalSimplex
