import PrimalSimplex.Binary.Layout

/-!
# Number types of a run

The method itself only adds, multiplies, divides and compares, so its definitions ask for nothing
but the operations they use: `Add`, `Mul`, `LT` and so on, with no laws attached. That makes one
text of the method serve the two binary number types, where the laws fail, and any ordered field,
where they hold.

What goes beyond arithmetic is asked for by small classes:

* `Numeral` — reading a decimal and writing a value;
* `Finiteness` — telling the finite values from the others;
* `Precision` — taking over a tolerance that is given as a 64 bit number;
* `SquareRoot` — needed by one diagnostic only.

An exact field has obvious instances of the first two and no need of the rest.
-/

namespace PrimalSimplex

/-- Number types whose values can be read from decimals and written as text. -/
class Numeral (F : Type) where
  /-- the value that stands for a decimal, the nearest one where not all decimals are values -/
  ofDecimal : Decimal → F
  /-- the text of a value in messages and rendered problems -/
  text : F → String
  /-- the text of a value with a fixed number of decimals -/
  fixed : Nat → F → String

/-- Number types that may hold values other than finite ones. -/
class Finiteness (F : Type) where
  /-- whether a value is a finite number -/
  isFinite : F → Bool

/-- Number types that can take over a 64 bit number, perhaps with less precision. -/
class Precision (F : Type) where
  /-- the nearest value to a 64 bit number -/
  ofFloat : Float → F
  /-- the distance from one to the next larger value -/
  machineEpsilon : F

/-- Number types with a square root. -/
class SquareRoot (F : Type) where
  /-- the nearest value to the square root -/
  sqrt : F → F

export Numeral (ofDecimal)
export Finiteness (isFinite)

/-! ## The 64 bit numbers -/

namespace Binary64

/-- The value of a written number. -/
def ofText (text : NumberText) : Float :=
  Float.ofBits (UInt64.ofNat (Binary.binary64.ofText text))

instance : Numeral Float where
  ofDecimal d := ofText (.finite false d)
  text x := Binary.binary64.plain x.toBits.toNat
  fixed places x := Binary.binary64.fixed places x.toBits.toNat

instance : Finiteness Float := ⟨Float.isFinite⟩

instance : Precision Float where
  ofFloat x := x
  machineEpsilon := Float.scaleB 1 (-52)

instance : SquareRoot Float := ⟨Float.sqrt⟩

end Binary64

/-! ## The 32 bit numbers -/

namespace Binary32

/-- The value of a written number. -/
def ofText (text : NumberText) : Float32 :=
  Float32.ofBits (UInt32.ofNat (Binary.binary32.ofText text))

instance : Numeral Float32 where
  ofDecimal d := ofText (.finite false d)
  text x := Binary.binary32.plain x.toBits.toNat
  fixed places x := Binary.binary32.fixed places x.toBits.toNat

instance : Finiteness Float32 := ⟨Float32.isFinite⟩

instance : Precision Float32 where
  ofFloat := Float.toFloat32
  machineEpsilon := Float32.scaleB 1 (-23)

instance : SquareRoot Float32 := ⟨Float32.sqrt⟩

end Binary32

end PrimalSimplex
