import PrimalSimplex.Binary

/-!
# The fewest digits that read back

A finite positive value `m · 2 ^ q` is the nearest one to every real of an interval around it, the
ends belonging to it exactly when `m` is even. Any decimal of that interval reads back as the same
value, and the text of a number shows one that is as coarse as possible.

The search goes through the powers of ten from large to small and stops at the first one that has a
multiple in the interval (`Neighbourhood.onGrid`). If any multiple lies in the interval, then so
does one of the two next to the value itself, so only these two are looked at; of two hits the
nearer one is taken. From the middle either would do, and layouts differ in their choice (`Tie`).

All comparisons are made between natural numbers, with the power of ten and the power of two each
moved to the side on which it is whole.
-/

namespace PrimalSimplex
namespace Binary

/-- Which of two equally near decimals is taken. -/
inductive Tie where
  /-- the larger one -/
  | larger
  /-- the one with an even last digit -/
  | even
  deriving DecidableEq

/-- Whether the smaller of two neighbouring decimals wins a tie, by its digits. -/
def Tie.takesBelow : Tie → Nat → Bool
  | larger, _ => false
  | even, below => below % 2 == 0

/-- The reals that round to one positive value, in quarters of its last bit: the value itself and
the two ends of the interval, all scaled by `2 ^ exponent`. -/
structure Neighbourhood where
  /-- the lower end -/
  low : Nat
  /-- the value -/
  centre : Nat
  /-- the upper end -/
  high : Nat
  /-- the power of two that scales the three -/
  exponent : Int
  /-- whether the ends round to the value too -/
  closed : Bool

namespace Neighbourhood

/-- The neighbourhood of `significand · 2 ^ exponent`. Below a power of two the next value is only
half as far away. -/
def of (format : Format) (significand : Nat) (exponent : Int) : Neighbourhood where
  low :=
    if significand = format.binade ∧ format.leastExponent < exponent then 4 * significand - 1
    else 4 * significand - 2
  centre := 4 * significand
  high := 4 * significand + 2
  exponent := exponent - 2
  closed := significand % 2 = 0

/-- Whether a point, in units of some power of ten, rounds to the value. -/
def contains (n : Neighbourhood) (unit point : Nat) : Bool :=
  if n.closed then decide (n.low * unit ≤ point ∧ point ≤ n.high * unit)
  else decide (n.low * unit < point ∧ point < n.high * unit)

/-- The multiple of `10 ^ power` that represents the neighbourhood, if one does. -/
def onGrid (tie : Tie) (n : Neighbourhood) (power : Int) : Option Decimal :=
  let step := tenPow power.toNat * twoPow (-n.exponent).toNat
  let unit := tenPow (-power).toNat * twoPow n.exponent.toNat
  let centre := n.centre * unit
  let below := centre / step
  let above := below + 1
  let down := centre - below * step
  let up := above * step - centre
  match n.contains unit (below * step), n.contains unit (above * step) with
  | true, true =>
    if down < up ∨ (down = up ∧ tie.takesBelow below) then some ⟨below, power⟩
    else some ⟨above, power⟩
  | true, false => some ⟨below, power⟩
  | false, true => some ⟨above, power⟩
  | false, false => none

/-- A power of ten above the neighbourhood: more than three tenths of the base two logarithm. -/
def topPower (n : Neighbourhood) : Int :=
  ((n.centre.log2 : Int) + n.exponent) * 30103 / 100000 + 2

/-- The coarsest decimal in the neighbourhood. Twenty four grids reach past the seventeen digits
that always suffice. -/
def coarsest (tie : Tie) (n : Neighbourhood) : Decimal :=
  let top := n.topPower
  ((List.range 24).findSome? fun k : Nat => n.onGrid tie (top - k)).getD ⟨0, 0⟩

end Neighbourhood

/-- The decimal with the fewest digits that rounds to `significand · 2 ^ exponent`; zero is its own
decimal. -/
def Format.shortest (format : Format) (tie : Tie) (significand : Nat) (exponent : Int) : Decimal :=
  if significand = 0 then ⟨0, 0⟩
  else (Neighbourhood.of format significand exponent).coarsest tie

end Binary
end PrimalSimplex
