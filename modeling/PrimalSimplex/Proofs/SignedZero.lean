import Mathlib
import PrimalSimplex.Expression
import PrimalSimplex.Proofs.StandardForm

/-!
# Arithmetic with zero

Reading an expression adds each of its numbers to a zero, and it may take a zero away from the sum
or change a sign twice. Nothing is lost on the way, also where numbers are rounded: zero is added
and taken away exactly, and a sign is a bit of its own. The one exception is the negative zero,
which does not survive being added to a zero. `ZeroLaws` says this, and it holds of both binary
number types and of every ordered field. `SignLaws` adds what writing the constant of an expression
relies on: a finite value without a sign to show is a zero.

In the logical model of these types a value is a pattern of bits. An operation unpacks the bits into
one of a few shapes, works on the shapes, and packs the result (`Packing`). Packing undoes
unpacking, so it is enough to look at the shapes.
-/

namespace PrimalSimplex

/-- The laws of zero that reading and writing rely on. -/
class ZeroLaws (F : Type) [Zero F] [Add F] [Sub F] [Neg F] [LT F] [LE F] [BEq F] [Finiteness F] :
    Prop where
  /-- zero is finite -/
  isFinite_zero : isFinite (0 : F) = true
  /-- zero equals itself -/
  zero_beq_zero : ((0 : F) == 0) = true
  /-- zero is not negative -/
  zero_le_zero : (0 : F) ≤ 0
  /-- what is at least zero is not negative -/
  not_lt_zero : ∀ {value : F}, 0 ≤ value → ¬value < 0
  /-- adding to zero is exact but for the negative zero -/
  zero_add : ∀ value : F, 0 + positiveZero value = positiveZero value
  /-- taking zero away is exact -/
  sub_zero : ∀ value : F, value - 0 = value
  /-- changing the sign twice is exact -/
  neg_neg : ∀ value : F, -(-value) = value

/-- Number types with the laws of zero in which the signs of finite values are told apart. -/
class SignLaws (F : Type) [Zero F] [Add F] [Sub F] [Neg F] [LT F] [LE F] [BEq F] [Finiteness F] :
    Prop extends ZeroLaws F where
  /-- a finite value is zero if it is neither negative nor positive, and not otherwise -/
  beq_zero_iff : ∀ {value : F}, isFinite value = true →
    ((value == 0) = true ↔ ¬value < 0 ∧ ¬0 < value)

section Sign

/-- What holds of a value and of zero holds after a zero has lost its sign. -/
theorem positiveZero_induction {F : Type} [Zero F] [BEq F] {P : F → Prop} {value : F} (hzero : P 0)
    (hvalue : P value) : P (positiveZero value) := by
  unfold positiveZero
  split
  · exact hzero
  · exact hvalue

variable {F : Type} [Zero F] [Add F] [Sub F] [Neg F] [LT F] [LE F] [BEq F] [Finiteness F]
  [ZeroLaws F] {value : F}

theorem positiveZero_nonneg (h : 0 ≤ value) : 0 ≤ positiveZero value :=
  positiveZero_induction (P := (0 ≤ ·)) ZeroLaws.zero_le_zero h

theorem isFinite_positiveZero (h : isFinite value = true) : isFinite (positiveZero value) = true :=
  positiveZero_induction (P := (isFinite · = true)) ZeroLaws.isFinite_zero h

end Sign

/-! ## Shapes -/

namespace Shape

open Float.Model (Format UnpackedFloat)
open Float.Model.UnpackedFloat

variable {spec : Format}

theorem zero_add (spec : Format) {y : UnpackedFloat} (h : y ≠ .zero .negative) :
    UnpackedFloat.add spec (.zero .positive) y = y := by
  cases y with
  | zero sign =>
    cases sign with
    | positive => rfl
    | negative => exact absurd rfl h
  | infinity | notANumber | finite => rfl

theorem sub_zero (spec : Format) (y : UnpackedFloat) :
    UnpackedFloat.sub spec y (.zero .positive) = y := by
  cases y with
  | zero sign => cases sign <;> rfl
  | infinity | notANumber | finite => rfl

theorem neg_neg (y : UnpackedFloat) : y.neg.neg = y := by
  cases y with
  | notANumber => rfl
  | infinity sign | zero sign | finite sign => cases sign <;> rfl

theorem not_lt_zero {y : UnpackedFloat} (h : UnpackedFloat.le (.zero .positive) y = true) :
    UnpackedFloat.lt y (.zero .positive) = false := by
  cases y with
  | zero | notANumber => rfl
  | infinity sign | finite sign =>
    cases sign with
    | positive => rfl
    | negative => cases h

/-- A finite shape is a zero, or it has a sign. -/
theorem beq_zero_iff {y : UnpackedFloat} (h : y.isFinite = true) :
    UnpackedFloat.beq y (.zero .positive) = true ↔
      ¬UnpackedFloat.lt y (.zero .positive) = true ∧
        ¬UnpackedFloat.lt (.zero .positive) y = true := by
  cases y with
  | infinity | notANumber => cases h
  | zero sign => cases sign <;> decide
  | finite sign => cases sign <;> simp [UnpackedFloat.beq, UnpackedFloat.lt, UnpackedFloat.compare]

/-- Changing the sign of a shape changes the bit of the sign. -/
theorem unpack_packComponents_neg (sign : UnpackedFloat.Sign)
    (exponent : BitVec spec.exponentBits) (mantissa : BitVec spec.mantissaBitsWithoutImplicit) :
    unpack spec (packComponents spec (-sign) exponent mantissa) =
      (unpack spec (packComponents spec sign exponent mantissa)).neg := by
  simp only [unpack, unpackMantissa_packComponents, unpackExponent_packComponents,
    unpackSign_packComponents, Sign.ofBitVec_toBitVec]
  split_ifs <;> rfl

/-- What has been unpacked can be packed and unpacked again. -/
theorem unpack_pack_unpack (b : BitVec spec.numBits) (hspec : 2 ≤ spec.exponentBits) :
    unpack spec ((unpack spec b).pack spec) = unpack spec b := by
  rw [pack_unpack b hspec]
  split_ifs with hnan
  · rw [unpack_packedNaN]
    simp only [isNaNBits, decide_eq_true_eq] at hnan
    simp [unpack, hnan.1, hnan.2]
  · rfl

/-- **The sign of packed bits can be changed twice.** -/
theorem pack_neg_neg {b : BitVec spec.numBits} (hvalid : spec.Valid b)
    (hspec : 2 ≤ spec.exponentBits) :
    (unpack spec ((unpack spec b).neg.pack spec)).neg.pack spec = b := by
  have hneg : ∃ b' : BitVec spec.numBits, (unpack spec b).neg = unpack spec b' := by
    refine ⟨packComponents spec (-Sign.ofBitVec (unpackSign b)) (unpackExponent b)
      (unpackMantissa b), ?_⟩
    rw [unpack_packComponents_neg, packComponents_unpackSign_unpackExponent_unpackMantissa]
  obtain ⟨b', hb'⟩ := hneg
  rw [hb', unpack_pack_unpack b' hspec, ← hb', neg_neg, pack_unpack_of_valid hvalid hspec]

end Shape

/-! ## Packed number types -/

section Packed

open Float.Model (Format UnpackedFloat)
open Float.Model.UnpackedFloat (unpack pack)

variable {F : Type} [Zero F] [Add F] [Sub F] [Neg F] [LT F] [LE F] [BEq F] [Finiteness F]

/-- A number type whose values are patterns of bits and whose operations work on shapes. -/
structure Packing (F : Type) [Zero F] [Add F] [Sub F] [Neg F] [LT F] [LE F] [BEq F] [Finiteness F]
    (spec : Format) where
  /-- the bits of a value -/
  bits : F → BitVec spec.numBits
  /-- a value is nothing but its bits -/
  injective : Function.Injective bits
  /-- there is one pattern of bits only that is not a number -/
  valid : ∀ a, spec.Valid (bits a)
  /-- zero has the positive sign -/
  zero : unpack spec (bits 0) = .zero .positive
  /-- addition -/
  add : ∀ a b, bits (a + b) =
    (UnpackedFloat.add spec (unpack spec (bits a)) (unpack spec (bits b))).pack spec
  /-- subtraction -/
  sub : ∀ a b, bits (a - b) =
    (UnpackedFloat.sub spec (unpack spec (bits a)) (unpack spec (bits b))).pack spec
  /-- change of sign -/
  neg : ∀ a, bits (-a) = (unpack spec (bits a)).neg.pack spec
  /-- strict comparison -/
  lt : ∀ a b, a < b ↔ UnpackedFloat.lt (unpack spec (bits a)) (unpack spec (bits b)) = true
  /-- comparison -/
  le : ∀ a b, a ≤ b ↔ UnpackedFloat.le (unpack spec (bits a)) (unpack spec (bits b)) = true
  /-- equality as numbers -/
  beq : ∀ a b, (a == b) = UnpackedFloat.beq (unpack spec (bits a)) (unpack spec (bits b))
  /-- finiteness -/
  finite : ∀ a, isFinite a = (unpack spec (bits a)).isFinite

namespace Packing

variable {spec : Format}

/-- A negative zero is replaced by a positive one. -/
theorem ne_negativeZero (p : Packing F spec) (value : F) :
    unpack spec (p.bits (positiveZero value)) ≠ .zero .negative := by
  unfold positiveZero
  split_ifs with h
  · rw [p.zero]
    exact nofun
  · intro hshape
    refine h ?_
    rw [p.beq, hshape, p.zero]
    rfl

/-- **The laws of zero hold of packed number types.** -/
theorem zeroLaws (p : Packing F spec) (hspec : 2 ≤ spec.exponentBits) : ZeroLaws F where
  isFinite_zero := by
    rw [p.finite, p.zero]
    rfl
  zero_beq_zero := by
    rw [p.beq, p.zero]
    rfl
  zero_le_zero := by
    rw [p.le, p.zero]
    rfl
  not_lt_zero := by
    intro value hle hlt
    rw [p.le, p.zero] at hle
    rw [p.lt, p.zero, Shape.not_lt_zero hle] at hlt
    cases hlt
  zero_add := by
    intro value
    refine p.injective ?_
    rw [p.add, p.zero, Shape.zero_add spec (p.ne_negativeZero value),
      UnpackedFloat.pack_unpack_of_valid (p.valid _) hspec]
  sub_zero := by
    intro value
    refine p.injective ?_
    rw [p.sub, p.zero, Shape.sub_zero, UnpackedFloat.pack_unpack_of_valid (p.valid _) hspec]
  neg_neg := by
    intro value
    refine p.injective ?_
    rw [p.neg, p.neg, Shape.pack_neg_neg (p.valid value) hspec]

/-- **The signs of packed numbers are told apart.** -/
theorem signLaws (p : Packing F spec) (hspec : 2 ≤ spec.exponentBits) : SignLaws F where
  toZeroLaws := p.zeroLaws hspec
  beq_zero_iff := by
    intro value hfinite
    rw [p.finite] at hfinite
    rw [p.beq, p.lt, p.lt, p.zero]
    exact Shape.beq_zero_iff hfinite

end Packing

/-- The packing of the 64 bit numbers. -/
def binary64Packing : Packing Float .binary64 where
  bits value := value.toModel.toBits.toBitVec
  injective := by
    rintro ⟨⟨⟨a⟩, _⟩⟩ ⟨⟨⟨b⟩, _⟩⟩ rfl
    rfl
  valid value := value.toModel.valid
  zero := rfl
  add _ _ := rfl
  sub _ _ := rfl
  neg _ := rfl
  lt _ _ := decide_eq_true_iff
  le _ _ := decide_eq_true_iff
  beq _ _ := rfl
  finite _ := rfl

/-- The packing of the 32 bit numbers. -/
def binary32Packing : Packing Float32 .binary32 where
  bits value := value.toModel.toBits.toBitVec
  injective := by
    rintro ⟨⟨⟨a⟩, _⟩⟩ ⟨⟨⟨b⟩, _⟩⟩ rfl
    rfl
  valid value := value.toModel.valid
  zero := rfl
  add _ _ := rfl
  sub _ _ := rfl
  neg _ := rfl
  lt _ _ := decide_eq_true_iff
  le _ _ := decide_eq_true_iff
  beq _ _ := rfl
  finite _ := rfl

instance : SignLaws Float := binary64Packing.signLaws (by decide)

instance : SignLaws Float32 := binary32Packing.signLaws (by decide)

end Packed

/-! ## Exact fields -/

/-- The laws hold of an ordered field, in which zero has no sign. -/
theorem signLaws_of_orderedField {F : Type} [Field F] [LinearOrder F] [IsStrictOrderedRing F]
    [Finiteness F] (hzero : isFinite (0 : F) = true) : SignLaws F where
  isFinite_zero := hzero
  zero_beq_zero := beq_self_eq_true 0
  zero_le_zero := le_refl 0
  not_lt_zero := not_lt_of_ge
  zero_add value := zero_add (positiveZero value)
  sub_zero := sub_zero
  neg_neg := neg_neg
  beq_zero_iff := by
    intro value _
    rw [beq_iff_eq, not_lt, not_lt, and_comm]
    exact le_antisymm_iff

instance : SignLaws ℚ := signLaws_of_orderedField rfl

end PrimalSimplex
