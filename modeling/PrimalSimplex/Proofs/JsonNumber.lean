import Mathlib
import PrimalSimplex.Numeral
import PrimalSimplex.Json.Decode
import PrimalSimplex.Proofs.JsonText
import PrimalSimplex.Proofs.Literal

/-!
# The lexemes of numbers

Numbers are the one kind of value that is written without looking at the grammar: a lexeme is put
together from the digits of the shortest decimal. That it is one of the grammar hangs on its leading
zeros. There are none because the shortest decimal of a number other than zero has digits other than
zero (`Format.shortest_digits`): zero does not lie in the neighbourhood of such a number.

Whether a lexeme is read as the value it was written for is another matter, since reading is quick
rather than correctly rounded (`JsonNumeral.ReadsBack`). Counts and indices are always read back, as
long as they fit into a word.
-/

namespace PrimalSimplex

/-! ## Digits -/

/-- The digits of a number other than zero start with one other than zero. -/
theorem head?_toDigits_ne_zero {n : Nat} (hn : n ≠ 0) :
    (Nat.toDigits 10 n).head? ≠ some '0' := by
  induction n using Nat.strongRecOn with
  | ind n ih =>
    by_cases hsmall : n < 10
    · have hdigit : ∀ m < 10, m ≠ 0 → m.digitChar ≠ '0' := by decide
      rw [Nat.toDigits_of_lt_base hsmall]
      exact fun h => hdigit n hsmall hn (Option.some.inj h)
    · rw [Nat.toDigits_of_base_le (by decide) (Nat.le_of_not_lt hsmall),
        List.head?_append_of_ne_nil _ Nat.toDigits_ne_nil]
      exact ih (n / 10) (by omega) (by omega)

theorem eq_zero_of_head?_toDigits {n : Nat} (h : (Nat.toDigits 10 n).head? = some '0') :
    Nat.toDigits 10 n = ['0'] := by
  by_cases hn : n = 0
  · rw [hn]
    rfl
  · exact absurd h (head?_toDigits_ne_zero hn)

namespace Json.Number

/-! ## Counts and indices -/

theorem isWellFormed_ofNat (n : Nat) : (ofNat n).IsWellFormed where
  whole_ne_nil := Nat.toDigits_ne_nil
  isDigit_whole := fun _ => isDigit_of_mem_toDigits
  whole_eq := eq_zero_of_head?_toDigits
  isDigit_fraction := nofun
  exponent_ne_nil := nofun
  isDigit_exponent := nofun

/-! ## Decimals -/

section Decimals

variable {d : Decimal} (negative : Bool)

theorem isDigit_of_mem_replicate {count : Nat} {c : Char} (h : c ∈ List.replicate count '0') :
    c.isDigit = true := by
  rw [List.eq_of_mem_replicate h]
  decide

/-- The two parts of a decimal in positional notation. -/
theorem isWellFormed_positional (hzero : d.digits = 0 → d.exponent = 0) :
    IsWellFormed ⟨negative, d.positional.1, d.positional.2, none⟩ := by
  have hdigit : ∀ c ∈ d.digitText, c.isDigit = true := fun _ => isDigit_of_mem_toDigits
  have hne : d.digitText ≠ [] := Nat.toDigits_ne_nil
  have hhead : d.exponent ≠ 0 → d.digitText.head? ≠ some '0' := fun hexponent =>
    head?_toDigits_ne_zero (mt hzero hexponent)
  unfold Decimal.positional
  split
  · -- a whole number, with zeros after its digits
    refine ⟨by simp [hne], fun c hc => ?_, fun h => ?_, nofun, nofun, nofun⟩
    · rcases List.mem_append.mp hc with hc | hc
      · exact hdigit c hc
      · exact isDigit_of_mem_replicate hc
    · rw [List.head?_append_of_ne_nil _ hne] at h
      by_cases hexponent : d.exponent = 0
      · have hdigits : d.digitText = ['0'] := eq_zero_of_head?_toDigits h
        simp [hexponent, hdigits]
      · exact absurd h (hhead hexponent)
  · next hexponent =>
    dsimp only
    split
    · -- the point stands among the digits
      next hplaces =>
      refine ⟨fun hnil => ?_, fun c hc => hdigit c (List.mem_of_mem_take hc), fun h => ?_,
        fun c hc => hdigit c (List.mem_of_mem_drop hc), nofun, nofun⟩
      · exact (List.take_eq_nil_iff.mp hnil).elim (by omega) hne
      · rw [List.head?_take, if_neg (by omega)] at h
        exact absurd h (hhead (by omega))
    · -- the point stands in front of the digits
      refine ⟨List.cons_ne_nil _ _, List.forall_mem_singleton.mpr (by decide), fun _ => rfl,
        fun c hc => ?_, nofun, nofun⟩
      rcases List.mem_append.mp hc with hc | hc
      · exact isDigit_of_mem_replicate hc
      · exact hdigit c hc

/-- **The lexeme of a decimal is one of the grammar.** -/
theorem isWellFormed_ofDecimal (range : PositionalRange)
    (hzero : d.digits = 0 → d.exponent = 0) : (ofDecimal range negative d).IsWellFormed := by
  have hpositional := isWellFormed_positional negative hzero
  unfold ofDecimal
  dsimp only
  split
  · split
    · next whole hparts =>
      rw [hparts] at hpositional
      exact { hpositional with isDigit_fraction := List.forall_mem_singleton.mpr (by decide) }
    · next whole fraction _ hparts =>
      rw [hparts] at hpositional
      exact hpositional
  · -- one digit, and the others after the point
    have hdigit : ∀ c ∈ d.digitText, c.isDigit = true := fun _ => isDigit_of_mem_toDigits
    obtain ⟨c, rest, hdigits⟩ := List.exists_cons_of_ne_nil
      (show d.digitText ≠ [] from Nat.toDigits_ne_nil)
    rw [hdigits] at hdigit ⊢
    refine ⟨List.cons_ne_nil _ _, fun e he => ?_, fun h => ?_, fun e he => ?_, fun e he => ?_,
      fun e he => ?_⟩
    · exact hdigit e (List.mem_of_mem_take he)
    · obtain rfl := Option.some.inj h
      rfl
    · exact hdigit e (List.mem_of_mem_drop he)
    · obtain rfl := Option.some.inj he
      exact Nat.toDigits_ne_nil
    · obtain rfl := Option.some.inj he
      exact fun _ => isDigit_of_mem_toDigits

end Decimals

end Json.Number

namespace Binary

/-! ## Shortest decimals -/

section Shortest

variable {n : Neighbourhood} {tie : Tie} {power : Int} {d : Decimal}

theorem Neighbourhood.not_contains_zero (hlow : 0 < n.low) {unit : Nat} (hunit : 0 < unit) :
    n.contains unit 0 = false := by
  have hpos : 0 < n.low * unit := Nat.mul_pos hlow hunit
  unfold contains
  split
  · exact decide_eq_false (by omega)
  · exact decide_eq_false (by omega)

/-- A multiple of a power of ten that is close to a positive value is not zero. -/
theorem Neighbourhood.digits_ne_zero (hlow : 0 < n.low) (h : n.onGrid tie power = some d) :
    d.digits ≠ 0 := by
  have hunit : 0 < tenPow (-power).toNat * twoPow n.exponent.toNat :=
    Nat.mul_pos (Nat.pow_pos (by decide)) (Nat.pow_pos (by decide))
  have hbelow : ∀ {step below}, n.contains (tenPow (-power).toNat * twoPow n.exponent.toNat)
      (below * step) = true → below ≠ 0 := by
    rintro step _ hcontains rfl
    rw [Nat.zero_mul, n.not_contains_zero hlow hunit] at hcontains
    cases hcontains
  unfold onGrid at h
  dsimp only at h
  split at h
  · next hdown _ =>
    split at h
    · cases h
      exact hbelow hdown
    · cases h
      exact Nat.succ_ne_zero _
  · next hdown _ =>
    cases h
    exact hbelow hdown
  · cases h
    exact Nat.succ_ne_zero _
  · cases h

theorem Neighbourhood.coarsest_digits (hlow : 0 < n.low) :
    (n.coarsest tie).digits = 0 → (n.coarsest tie).exponent = 0 := by
  unfold coarsest
  dsimp only
  cases hfound : (List.range 24).findSome? fun k : Nat => n.onGrid tie (n.topPower - k) with
  | none => exact fun _ => rfl
  | some d =>
    obtain ⟨k, -, hgrid⟩ := List.exists_of_findSome?_eq_some hfound
    exact fun hdigits => absurd hdigits (digits_ne_zero hlow hgrid)

/-- Of the shortest decimals only that of zero has no digits other than zero. -/
theorem Format.shortest_digits (format : Format) (tie : Tie) (significand : Nat)
    (exponent : Int) : (format.shortest tie significand exponent).digits = 0 →
      (format.shortest tie significand exponent).exponent = 0 := by
  unfold shortest
  split
  · exact fun _ => rfl
  · next hsignificand =>
    refine Neighbourhood.coarsest_digits ?_
    dsimp only [Neighbourhood.of]
    split <;> omega

end Shortest

/-! ## Finite values -/

section Patterns

open Float.Model (UnpackedFloat)

variable {spec : Float.Model.Format} (bits : BitVec spec.numBits)

theorem toNat_unpackExponent : (UnpackedFloat.unpackExponent bits).toNat =
    bits.toNat / 2 ^ spec.mantissaBitsWithoutImplicit % 2 ^ spec.exponentBits := by
  have hpos := spec.he
  rw [UnpackedFloat.unpackExponent, BitVec.toNat_cast, BitVec.extractLsb_toNat,
    Nat.shiftRight_eq_div_pow]
  congr 2
  omega

/-- The exponent of a finite pattern is not the one that is set aside. -/
theorem unpackExponent_lt (h : (UnpackedFloat.unpack spec bits).isFinite = true) :
    (UnpackedFloat.unpackExponent bits).toNat < 2 ^ spec.exponentBits - 1 := by
  have hne : UnpackedFloat.unpackExponent bits ≠ -1#_ := by
    intro hones
    rw [UnpackedFloat.unpack] at h
    simp only [hones, if_true] at h
    split at h <;> cases h
  have hbound : (UnpackedFloat.unpackExponent bits).toNat < 2 ^ spec.exponentBits :=
    BitVec.isLt _
  have hlast : (UnpackedFloat.unpackExponent bits).toNat ≠ 2 ^ spec.exponentBits - 1 := by
    intro heq
    apply hne
    apply BitVec.eq_of_toNat_eq
    rw [heq, BitVec.neg_one_eq_allOnes, BitVec.toNat_allOnes]
  omega

/-- A bit pattern that the library calls finite is decoded as a finite value. -/
theorem Format.exists_decode_eq_finite (format : Format) (spec : Float.Model.Format)
    (hprecision : format.precision = spec.mantissaBitsWithoutImplicit + 1)
    (hexponent : format.exponentBits = spec.exponentBits) (bits : BitVec spec.numBits)
    (h : (UnpackedFloat.unpack spec bits).isFinite = true) :
    ∃ negative significand exponent,
      format.decode bits.toNat = .finite negative significand exponent := by
  have hbinade : format.binade = 2 ^ spec.mantissaBitsWithoutImplicit := by
    rw [binade, hprecision, Nat.add_sub_cancel]
    rfl
  have htwoPow : twoPow format.exponentBits = 2 ^ spec.exponentBits := by
    rw [hexponent]
    rfl
  have hmagnitude : bits.toNat % format.signBit < format.infinity := by
    rw [signBit, infinity, hbinade, htwoPow,
      ← Nat.div_lt_iff_lt_mul (Nat.pow_pos (by decide)), Nat.mod_mul_left_div_self,
      ← toNat_unpackExponent]
    exact unpackExponent_lt bits h
  unfold decode
  dsimp only
  rw [if_neg (by omega), if_neg (by omega)]
  split
  · exact ⟨_, _, _, rfl⟩
  · exact ⟨_, _, _, rfl⟩

end Patterns

end Binary

/-! ## Number types -/

/-- Number types whose finite values are written as numbers of the grammar. -/
class LawfulJsonNumeral (F : Type) [JsonNumeral F] [Finiteness F] : Prop where
  /-- a finite value has a lexeme -/
  exists_lexeme (value : F) : isFinite value = true →
    ∃ lexeme, JsonNumeral.toNumber? value = some lexeme
  /-- a lexeme is one of the grammar -/
  isWellFormed (value : F) (lexeme : Json.Number) :
    JsonNumeral.toNumber? value = some lexeme → lexeme.IsWellFormed

/-- Reading makes the same value again of what is written for a value. -/
def JsonNumeral.ReadsBack {F : Type} [JsonNumeral F] (value : F) : Prop :=
  ∀ lexeme, toNumber? value = some lexeme → ofNumber? lexeme = some value

instance {F : Type} [JsonNumeral F] [DecidableEq F] (value : F) :
    Decidable (JsonNumeral.ReadsBack value) :=
  decidable_of_iff
    (((JsonNumeral.toNumber? value).all fun lexeme =>
      decide (JsonNumeral.ofNumber? lexeme = some value)) = true)
    (by simp [Option.all_eq_true, JsonNumeral.ReadsBack])

namespace Json.Number

theorem exists_ofBits? (range : PositionalRange) {format : Binary.Format} {bits : Nat}
    (h : ∃ negative significand exponent,
      format.decode bits = .finite negative significand exponent) :
    ∃ lexeme, ofBits? range format bits = some lexeme := by
  obtain ⟨negative, significand, exponent, hdecode⟩ := h
  rw [ofBits?, hdecode]
  exact ⟨_, rfl⟩

theorem isWellFormed_of_ofBits? {range : PositionalRange} {format : Binary.Format} {bits : Nat}
    {lexeme : Number} (h : ofBits? range format bits = some lexeme) : lexeme.IsWellFormed := by
  unfold ofBits? at h
  split at h
  · next negative significand exponent _ =>
    cases h
    exact isWellFormed_ofDecimal negative range
      (format.shortest_digits .even significand exponent)
  · cases h

end Json.Number

instance : LawfulJsonNumeral Float where
  exists_lexeme value hfinite := Json.Number.exists_ofBits? Json.Number.range64
    (Binary.binary64.exists_decode_eq_finite .binary64 rfl rfl
      value.toModel.toBits.toBitVec hfinite)
  isWellFormed _ _ := Json.Number.isWellFormed_of_ofBits?

instance : LawfulJsonNumeral Float32 where
  exists_lexeme value hfinite := Json.Number.exists_ofBits? Json.Number.range32
    (Binary.binary32.exists_decode_eq_finite .binary32 rfl rfl
      value.toModel.toBits.toBitVec hfinite)
  isWellFormed _ _ := Json.Number.isWellFormed_of_ofBits?

/-- Not every finite value is read back. -/
example : ¬ JsonNumeral.ReadsBack (1 / 11 : Float) := by decide +kernel

/-! ## Reading and writing -/

namespace Json

/-- Indices and counts of machine words are read back. -/
theorem nat?_ofNat {n : Nat} (h : n < 2 ^ 64) : nat? (ofNat n) = some n := by
  have hword : n ≤ Number.greatestWord := by
    have hgreatest : Number.greatestWord = 2 ^ 64 - 1 := rfl
    omega
  simp only [nat?, ofNat, Number.toNat?, Number.ofNat, digitsValue_toDigits]
  simp [hword]

theorem isPrinted_ofNat (n : Nat) : IsPrinted (ofNat n) :=
  isPrinted_number (Number.isWellFormed_ofNat n)

variable {F : Type} [JsonNumeral F] [Finiteness F] [LawfulJsonNumeral F] {value : F}

theorem numeral?_ofNumeral (hfinite : isFinite value = true)
    (hreads : JsonNumeral.ReadsBack value) : numeral? (ofNumeral value) = some value := by
  obtain ⟨lexeme, hlexeme⟩ := LawfulJsonNumeral.exists_lexeme value hfinite
  rw [ofNumeral, hlexeme]
  exact hreads lexeme hlexeme

theorem isPrinted_ofNumeral (value : F) : IsPrinted (ofNumeral value) := by
  unfold ofNumeral
  split
  · next lexeme hlexeme =>
    exact isPrinted_number (LawfulJsonNumeral.isWellFormed value lexeme hlexeme)
  · exact isPrinted_null

end Json

end PrimalSimplex
