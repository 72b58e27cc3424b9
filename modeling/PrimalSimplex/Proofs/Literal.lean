import Mathlib.Tactic.ByContra
import PrimalSimplex.Decimal
import PrimalSimplex.Proofs.Token

/-!
# Literals

A literal is a run of digits and points with at least one digit and at most one point
(`Decimal.IsLiteral`). It denotes the number that its digits make up, scaled down once for every
digit after the point (`Decimal.denoted`). `Decimal.ofLiteral?` cuts a text at its first character
that is no digit and looks at what is left; that it reads the literals, and reads them as what they
denote, is `Decimal.ofLiteral?_eq_some_iff`.

The digits of a subscript are written by the library, so the way back is known
(`digitsValue_toDigits`).
-/

namespace PrimalSimplex

/-- The digits that are written for a number denote it. -/
theorem digitsValue_toDigits (n : Nat) : digitsValue (Nat.toDigits 10 n) = n :=
  Nat.ofDigitChars_ten_toDigits

theorem isDigit_of_mem_toDigits {n : Nat} {c : Char} (h : c ∈ Nat.toDigits 10 n) :
    c.isDigit = true :=
  Nat.isDigit_of_mem_toDigits (by decide) (by decide) h

theorem ne_point_of_isDigit {c : Char} (h : c.isDigit = true) : c ≠ '.' := by
  rintro rfl
  exact absurd h (by decide)

namespace Decimal

/-- The text is a run of digits and points with at least one digit and at most one point. -/
structure IsLiteral (cs : List Char) : Prop where
  /-- there is nothing else in it -/
  mem : ∀ c ∈ cs, c.isDigit = true ∨ c = '.'
  /-- there is a digit in it -/
  exists_digit : ∃ c ∈ cs, c.isDigit = true
  /-- there is no second point in it -/
  count_point : cs.count '.' ≤ 1

instance (cs : List Char) : Decidable (IsLiteral cs) :=
  decidable_of_iff
    ((cs.all fun c => c.isDigit || c == '.') = true ∧ cs.any Char.isDigit = true ∧
      cs.count '.' ≤ 1)
    ⟨fun h => ⟨by simpa using h.1, by simpa using h.2.1, h.2.2⟩,
      fun h => ⟨by simpa using h.mem, by simpa using h.exists_digit, h.count_point⟩⟩

/-- What a literal denotes: all its digits, and the number of them that follow the point as a
negative exponent. -/
def denoted (cs : List Char) : Decimal :=
  ⟨digitsValue (cs.filter Char.isDigit), -((cs.dropWhile (· ≠ '.')).tail.length : Int)⟩

theorem IsLiteral.ne_nil {cs : List Char} (h : IsLiteral cs) : cs ≠ [] := by
  obtain ⟨c, hc, -⟩ := h.exists_digit
  exact List.ne_nil_of_mem hc

theorem IsLiteral.isNumeric {cs : List Char} (h : IsLiteral cs) {c : Char} (hc : c ∈ cs) :
    Token.isNumeric c = true := by
  rcases h.mem c hc with hdigit | rfl
  · exact Bool.or_eq_true_iff.mpr (.inl hdigit)
  · rfl

/-! ## The two forms of a literal -/

section Forms

variable {whole fraction : List Char}

theorem not_mem_point (h : ∀ c ∈ whole, c.isDigit = true) : '.' ∉ whole :=
  fun hmem => ne_point_of_isDigit (h '.' hmem) rfl

/-- Digits alone are a literal. -/
theorem isLiteral_whole (hwhole : ∀ c ∈ whole, c.isDigit = true) (hne : whole ≠ []) :
    IsLiteral whole where
  mem := fun c hc => .inl (hwhole c hc)
  exists_digit := by
    obtain ⟨c, hc⟩ := List.exists_mem_of_ne_nil whole hne
    exact ⟨c, hc, hwhole c hc⟩
  count_point := by
    rw [List.count_eq_zero_of_not_mem (not_mem_point hwhole)]
    exact Nat.zero_le 1

/-- Digits around a point are a literal, unless there are none. -/
theorem isLiteral_point (hwhole : ∀ c ∈ whole, c.isDigit = true)
    (hfraction : ∀ c ∈ fraction, c.isDigit = true) (hne : whole ≠ [] ∨ fraction ≠ []) :
    IsLiteral (whole ++ '.' :: fraction) where
  mem := by
    intro c hc
    rcases List.mem_append.mp hc with hc | hc
    · exact .inl (hwhole c hc)
    · rcases List.mem_cons.mp hc with hc | hc
      · exact .inr hc
      · exact .inl (hfraction c hc)
  exists_digit := by
    rcases hne with hne | hne
    · obtain ⟨c, hc⟩ := List.exists_mem_of_ne_nil whole hne
      exact ⟨c, List.mem_append_left _ hc, hwhole c hc⟩
    · obtain ⟨c, hc⟩ := List.exists_mem_of_ne_nil fraction hne
      exact ⟨c, List.mem_append_right _ (List.mem_cons_of_mem _ hc), hfraction c hc⟩
  count_point := by
    rw [List.count_append, List.count_cons_self,
      List.count_eq_zero_of_not_mem (not_mem_point hwhole),
      List.count_eq_zero_of_not_mem (not_mem_point hfraction)]

/-- **A literal has one of two forms**: digits, or digits around a point. -/
theorem IsLiteral.forms {cs : List Char} (h : IsLiteral cs) :
    (∀ c ∈ cs, c.isDigit = true) ∧ cs ≠ [] ∨
      ∃ whole fraction, cs = whole ++ '.' :: fraction ∧ (∀ c ∈ whole, c.isDigit = true) ∧
        (∀ c ∈ fraction, c.isDigit = true) ∧ (whole ≠ [] ∨ fraction ≠ []) := by
  have hdigit : ∀ c ∈ cs, c ≠ '.' → c.isDigit = true := fun c hc hne =>
    (h.mem c hc).resolve_right hne
  by_cases hpoint : '.' ∈ cs
  · right
    obtain ⟨whole, fraction, rfl, hwhole⟩ := List.eq_append_cons_of_mem hpoint
    -- the first point is the only one
    have hfraction : '.' ∉ fraction := by
      have hcount := h.count_point
      rw [List.count_append, List.count_cons_self] at hcount
      exact List.count_eq_zero.mp (by omega)
    have hdigits : (∀ c ∈ whole, c.isDigit = true) ∧ ∀ c ∈ fraction, c.isDigit = true := by
      constructor
      · intro c hc
        exact hdigit c (List.mem_append_left _ hc) fun heq => hwhole (heq ▸ hc)
      · intro c hc
        refine hdigit c (List.mem_append_right _ (List.mem_cons_of_mem _ hc)) fun heq => ?_
        exact hfraction (heq ▸ hc)
    refine ⟨whole, fraction, rfl, hdigits.1, hdigits.2, ?_⟩
    by_contra! hempty
    obtain ⟨c, hc, hcdigit⟩ := h.exists_digit
    rw [hempty.1, hempty.2, List.nil_append, List.mem_singleton] at hc
    exact ne_point_of_isDigit hcdigit hc
  · left
    exact ⟨fun c hc => hdigit c hc fun heq => hpoint (heq ▸ hc), h.ne_nil⟩

theorem denoted_whole (hwhole : ∀ c ∈ whole, c.isDigit = true) :
    denoted whole = ofParts whole [] := by
  have hdrop : whole.dropWhile (· ≠ '.') = [] :=
    List.dropWhile_eq_nil_iff.mpr fun c hc => decide_eq_true (ne_point_of_isDigit (hwhole c hc))
  rw [denoted, List.filter_eq_self.mpr hwhole, hdrop, ofParts, List.append_nil]
  rfl

theorem denoted_point (hwhole : ∀ c ∈ whole, c.isDigit = true)
    (hfraction : ∀ c ∈ fraction, c.isDigit = true) :
    denoted (whole ++ '.' :: fraction) = ofParts whole fraction := by
  have hdrop : (whole ++ '.' :: fraction).dropWhile (· ≠ '.') = '.' :: fraction := by
    rw [List.dropWhile_append_of_pos fun c hc =>
      decide_eq_true (ne_point_of_isDigit (hwhole c hc))]
    simp
  have hfilter : (whole ++ '.' :: fraction).filter Char.isDigit = whole ++ fraction := by
    rw [List.filter_append, List.filter_cons_of_neg (by decide), List.filter_eq_self.mpr hwhole,
      List.filter_eq_self.mpr hfraction]
  rw [denoted, hdrop, hfilter, List.tail_cons, ofParts]

end Forms

/-! ## Reading -/

theorem ofLiteral?_whole {whole : List Char} (hwhole : ∀ c ∈ whole, c.isDigit = true)
    (hne : whole ≠ []) : ofLiteral? whole = some (ofParts whole []) := by
  have hrun : Token.IsMaximalRun Char.isDigit whole [] := ⟨hwhole, fun c hc => by cases hc⟩
  have htake := hrun.takeWhile_eq
  have hdrop := hrun.dropWhile_eq
  rw [List.append_nil] at htake hdrop
  simp [ofLiteral?, htake, hdrop, hne]

theorem ofLiteral?_point {whole fraction : List Char} (hwhole : ∀ c ∈ whole, c.isDigit = true)
    (hfraction : ∀ c ∈ fraction, c.isDigit = true) (hne : whole ≠ [] ∨ fraction ≠ []) :
    ofLiteral? (whole ++ '.' :: fraction) = some (ofParts whole fraction) := by
  have hrun : Token.IsMaximalRun Char.isDigit whole ('.' :: fraction) :=
    ⟨hwhole, fun c hc => by obtain rfl := Option.some.inj hc; decide⟩
  have hall : fraction.all Char.isDigit = true := List.all_eq_true.mpr hfraction
  have hempty : ¬(whole.isEmpty ∧ fraction.isEmpty) := by
    rw [List.isEmpty_iff, List.isEmpty_iff]
    exact fun hboth => hne.elim (· hboth.1) (· hboth.2)
  rw [ofLiteral?, hrun.takeWhile_eq, hrun.dropWhile_eq]
  exact if_pos ⟨rfl, hall, hempty⟩

/-- What is read has one of the two forms. -/
theorem isLiteral_of_ofLiteral? {cs : List Char} {d : Decimal} (h : ofLiteral? cs = some d) :
    IsLiteral cs := by
  have hrun := Token.IsMaximalRun.of_takeWhile Char.isDigit cs
  have hsplit := List.takeWhile_append_dropWhile (p := Char.isDigit) (l := cs)
  unfold ofLiteral? at h
  rcases hdrop : cs.dropWhile Char.isDigit with - | ⟨c, fraction⟩
  · simp only [hdrop] at h
    rw [hdrop, List.append_nil] at hsplit
    split_ifs at h with hempty
    rw [hsplit] at hrun hempty
    exact isLiteral_whole hrun.mem fun hnil => hempty (by rw [hnil]; rfl)
  · simp only [hdrop] at h
    split_ifs at h with hform
    obtain ⟨rfl, hfraction, hempty⟩ := hform
    rw [← hsplit, hdrop]
    refine isLiteral_point hrun.mem (List.all_eq_true.mp hfraction) ?_
    by_contra! hboth
    exact hempty ⟨by rw [hboth.1]; rfl, by rw [hboth.2]; rfl⟩

theorem IsLiteral.ofLiteral?_eq {cs : List Char} (h : IsLiteral cs) :
    ofLiteral? cs = some (denoted cs) := by
  rcases h.forms with ⟨hwhole, hne⟩ | ⟨whole, fraction, rfl, hwhole, hfraction, hne⟩
  · rw [ofLiteral?_whole hwhole hne, denoted_whole hwhole]
  · rw [ofLiteral?_point hwhole hfraction hne, denoted_point hwhole hfraction]

/-- **The literals are what can be read**, and they are read as what they denote. -/
theorem ofLiteral?_eq_some_iff {cs : List Char} {d : Decimal} :
    ofLiteral? cs = some d ↔ IsLiteral cs ∧ d = denoted cs := by
  constructor
  · intro h
    have hliteral := isLiteral_of_ofLiteral? h
    rw [hliteral.ofLiteral?_eq] at h
    exact ⟨hliteral, (Option.some.inj h).symm⟩
  · rintro ⟨hliteral, rfl⟩
    exact hliteral.ofLiteral?_eq

end Decimal

end PrimalSimplex
