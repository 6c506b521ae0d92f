import TaskQueue.Proofs.Json.Printed
import TaskQueue.Proofs.Json.Written

/-!
Natural numbers in documents. A number of 64 bits is taken from a numeral that is nothing but its
digits; no other numeral gives one, be it negative, with a fraction or an exponent, or too large.
-/

namespace TaskQueue.Json

def NaturalText (token : Bytes) (number : UInt64) : Prop :=
  ∃ digits, WholeText token digits ∧ Decimal.value digits = number.toNat

inductive OptionalText : Bytes → Option UInt64 → Prop
  | none : OptionalText (encodeWord ['n', 'u', 'l', 'l']) none
  | some {token : Bytes} {number : UInt64} :
      NaturalText token number → OptionalText token (some number)

def plainNumeral (digits : List Nat) : Numeral := ⟨false, digits, [], none⟩

theorem WholeText.numeral {token : Bytes} {digits : List Nat} (isWhole : WholeText token digits) :
    NumeralText token (plainNumeral digits) := by
  have isNumeral : NumeralText ((if false then [byte '-'] else []) ++ (token ++ ([] ++ [])))
      (plainNumeral digits) := .mk isWhole .none .none
  simpa using isNumeral

theorem NumeralText.whole {token : Bytes} {digits : List Nat}
    (isNumeral : NumeralText token (plainNumeral digits)) : WholeText token digits := by
  generalize plain : plainNumeral digits = parts at isNumeral
  obtain ⟨isWhole, isFraction, isExponent⟩ := isNumeral
  obtain ⟨rfl, rfl, rfl, rfl⟩ := Numeral.mk.inj plain
  cases isExponent with
  | none =>
      cases isFraction with
      | none => simpa using isWhole
      | some isDigits =>
          have empty := isDigits.2.2
          simp only [List.nil_eq, List.map_eq_nil_iff] at empty
          exact absurd empty isDigits.1

theorem gather_all {start : Nat} {digits : List Nat} {significand : Nat}
    (small : start < UInt64.size) (gathered : Numeral.gather start digits = (significand, [])) :
    significand = digits.foldl (fun total digit => total * 10 + digit) start ∧
      significand < UInt64.size := by
  induction digits generalizing start with
  | nil =>
      simp only [Numeral.gather, Prod.mk.injEq, and_true] at gathered
      exact ⟨gathered.symm, gathered ▸ small⟩
  | cons digit rest ih =>
      unfold Numeral.gather at gathered
      split at gathered
      · rename_i fits
        exact ih fits gathered
      · simp at gathered

theorem scaled_ne_natural {negative : Bool} {significand : Nat} {exponent : Int}
    {number : UInt64} :
    Numeral.scaled negative significand exponent ≠ .ok (.natural number) := by
  unfold Numeral.scaled Numeral.double
  split <;> simp

theorem value_natural {digits : List Nat} {number : UInt64}
    (spelled : Decimal.value digits = number.toNat) :
    (plainNumeral digits).value = .ok (.natural number) := by
  have fits : digits.foldl (fun total digit => total * 10 + digit) 0 < UInt64.size := by
    have small := number.toNat_lt
    rw [← spelled] at small
    exact small
  have gathered := gather_foldl digits 0 fits
  have whole : digits.foldl (fun total digit => total * 10 + digit) 0 = number.toNat := spelled
  simp [plainNumeral, Numeral.value, gathered, whole, Numeral.integer, Nat.toUInt64]

theorem eq_natural_of_value {parts : Numeral} {number : UInt64}
    (value : parts.value = .ok (.natural number)) :
    parts = plainNumeral parts.whole ∧ Decimal.value parts.whole = number.toNat := by
  obtain ⟨negative, whole, fraction, exponent⟩ := parts
  unfold Numeral.value at value
  dsimp only at value
  split at value
  · split at value
    · rename_i plain
      simp only [Bool.and_eq_true, List.isEmpty_iff] at plain
      obtain ⟨noFraction, all⟩ := plain
      subst noFraction
      have gathered : Numeral.gather 0 whole = ((Numeral.gather 0 whole).1, []) :=
        Prod.ext rfl all
      obtain ⟨spelled, small⟩ := gather_all (by decide) gathered
      unfold Numeral.integer at value
      split at value
      · split at value <;> simp [Numeral.double] at value
      · rename_i positive
        simp only [Bool.not_eq_true] at positive
        subst positive
        simp only [Except.ok.injEq, Number.natural.injEq] at value
        refine ⟨rfl, ?_⟩
        rw [← value]
        unfold Decimal.value
        rw [← spelled]
        exact (UInt64.toNat_ofNat_of_lt small).symm
    · exact absurd value scaled_ne_natural
  · split at value
    · split at value <;> simp [Numeral.double] at value
    · exact absurd value scaled_ne_natural

theorem naturalText_iff {token : Bytes} {number : UInt64} :
    NaturalText token number ↔
      ∃ parts, NumeralText token parts ∧ parts.value = .ok (.natural number) := by
  constructor
  · rintro ⟨digits, isWhole, spelled⟩
    exact ⟨_, WholeText.numeral isWhole, value_natural spelled⟩
  · rintro ⟨parts, isNumeral, value⟩
    obtain ⟨same, spelled⟩ := eq_natural_of_value value
    rw [same] at isNumeral
    exact ⟨parts.whole, isNumeral.whole, spelled⟩

theorem NaturalText.passed {token : Bytes} {number : UInt64}
    (isNatural : NaturalText token number) : PassedScalar token := by
  obtain ⟨digits, isWhole, _⟩ := isNatural
  exact .number isWhole.numeral

theorem OptionalText.passed {token : Bytes} {number? : Option UInt64}
    (isOptional : OptionalText token number?) : PassedScalar token := by
  cases isOptional with
  | none => exact .null
  | some isNatural => exact isNatural.passed

theorem OptionalText.not_unnatural {token : Bytes} {number? : Option UInt64} {parts : Numeral}
    (isOptional : OptionalText token number?) (isNumeral : NumeralText token parts)
    (unnatural : parts.negative = true ∨ parts.fraction ≠ [] ∨ parts.exponent.isSome = true ∨
      UInt64.size ≤ Decimal.value parts.whole) : False := by
  cases isOptional with
  | none =>
      obtain ⟨next, rest, whole, starts⟩ := isNumeral.starts
      obtain ⟨rfl, _⟩ := List.cons.inj whole
      exact absurd starts (by decide)
  | some isNatural =>
      obtain ⟨digits, isWhole, spelled⟩ := isNatural
      obtain rfl := isNumeral.same isWhole.numeral
      have small : Decimal.value digits < UInt64.size := spelled ▸ UInt64.toNat_lt_size _
      simp [plainNumeral] at unnatural
      omega

theorem Shape.natural_follows (expected : String) :
    (Shape.natural expected).reader.Follows NaturalText := by
  refine (Shape.scalar_follows (Shape.fitNatural expected)).of_iff ?_
  intro token number
  rw [naturalText_iff]
  constructor
  · rintro ⟨scalar, isScalar, fits⟩
    cases isScalar with
    | number isNumeral value =>
        rename_i parts read
        cases read with
        | natural read =>
            obtain rfl := Except.ok.inj fits
            exact ⟨parts, isNumeral, value⟩
        | _ => simp [Shape.fitNatural] at fits
    | _ => simp [Shape.fitNatural] at fits
  · rintro ⟨parts, isNumeral, value⟩
    exact ⟨.number (.natural number), .number isNumeral value, rfl⟩

theorem Shape.optional_natural_follows (expected : String) :
    (Shape.optional (Shape.fitNatural expected)).reader.Follows OptionalText := by
  refine (Shape.scalar_follows (Shape.fitOptional (Shape.fitNatural expected))).of_iff ?_
  intro token number?
  constructor
  · rintro ⟨scalar, isScalar, fits⟩
    cases isScalar with
    | null =>
        obtain rfl := Except.ok.inj fits
        exact .none
    | number isNumeral value =>
        rename_i parts read
        cases read with
        | natural read =>
            obtain rfl := Except.ok.inj fits
            exact .some (naturalText_iff.mpr ⟨parts, isNumeral, value⟩)
        | _ => simp [Shape.fitOptional, Shape.fitNatural, Except.map] at fits
    | _ => simp [Shape.fitOptional, Shape.fitNatural, Except.map] at fits
  · rintro (_ | isNatural)
    · exact ⟨.null, .null, rfl⟩
    · obtain ⟨parts, isNumeral, value⟩ := naturalText_iff.mp isNatural
      exact ⟨_, .number isNumeral value, rfl⟩

end TaskQueue.Json
