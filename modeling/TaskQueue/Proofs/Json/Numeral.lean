import TaskQueue.Proofs.Json.Grammar

/-! Numerals are read part by part. What may follow a value never goes on with a numeral, so that a
numeral is taken in full. -/

namespace TaskQueue.Json

def NoDigit (rest : Bytes) : Prop := ∀ next ∈ rest.head?, isDigit next = false

theorem noDigit_cons {next : UInt8} {rest : Bytes} (notDigit : isDigit next = false) :
    NoDigit (next :: rest) := by
  intro other taken
  simp only [List.head?_cons, Option.mem_def, Option.some.injEq] at taken
  rwa [← taken]

theorem Ends.not_numeral {rest : Bytes} (ends : Ends rest) {next : UInt8}
    (first : next ∈ rest.head?) : isDigit next = false ∧ next ≠ byte '.' ∧
      ¬(next = byte 'e' ∨ next = byte 'E') := by
  rcases ends next first with space | rfl | rfl | rfl | rfl
  · simp only [isSpace, Bool.or_eq_true, beq_iff_eq] at space
    rcases space with ((rfl | rfl) | rfl) | rfl <;> decide
  all_goals decide

theorem Ends.noDigit {rest : Bytes} (ends : Ends rest) : NoDigit rest :=
  fun _ first => (ends.not_numeral first).1

theorem digitRun_sound {bytes : Bytes} (some : (digitRun bytes).1 ≠ []) :
    ∃ token, Digits token (digitRun bytes).1 ∧ bytes = token ++ (digitRun bytes).2 := by
  refine ⟨bytes.takeWhile isDigit, ⟨?_, ?_, rfl⟩, (List.takeWhile_append_dropWhile).symm⟩
  · intro none
    simp [digitRun, none] at some
  · intro next taken
    exact List.all_eq_true.mp List.all_takeWhile next taken

theorem digitRun_complete {token rest : Bytes} {digits : List Nat} (isDigits : Digits token digits)
    (noDigit : NoDigit rest) : digitRun (token ++ rest) = (digits, rest) := by
  obtain ⟨_, allDigits, rfl⟩ := isDigits
  have stops : rest.takeWhile isDigit = [] ∧ rest.dropWhile isDigit = rest := by
    cases rest with
    | nil => exact ⟨rfl, rfl⟩
    | cons next others =>
        have notDigit := noDigit next rfl
        simp [notDigit]
  unfold digitRun
  rw [List.takeWhile_append_of_pos allDigits, List.dropWhile_append_of_pos allDigits, stops.1,
    stops.2, List.append_nil]

theorem wholeDigits_sound {atEnd : Cause} {bytes rest : Bytes} {digits : List Nat}
    (done : wholeDigits atEnd bytes = .ok (digits, rest)) :
    ∃ token, WholeText token digits ∧ bytes = token ++ rest := by
  have zero : WholeText [byte '0'] [0] := by
    refine ⟨⟨by simp, ?_, rfl⟩, fun _ => rfl⟩
    intro next isZero
    rw [List.mem_singleton.mp isZero]
    rfl
  unfold wholeDigits at done
  split at done
  · simp at done
  · rename_i next others
    split at done
    · rename_i isZero
      subst next
      split at done
      · split at done
        · simp at done
        · simp only [Except.ok.injEq, Prod.mk.injEq] at done
          obtain ⟨rfl, rfl⟩ := done
          exact ⟨_, zero, rfl⟩
      · simp only [Except.ok.injEq, Prod.mk.injEq] at done
        obtain ⟨rfl, rfl⟩ := done
        exact ⟨_, zero, rfl⟩
    · rename_i notZero
      split at done
      · rename_i digit
        have some : (digitRun (next :: others)).1 ≠ [] := by simp [digitRun, digit]
        obtain ⟨token, isDigits, whole⟩ := digitRun_sound some
        simp only [Except.ok.injEq] at done
        rw [done] at isDigits whole
        refine ⟨token, ⟨isDigits, ?_⟩, whole⟩
        intro startsWithZero
        cases token with
        | nil => simp at startsWithZero
        | cons first more =>
            simp only [List.head?_cons, Option.some.injEq] at startsWithZero
            rw [List.cons_append] at whole
            exact absurd ((List.cons.inj whole).1.trans startsWithZero) notZero
      · simp at done

theorem wholeDigits_complete (atEnd : Cause) {token rest : Bytes} {digits : List Nat}
    (isWhole : WholeText token digits) (noDigit : NoDigit rest) :
    wholeDigits atEnd (token ++ rest) = .ok (digits, rest) := by
  obtain ⟨isDigits, zeroAlone⟩ := isWhole
  have run := digitRun_complete isDigits noDigit
  cases token with
  | nil => exact absurd rfl isDigits.1
  | cons next others =>
      by_cases isZero : next = byte '0'
      · obtain ⟨rfl, rfl⟩ := List.cons.inj (zeroAlone (by rw [isZero]; rfl))
        obtain rfl := isDigits.2.2
        cases rest with
        | nil => rfl
        | cons after more =>
            have notDigit := noDigit after rfl
            simp only [List.singleton_append, wholeDigits, if_true, notDigit]
            rfl
      · have digit := isDigits.2.1 next List.mem_cons_self
        rw [List.cons_append] at run ⊢
        simp only [wholeDigits, if_neg isZero, digit, if_true, run]

theorem fractionDigits_sound {atEnd : Cause} {bytes rest : Bytes} {digits : List Nat}
    (done : fractionDigits atEnd bytes = .ok (digits, rest)) :
    ∃ token, FractionText token digits ∧ bytes = token ++ rest := by
  unfold fractionDigits at done
  split at done
  · simp only [Except.ok.injEq, Prod.mk.injEq] at done
    obtain ⟨rfl, rfl⟩ := done
    exact ⟨[], .none, rfl⟩
  · rename_i next others
    split at done
    · rename_i isPoint
      subst next
      dsimp only at done
      split at done
      · simp at done
      · rename_i notEmpty
        obtain ⟨token, isDigits, whole⟩ := digitRun_sound (by simpa using notEmpty)
        simp only [Except.ok.injEq] at done
        rw [done] at isDigits whole
        exact ⟨_, .some isDigits, by rw [whole]; rfl⟩
    · simp only [Except.ok.injEq, Prod.mk.injEq] at done
      obtain ⟨rfl, rfl⟩ := done
      exact ⟨[], .none, rfl⟩

theorem fractionDigits_complete (atEnd : Cause) {token rest : Bytes} {digits : List Nat}
    (isFraction : FractionText token digits) (noDigit : NoDigit rest)
    (noPoint : ∀ next ∈ rest.head?, next ≠ byte '.') :
    fractionDigits atEnd (token ++ rest) = .ok (digits, rest) := by
  cases isFraction with
  | none =>
      cases rest with
      | nil => rfl
      | cons next others => simp [fractionDigits, noPoint next rfl]
  | some isDigits =>
      rename_i token
      have run := digitRun_complete isDigits noDigit
      have notEmpty : digits.isEmpty = false := by
        obtain ⟨some, _, rfl⟩ := isDigits
        simpa using some
      simp [fractionDigits, run, notEmpty]

theorem exponentSign_sound (bytes : Bytes) :
    ∃ token, SignText token (exponentSign bytes).1 ∧ bytes = token ++ (exponentSign bytes).2 := by
  unfold exponentSign
  split
  · exact ⟨[], .none, rfl⟩
  · rename_i next others
    split
    · rename_i isPlus
      subst next
      exact ⟨_, .plus, rfl⟩
    · split
      · rename_i isMinus
        subst next
        exact ⟨_, .minus, rfl⟩
      · exact ⟨[], .none, rfl⟩

theorem exponentSign_complete {sign : Bytes} {downward : Bool} (isSign : SignText sign downward)
    {next : UInt8} {rest : Bytes} (digit : isDigit next = true) :
    exponentSign (sign ++ next :: rest) = (downward, next :: rest) := by
  cases isSign with
  | none =>
      have notPlus : next ≠ byte '+' := by
        rintro rfl
        exact absurd digit (by decide)
      have notMinus : next ≠ byte '-' := by
        rintro rfl
        exact absurd digit (by decide)
      simp [exponentSign, notPlus, notMinus]
  | plus => rfl
  | minus => rfl

theorem exponentDigits_sound {atEnd : Cause} {bytes rest : Bytes}
    {exponent : Option (Bool × List Nat)}
    (done : exponentDigits atEnd bytes = .ok (exponent, rest)) :
    ∃ token, ExponentText token exponent ∧ bytes = token ++ rest := by
  unfold exponentDigits at done
  split at done
  · simp only [Except.ok.injEq, Prod.mk.injEq] at done
    obtain ⟨rfl, rfl⟩ := done
    exact ⟨[], .none, rfl⟩
  · rename_i next others
    split at done
    · rename_i isMark
      dsimp only at done
      obtain ⟨sign, isSign, split⟩ := exponentSign_sound others
      split at done
      · simp at done
      · rename_i digit after signed
        split at done
        · rename_i isDigit
          have some : (digitRun (digit :: after)).1 ≠ [] := by simp [digitRun, isDigit]
          obtain ⟨token, isDigits, whole⟩ := digitRun_sound some
          simp only [Except.ok.injEq, Prod.mk.injEq] at done
          obtain ⟨rfl, rfl⟩ := done
          refine ⟨_, .some isMark isSign isDigits, ?_⟩
          rw [split, signed, List.cons_append, List.append_assoc, ← whole]
        · simp at done
    · simp only [Except.ok.injEq, Prod.mk.injEq] at done
      obtain ⟨rfl, rfl⟩ := done
      exact ⟨[], .none, rfl⟩

theorem exponentDigits_complete (atEnd : Cause) {token rest : Bytes}
    {exponent : Option (Bool × List Nat)} (isExponent : ExponentText token exponent)
    (ends : Ends rest) : exponentDigits atEnd (token ++ rest) = .ok (exponent, rest) := by
  cases isExponent with
  | none =>
      cases rest with
      | nil => rfl
      | cons next others =>
          rw [List.nil_append, exponentDigits, if_neg (ends.not_numeral rfl).2.2]
  | some isMark isSign isDigits =>
      rename_i mark sign token downward digits
      have run := digitRun_complete isDigits ends.noDigit
      cases token with
      | nil => exact absurd rfl isDigits.1
      | cons next others =>
          have digit := isDigits.2.1 next List.mem_cons_self
          have signed : exponentSign (sign ++ next :: (others ++ rest)) =
              (downward, next :: (others ++ rest)) := exponentSign_complete isSign digit
          rw [List.cons_append] at run
          simp only [List.cons_append, List.append_assoc, exponentDigits, if_pos isMark, signed,
            digit, if_true, run]

theorem ExponentText.continues {token rest : Bytes} {exponent : Option (Bool × List Nat)}
    (isExponent : ExponentText token exponent) (ends : Ends rest) :
    NoDigit (token ++ rest) ∧ ∀ next ∈ (token ++ rest).head?, next ≠ byte '.' := by
  cases isExponent with
  | none => exact ⟨ends.noDigit, fun next first => (ends.not_numeral first).2.1⟩
  | some isMark _ _ =>
      rcases isMark with rfl | rfl
      · exact ⟨noDigit_cons (by decide), fun next first => by
          obtain rfl := Option.some.inj first
          decide⟩
      · exact ⟨noDigit_cons (by decide), fun next first => by
          obtain rfl := Option.some.inj first
          decide⟩

theorem FractionText.continues {token rest : Bytes} {digits : List Nat}
    (isFraction : FractionText token digits) (noDigit : NoDigit rest) :
    NoDigit (token ++ rest) := by
  cases isFraction with
  | none => exact noDigit
  | some _ => exact noDigit_cons (by decide)

theorem minus_sound (bytes : Bytes) :
    bytes = (if (minus bytes).1 then [byte '-'] else []) ++ (minus bytes).2 := by
  unfold minus
  split
  · rfl
  · split
    · rename_i isMinus
      rw [isMinus]
      rfl
    · rfl

theorem minus_complete (negative : Bool) {token : Bytes} {digits : List Nat}
    (isWhole : WholeText token digits) (rest : Bytes) :
    minus ((if negative then [byte '-'] else []) ++ (token ++ rest)) =
      (negative, token ++ rest) := by
  cases negative with
  | true => rfl
  | false =>
      cases token with
      | nil => exact absurd rfl isWhole.1.1
      | cons next others =>
          have notMinus : next ≠ byte '-' := by
            rintro rfl
            exact absurd (isWhole.1.2.1 _ List.mem_cons_self) (by decide)
          simp [minus, notMinus]

theorem readNumeral_sound {atEnd : Cause} {bytes rest : Bytes} {parts : Numeral}
    (done : readNumeral atEnd bytes = .ok (parts, rest)) :
    ∃ token, NumeralText token parts ∧ bytes = token ++ rest := by
  unfold readNumeral at done
  split at done
  · simp at done
  · rename_i whole afterWhole wholeDone
    split at done
    · simp at done
    · rename_i fraction afterFraction fractionDone
      split at done
      · simp at done
      · rename_i exponent afterExponent exponentDone
        simp only [Except.ok.injEq, Prod.mk.injEq] at done
        obtain ⟨rfl, rfl⟩ := done
        obtain ⟨wholeToken, isWhole, wholeSplit⟩ := wholeDigits_sound wholeDone
        obtain ⟨fractionToken, isFraction, rfl⟩ := fractionDigits_sound fractionDone
        obtain ⟨exponentToken, isExponent, rfl⟩ := exponentDigits_sound exponentDone
        have signed := minus_sound bytes
        rw [wholeSplit] at signed
        exact ⟨_, .mk isWhole isFraction isExponent, by simpa using signed⟩

theorem readNumeral_complete (atEnd : Cause) {token rest : Bytes} {parts : Numeral}
    (isNumeral : NumeralText token parts) (ends : Ends rest) :
    readNumeral atEnd (token ++ rest) = .ok (parts, rest) := by
  obtain ⟨isWhole, isFraction, isExponent⟩ := isNumeral
  rename_i negative whole fraction exponent wholeDigits fractionDigits power
  obtain ⟨noDigit, noPoint⟩ := isExponent.continues ends
  have afterWhole := isFraction.continues noDigit
  have wholeDone := wholeDigits_complete atEnd isWhole afterWhole
  have fractionDone := fractionDigits_complete atEnd isFraction noDigit noPoint
  have exponentDone := exponentDigits_complete atEnd isExponent ends
  have signed := minus_complete negative isWhole (fraction ++ (exponent ++ rest))
  simp only [List.append_assoc]
  simp only [readNumeral, signed, wholeDone, fractionDone, exponentDone]

theorem readNumber_sound {bytes rest : Bytes} {value : Number}
    (done : readNumber bytes = .ok (value, rest)) :
    ∃ token parts, NumeralText token parts ∧ parts.value = .ok value ∧ bytes = token ++ rest := by
  unfold readNumber at done
  split at done
  · simp at done
  · rename_i parts after found
    split at done
    · rename_i number inRange
      simp only [Except.ok.injEq, Prod.mk.injEq] at done
      obtain ⟨rfl, rfl⟩ := done
      obtain ⟨token, isNumeral, whole⟩ := readNumeral_sound found
      exact ⟨token, parts, isNumeral, inRange, whole⟩
    · simp at done

theorem readNumber_complete {token rest : Bytes} {parts : Numeral} {value : Number}
    (isNumeral : NumeralText token parts) (inRange : parts.value = .ok value) (ends : Ends rest) :
    readNumber (token ++ rest) = .ok (value, rest) := by
  simp only [readNumber, readNumeral_complete .endInValue isNumeral ends, inRange]

theorem skipNumber_sound {bytes rest : Bytes} (done : skipNumber bytes = .ok rest) :
    ∃ token parts, NumeralText token parts ∧ bytes = token ++ rest := by
  unfold skipNumber at done
  split at done
  · simp at done
  · rename_i parts after found
    simp only [Except.ok.injEq] at done
    subst after
    obtain ⟨token, isNumeral, whole⟩ := readNumeral_sound found
    exact ⟨token, parts, isNumeral, whole⟩

theorem skipNumber_complete {token rest : Bytes} {parts : Numeral}
    (isNumeral : NumeralText token parts) (ends : Ends rest) :
    skipNumber (token ++ rest) = .ok rest := by
  simp only [skipNumber, readNumeral_complete .invalidNumber isNumeral ends]

end TaskQueue.Json
