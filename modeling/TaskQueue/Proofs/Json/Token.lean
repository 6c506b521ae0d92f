import TaskQueue.Proofs.Json.Grammar

/-! The smallest parts of a JSON text. Each scanner takes a part of the grammar off the front of the
bytes, and takes every such part in full. -/

namespace TaskQueue.Json

theorem blank_nil : Blank [] := by
  intro next taken
  simp at taken

theorem Blank.append {left right : Bytes} (leftBlank : Blank left) (rightBlank : Blank right) :
    Blank (left ++ right) := by
  intro next taken
  rcases List.mem_append.mp taken with inLeft | inRight
  · exact leftBlank next inLeft
  · exact rightBlank next inRight

theorem skipSpace_blank {space : Bytes} (blank : Blank space) (bytes : Bytes) :
    skipSpace (space ++ bytes) = skipSpace bytes := by
  unfold skipSpace
  exact List.dropWhile_append_of_pos blank

theorem skipSpace_of_not {next : UInt8} (notSpace : isSpace next = false) (rest : Bytes) :
    skipSpace (next :: rest) = next :: rest := by
  simp [skipSpace, notSpace]

theorem skipSpace_blank_cons {space : Bytes} (blank : Blank space) {next : UInt8}
    (notSpace : isSpace next = false) (rest : Bytes) :
    skipSpace (space ++ next :: rest) = next :: rest := by
  rw [skipSpace_blank blank, skipSpace_of_not notSpace]

theorem skipSpace_eq {bytes left : Bytes} (skipped : skipSpace bytes = left) :
    ∃ space, Blank space ∧ bytes = space ++ left := by
  refine ⟨bytes.takeWhile isSpace, ?_, ?_⟩
  · intro next taken
    exact List.all_eq_true.mp List.all_takeWhile next taken
  · rw [← skipped]
    exact (List.takeWhile_append_dropWhile).symm

theorem skipSpace_nil_iff {bytes : Bytes} : skipSpace bytes = [] ↔ Blank bytes := by
  constructor
  · intro skipped
    obtain ⟨space, blank, equal⟩ := skipSpace_eq skipped
    rwa [equal, List.append_nil]
  · intro blank
    have skipped := skipSpace_blank blank []
    rwa [List.append_nil] at skipped

theorem ends_cons {next : UInt8} {rest : Bytes} (separates : isSpace next = true ∨
    next = byte ',' ∨ next = byte ':' ∨ next = byte ']' ∨ next = byte '\x7d') :
    Ends (next :: rest) := by
  intro other taken
  simp only [List.head?_cons, Option.mem_def, Option.some.injEq] at taken
  rwa [← taken]

theorem Ends.blank_append {space rest : Bytes} (blank : Blank space) (ends : Ends rest) :
    Ends (space ++ rest) := by
  cases space with
  | nil => exact ends
  | cons next others => exact ends_cons (Or.inl (blank next List.mem_cons_self))

theorem readWord_sound {letters : List Char} {bytes rest : Bytes}
    (done : readWord letters bytes = .ok rest) : bytes = encodeWord letters ++ rest := by
  fun_induction readWord letters bytes with
  | case1 bytes =>
      simp only [Except.ok.injEq] at done
      simp [encodeWord, done]
  | case2 => simp at done
  | case3 letter letters rest' ih => simp [encodeWord, ih done]
  | case4 => simp at done

theorem readWord_complete (letters : List Char) (rest : Bytes) :
    readWord letters (encodeWord letters ++ rest) = .ok rest := by
  induction letters with
  | nil => rfl
  | cons letter letters ih =>
      simp only [encodeWord, List.map_cons, List.cons_append, readWord, if_true]
      exact ih

theorem hexQuad_iff {bytes rest : Bytes} {code : Nat} :
    hexQuad bytes = .ok (code, rest) ↔ ∃ digits, IsQuad digits code ∧ bytes = digits ++ rest := by
  constructor
  · intro done
    unfold hexQuad at done
    split at done
    · split at done
      · rename_i first second third fourth others a b c d isFirst isSecond isThird isFourth
        simp only [Except.ok.injEq, Prod.mk.injEq] at done
        obtain ⟨rfl, rfl⟩ := done
        exact ⟨_, .mk isFirst isSecond isThird isFourth, rfl⟩
      · simp at done
    · simp at done
  · rintro ⟨digits, ⟨isFirst, isSecond, isThird, isFourth⟩, rfl⟩
    simp [hexQuad, isFirst, isSecond, isThird, isFourth]

theorem pairByte_iff {expected : UInt8} {bytes rest : Bytes} :
    pairByte expected bytes = .ok rest ↔ bytes = expected :: rest := by
  unfold pairByte
  split
  · simp
  · rename_i next others
    by_cases same : next = expected <;> simp [same]

theorem trailingHalf_iff {leading : Nat} {bytes rest meant : Bytes} :
    trailingHalf leading bytes = .ok (meant, rest) ↔
      ∃ digits trailing, IsQuad digits trailing ∧ isTrailingSurrogate trailing = true ∧
        meant = scalarBytes (0x10000 + (leading - 0xD800) * 0x400 + (trailing - 0xDC00)) ∧
        bytes = byte '\\' :: byte 'u' :: (digits ++ rest) := by
  constructor
  · intro done
    unfold trailingHalf at done
    split at done
    · simp at done
    · rename_i afterSlash slash
      split at done
      · simp at done
      · rename_i afterLetter letter
        split at done
        · simp at done
        · rename_i trailing after quad
          split at done
          · rename_i isTrailing
            simp only [Except.ok.injEq, Prod.mk.injEq] at done
            obtain ⟨rfl, rfl⟩ := done
            obtain ⟨digits, isQuad, rfl⟩ := hexQuad_iff.mp quad
            obtain rfl := pairByte_iff.mp letter
            obtain rfl := pairByte_iff.mp slash
            exact ⟨digits, trailing, isQuad, isTrailing, rfl, rfl⟩
          · simp at done
  · rintro ⟨digits, trailing, isQuad, isTrailing, means, rfl⟩
    rw [means]
    have slash : pairByte (byte '\\') (byte '\\' :: byte 'u' :: (digits ++ rest)) =
        .ok (byte 'u' :: (digits ++ rest)) := pairByte_iff.mpr rfl
    have letter : pairByte (byte 'u') (byte 'u' :: (digits ++ rest)) = .ok (digits ++ rest) :=
      pairByte_iff.mpr rfl
    have quad : hexQuad (digits ++ rest) = .ok (trailing, rest) :=
      hexQuad_iff.mpr ⟨digits, isQuad, rfl⟩
    unfold trailingHalf
    rw [slash]
    dsimp only
    rw [letter]
    dsimp only
    rw [quad]
    exact if_pos isTrailing

@[simp] theorem not_shortEscape_u : shortEscape? (byte 'u') = none := by decide

theorem unicodeEscape_iff {bytes rest meant : Bytes} :
    unicodeEscape bytes = .ok (meant, rest) ↔
      ∃ letters, KeptEscape (byte 'u' :: letters) meant ∧ bytes = letters ++ rest := by
  constructor
  · intro done
    unfold unicodeEscape at done
    split at done
    · simp at done
    · rename_i code after quad
      obtain ⟨digits, isQuad, rfl⟩ := hexQuad_iff.mp quad
      split at done
      · simp at done
      · rename_i notTrailing
        split at done
        · rename_i isLeading
          obtain ⟨others, trailing, otherQuad, isTrailing, means, rfl⟩ := trailingHalf_iff.mp done
          rw [means]
          exact ⟨_, .pair isQuad isLeading otherQuad isTrailing, by simp⟩
        · rename_i notLeading
          simp only [Except.ok.injEq, Prod.mk.injEq] at done
          obtain ⟨rfl, rfl⟩ := done
          exact ⟨digits, .scalar isQuad (by simpa using notLeading) (by simpa using notTrailing),
            rfl⟩
  · rintro ⟨letters, escape, rfl⟩
    unfold unicodeEscape
    cases escape with
    | short known => simp at known
    | scalar isQuad notLeading notTrailing =>
        rw [hexQuad_iff.mpr ⟨letters, isQuad, rfl⟩]
        simp [notLeading, notTrailing]
    | pair isQuad isLeading otherQuad isTrailing =>
        rename_i leadingDigits trailingDigits leading trailing
        have quad : hexQuad ((leadingDigits ++ byte '\\' :: byte 'u' :: trailingDigits) ++ rest) =
            .ok (leading, byte '\\' :: byte 'u' :: (trailingDigits ++ rest)) :=
          hexQuad_iff.mpr ⟨leadingDigits, isQuad, by simp⟩
        rw [quad]
        have notTrailing : isTrailingSurrogate leading = false := by
          simp only [isLeadingSurrogate, isTrailingSurrogate, Bool.and_eq_true,
            decide_eq_true_eq, Bool.and_eq_false_iff, decide_eq_false_iff_not] at isLeading ⊢
          omega
        dsimp only
        rw [if_neg (by simp [notTrailing]), if_pos isLeading]
        exact trailingHalf_iff.mpr ⟨trailingDigits, trailing, otherQuad, isTrailing, rfl, rfl⟩

theorem readEscape_iff {bytes rest meant : Bytes} :
    readEscape bytes = .ok (meant, rest) ↔
      ∃ letters, KeptEscape letters meant ∧ bytes = letters ++ rest := by
  constructor
  · intro done
    unfold readEscape at done
    split at done
    · simp at done
    · rename_i letter others
      split at done
      · rename_i stands known
        simp only [Except.ok.injEq, Prod.mk.injEq] at done
        obtain ⟨rfl, rfl⟩ := done
        exact ⟨[letter], .short known, rfl⟩
      · split at done
        · rename_i isUnicode
          subst letter
          obtain ⟨letters, escape, rfl⟩ := unicodeEscape_iff.mp done
          exact ⟨_, escape, rfl⟩
        · simp at done
  · rintro ⟨letters, escape, rfl⟩
    cases escape with
    | short known => simp [readEscape, known]
    | scalar isQuad notLeading notTrailing =>
        have done := unicodeEscape_iff.mpr
          ⟨_, .scalar isQuad notLeading notTrailing, (rfl : _ ++ rest = _)⟩
        simp only [List.cons_append, readEscape, not_shortEscape_u, if_true]
        exact done
    | pair isQuad isLeading otherQuad isTrailing =>
        have done := unicodeEscape_iff.mpr
          ⟨_, .pair isQuad isLeading otherQuad isTrailing, (rfl : _ ++ rest = _)⟩
        simp only [List.cons_append, readEscape, not_shortEscape_u, if_true]
        exact done

theorem skipEscape_iff {bytes rest : Bytes} :
    skipEscape bytes = .ok rest ↔
      ∃ letters, PassedEscape letters [] ∧ bytes = letters ++ rest := by
  constructor
  · intro done
    unfold skipEscape at done
    split at done
    · simp at done
    · rename_i letter others
      split at done
      · rename_i stands known
        simp only [Except.ok.injEq] at done
        subst others
        exact ⟨[letter], .short known, rfl⟩
      · split at done
        · rename_i isUnicode
          subst letter
          split at done
          · simp at done
          · rename_i code after quad
            simp only [Except.ok.injEq] at done
            subst after
            obtain ⟨digits, isQuad, rfl⟩ := hexQuad_iff.mp quad
            exact ⟨_, .quad isQuad, rfl⟩
        · simp at done
  · rintro ⟨letters, escape, rfl⟩
    cases escape with
    | short known => simp [skipEscape, known]
    | quad isQuad =>
        simp only [List.cons_append, skipEscape, not_shortEscape_u, if_true,
          hexQuad_iff.mpr ⟨_, isQuad, rfl⟩]

theorem readTextBytes_sound {bytes before content rest : Bytes}
    (done : readTextBytes bytes before = .ok (content, rest)) :
    ∃ letters meant, Spelled KeptEscape letters meant ∧ bytes = letters ++ byte '"' :: rest ∧
      content = before.reverse ++ meant := by
  fun_induction readTextBytes bytes before with
  | case1 => simp at done
  | case2 before others =>
      simp only [Except.ok.injEq, Prod.mk.injEq] at done
      obtain ⟨rfl, rfl⟩ := done
      exact ⟨[], [], .nil, rfl, (List.append_nil _).symm⟩
  | case3 => simp at done
  | case4 before others one after escaped notEnd ih =>
      obtain ⟨letters, meant, spelled, rfl, rfl⟩ := ih done
      obtain ⟨code, escape, rfl⟩ := readEscape_iff.mp escaped
      exact ⟨_, _, .escape escape spelled, by simp, by simp⟩
  | case5 => simp at done
  | case6 before next others notEnd notEscape printable ih =>
      obtain ⟨letters, meant, spelled, rfl, rfl⟩ := ih done
      exact ⟨_, _, .plain notEnd notEscape printable spelled, rfl, by simp⟩

theorem readTextBytes_complete {letters meant : Bytes} (spelled : Spelled KeptEscape letters meant)
    (rest before : Bytes) :
    readTextBytes (letters ++ byte '"' :: rest) before = .ok (before.reverse ++ meant, rest) := by
  induction spelled generalizing before with
  | nil =>
      rw [List.nil_append, readTextBytes, if_pos rfl, List.append_nil]
  | plain notEnd notEscape printable _ ih =>
      rw [List.cons_append, readTextBytes, if_neg notEnd, if_neg notEscape, if_neg printable, ih]
      simp
  | escape isEscape _ ih =>
      rename_i code one others meant _
      have escaped : readEscape (code ++ (others ++ byte '"' :: rest)) =
          .ok (one, others ++ byte '"' :: rest) := readEscape_iff.mpr ⟨code, isEscape, rfl⟩
      rw [List.cons_append, List.append_assoc, readTextBytes, if_neg (by decide), if_pos rfl]
      split
      · simp_all
      · rename_i stands after found
        rw [escaped] at found
        obtain ⟨rfl, rfl⟩ := Prod.mk.inj (Except.ok.inj found)
        rw [ih]
        simp

theorem toText?_iff {bytes : Bytes} {value : String} :
    bytes.toText? = some value ↔ bytes = Bytes.ofText value := by
  constructor
  · intro read
    unfold Bytes.toText? String.fromUTF8? at read
    split at read
    · obtain rfl := Option.some.inj read
      rfl
    · simp at read
  · rintro rfl
    exact Bytes.toText?_ofText value

theorem readText_iff {bytes rest : Bytes} {value : String} :
    readText bytes = .ok (value, rest) ↔
      ∃ content, Spelled KeptEscape content (Bytes.ofText value) ∧
        bytes = content ++ byte '"' :: rest := by
  constructor
  · intro done
    unfold readText at done
    split at done
    · simp at done
    · rename_i content after found
      split at done
      · rename_i text isText
        simp only [Except.ok.injEq, Prod.mk.injEq] at done
        obtain ⟨rfl, rfl⟩ := done
        obtain ⟨letters, meant, spelled, rfl, whole⟩ := readTextBytes_sound found
        rw [List.reverse_nil, List.nil_append] at whole
        rw [toText?_iff.mp isText] at whole
        rw [← whole] at spelled
        exact ⟨letters, spelled, rfl⟩
      · simp at done
  · rintro ⟨content, spelled, rfl⟩
    simp [readText, readTextBytes_complete spelled rest [], Bytes.toText?_ofText]

theorem skipText_iff {bytes rest : Bytes} :
    skipText bytes = .ok rest ↔
      ∃ content meant, Spelled PassedEscape content meant ∧
        bytes = content ++ byte '"' :: rest := by
  constructor
  · intro done
    fun_induction skipText bytes with
    | case1 => simp at done
    | case2 others =>
        simp only [Except.ok.injEq] at done
        subst others
        exact ⟨[], [], .nil, rfl⟩
    | case3 => simp at done
    | case4 others after escaped notEnd ih =>
        obtain ⟨letters, meant, spelled, rfl⟩ := ih done
        obtain ⟨code, escape, rfl⟩ := skipEscape_iff.mp escaped
        exact ⟨_, _, .escape escape spelled, by simp⟩
    | case5 => simp at done
    | case6 next others notEnd notEscape printable ih =>
        obtain ⟨letters, meant, spelled, rfl⟩ := ih done
        exact ⟨_, _, .plain notEnd notEscape printable spelled, rfl⟩
  · rintro ⟨content, meant, spelled, rfl⟩
    induction spelled with
    | nil => rw [List.nil_append, skipText, if_pos rfl]
    | plain notEnd notEscape printable _ ih =>
        rw [List.cons_append, skipText, if_neg notEnd, if_neg notEscape, if_neg printable]
        exact ih
    | escape isEscape _ ih =>
        rename_i code one others _ _
        have noMeaning : one = [] := by cases isEscape <;> rfl
        subst one
        have escaped : skipEscape (code ++ (others ++ byte '"' :: rest)) =
            .ok (others ++ byte '"' :: rest) := skipEscape_iff.mpr ⟨code, isEscape, rfl⟩
        rw [List.cons_append, List.append_assoc, skipText, if_neg (by decide), if_pos rfl]
        split
        · simp_all
        · rename_i after found
          rw [escaped] at found
          obtain rfl := Except.ok.inj found
          exact ih

end TaskQueue.Json
