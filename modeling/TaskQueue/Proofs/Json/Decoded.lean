import TaskQueue.Proofs.Json.Container
import TaskQueue.Proofs.Json.Numeral

/-! A decoder with so many levels reads exactly the kept values with at most so many levels. The
proof is by induction on the levels; inside a bracket the decoder with one level less is the reader
of the items. -/

namespace TaskQueue.Json

theorem readNamed_sound {letters : List Char} {named value : Json} {bytes rest : Bytes}
    (done : readNamed letters named bytes = .ok (value, rest)) :
    value = named ∧ bytes = encodeWord letters ++ rest := by
  unfold readNamed at done
  split at done
  · simp at done
  · rename_i after word
    simp only [Except.ok.injEq, Prod.mk.injEq] at done
    obtain ⟨rfl, rfl⟩ := done
    exact ⟨rfl, readWord_sound word⟩

theorem readNamed_complete (letters : List Char) (named : Json) (rest : Bytes) :
    readNamed letters named (encodeWord letters ++ rest) = .ok (named, rest) := by
  simp only [readNamed, readWord_complete]

theorem readScalar_sound {next : UInt8} {bytes rest : Bytes} {value : Json}
    (done : readScalar next bytes = .ok (value, rest)) :
    ∃ token, KeptScalar token value ∧ next :: bytes = token ++ rest := by
  unfold readScalar at done
  split at done
  · rename_i isNext
    obtain ⟨rfl, rfl⟩ := readNamed_sound done
    exact ⟨_, .null, by rw [isNext]; rfl⟩
  · split at done
    · rename_i isNext
      obtain ⟨rfl, rfl⟩ := readNamed_sound done
      exact ⟨_, .true, by rw [isNext]; rfl⟩
    · split at done
      · rename_i isNext
        obtain ⟨rfl, rfl⟩ := readNamed_sound done
        exact ⟨_, .false, by rw [isNext]; rfl⟩
      · split at done
        · rename_i isMark
          split at done
          · simp at done
          · rename_i text after read
            simp only [Except.ok.injEq, Prod.mk.injEq] at done
            obtain ⟨rfl, rfl⟩ := done
            obtain ⟨content, spelled, rfl⟩ := readText_iff.mp read
            exact ⟨_, .text ⟨content, spelled, rfl⟩, by simp [isMark]⟩
        · split at done
          · split at done
            · simp at done
            · rename_i number after read
              simp only [Except.ok.injEq, Prod.mk.injEq] at done
              obtain ⟨rfl, rfl⟩ := done
              obtain ⟨token, parts, isNumeral, inRange, whole⟩ := readNumber_sound read
              exact ⟨token, .number isNumeral inRange, whole⟩
          · simp at done

abbrev StartsNumeral (next : UInt8) : Prop := next = byte '-' ∨ isDigit next = true

theorem StartsNumeral.ne {next other : UInt8} (starts : StartsNumeral next)
    (isOther : ¬(other = byte '-' ∨ isDigit other = true)) : next ≠ other := by
  rintro rfl
  exact isOther starts

theorem NumeralText.starts {token : Bytes} {parts : Numeral} (isNumeral : NumeralText token parts) :
    ∃ next rest, token = next :: rest ∧ StartsNumeral next := by
  cases isNumeral with
  | mk isWhole isFraction isExponent =>
      rename_i negative whole fraction exponent wholeDigits fractionDigits power
      cases negative with
      | true => exact ⟨byte '-', _, rfl, Or.inl rfl⟩
      | false =>
          cases whole with
          | nil => exact absurd rfl isWhole.1.1
          | cons next rest =>
              exact ⟨next, _, rfl, Or.inr (isWhole.1.2.1 next List.mem_cons_self)⟩

def StartsScalar (next : UInt8) : Prop :=
  next = byte 'n' ∨ next = byte 't' ∨ next = byte 'f' ∨ next = byte '"' ∨ StartsNumeral next

theorem StartsScalar.apart {next : UInt8} (starts : StartsScalar next) :
    isSpace next = false ∧ next ≠ byte ']' ∧ next ≠ byte '[' ∧ next ≠ byte '\x7b' := by
  rcases starts with rfl | rfl | rfl | rfl | starts
  · decide
  · decide
  · decide
  · decide
  · refine ⟨?_, starts.ne (by decide), starts.ne (by decide), starts.ne (by decide)⟩
    simp only [isSpace, Bool.or_eq_false_iff, beq_eq_false_iff_ne]
    exact ⟨⟨⟨starts.ne (by decide), starts.ne (by decide)⟩, starts.ne (by decide)⟩,
      starts.ne (by decide)⟩

theorem KeptScalar.starts {token : Bytes} {value : Json} (scalar : KeptScalar token value) :
    ∃ next rest, token = next :: rest ∧ StartsScalar next := by
  cases scalar with
  | null => exact ⟨byte 'n', _, rfl, Or.inl rfl⟩
  | true => exact ⟨byte 't', _, rfl, Or.inr (Or.inl rfl)⟩
  | false => exact ⟨byte 'f', _, rfl, Or.inr (Or.inr (Or.inl rfl))⟩
  | text isText =>
      obtain ⟨content, _, rfl⟩ := isText
      exact ⟨byte '"', _, rfl, Or.inr (Or.inr (Or.inr (Or.inl rfl)))⟩
  | number isNumeral _ =>
      obtain ⟨next, rest, whole, starts⟩ := isNumeral.starts
      exact ⟨next, rest, whole, Or.inr (Or.inr (Or.inr (Or.inr starts)))⟩

theorem readScalar_complete {next : UInt8} {more rest : Bytes} {value : Json}
    (scalar : KeptScalar (next :: more) value) (ends : Ends rest) :
    readScalar next (more ++ rest) = .ok (value, rest) := by
  generalize whole : next :: more = token at scalar
  cases scalar with
  | null =>
      obtain ⟨rfl, rfl⟩ := List.cons.inj whole
      exact readNamed_complete ['u', 'l', 'l'] .null rest
  | true =>
      obtain ⟨rfl, rfl⟩ := List.cons.inj whole
      exact readNamed_complete ['r', 'u', 'e'] (.bool true) rest
  | false =>
      obtain ⟨rfl, rfl⟩ := List.cons.inj whole
      exact readNamed_complete ['a', 'l', 's', 'e'] (.bool false) rest
  | text isText =>
      obtain ⟨content, spelled, rfl⟩ := isText
      obtain ⟨rfl, rfl⟩ := List.cons.inj whole
      have read := readText_iff.mpr ⟨content, spelled, (rfl : _ ++ byte '"' :: rest = _)⟩
      unfold readScalar
      rw [if_neg (by decide), if_neg (by decide), if_neg (by decide), if_pos rfl,
        List.append_assoc, List.singleton_append, read]
  | number isNumeral inRange =>
      subst whole
      obtain ⟨first, others, whole, starts⟩ := isNumeral.starts
      obtain ⟨rfl, rfl⟩ := List.cons.inj whole
      have read := readNumber_complete isNumeral inRange ends
      rw [List.cons_append] at read
      unfold readScalar
      rw [if_neg (starts.ne (by decide)), if_neg (starts.ne (by decide)),
        if_neg (starts.ne (by decide)), if_neg (starts.ne (by decide)), if_pos starts, read]

section Members

variable {α : Type} {reader : Reader α} {item : Bytes → α → Prop}

theorem readMember_sound (follows : reader.Follows item) {bytes rest : Bytes} {value : α}
    (done : readMember reader bytes = .ok (value, rest)) :
    ∃ token, ColonText item token value ∧ bytes = token ++ rest := by
  unfold readMember at done
  split at done
  · simp at done
  · rename_i after colon
    obtain ⟨space, token, blank, isItem, rfl⟩ := follows.sound done
    exact ColonText.ofColon colon blank isItem

theorem readMember_complete (follows : reader.Follows item) {token rest : Bytes} {value : α}
    (isValue : ColonText item token value) (ends : Ends rest) :
    readMember reader (token ++ rest) = .ok (value, rest) := by
  obtain ⟨space, inner, blank, isItem, colon⟩ := isValue.readColon
  simp only [readMember, colon, follows.complete blank isItem ends]

theorem collect_follows (follows : reader.Follows item) :
    (collect reader).Follows (fun _ => item)
      fun members entry => Entries.put entry.1 entry.2 members where
  sound := by
    intro name state bytes rest after done
    simp only [collect] at done
    split at done
    · simp at done
    · rename_i value left read
      simp only [Prod.mk.injEq, Except.ok.injEq] at done
      obtain ⟨rfl, rfl⟩ := done
      obtain ⟨token, isValue, rfl⟩ := readMember_sound follows read
      exact ⟨token, value, isValue, rfl, rfl⟩
  complete := by
    intro name token value rest state isValue ends
    simp only [collect, readMember_complete follows isValue ends]

theorem readMembers_sound (follows : reader.Follows item) {bytes rest : Bytes}
    {members : List (String × α)} (done : readMembers reader bytes = .ok (members, rest)) :
    ∃ inner entries, Enclosed (MemberText KeptText fun _ => item) inner entries ∧
      bytes = inner ++ byte '\x7d' :: rest ∧
      members = entries.foldl (fun before entry => Entries.put entry.1 entry.2 before) [] := by
  unfold readMembers at done
  split at done
  · simp at done
  · rename_i after collected walked
    simp only [Except.ok.injEq, Prod.mk.injEq] at done
    obtain ⟨rfl, rfl⟩ := done
    exact walk_sound (collect_follows follows) walked

theorem readMembers_complete (follows : reader.Follows item) {inner : Bytes}
    {entries : List (String × α)}
    (sequence : Enclosed (MemberText KeptText fun _ => item) inner entries) (rest : Bytes) :
    readMembers reader (inner ++ byte '\x7d' :: rest) =
      .ok (entries.foldl (fun before entry => Entries.put entry.1 entry.2 before) [], rest) := by
  simp only [readMembers, walk_complete (collect_follows follows) sequence]

end Members

theorem Dialect.Value.starts {κ α : Type} {dialect : Dialect κ α}
    (scalars : ∀ {token value}, dialect.scalar token value →
      ∃ next rest, token = next :: rest ∧ StartsScalar next)
    (levels : Nat) : Startable (dialect.Value levels) := by
  intro token value isValue
  have scalarStarts (scalar : dialect.scalar token value) :
      ∃ next rest, token = next :: rest ∧ isSpace next = false ∧ next ≠ byte ']' := by
    obtain ⟨next, rest, whole, starts⟩ := scalars scalar
    exact ⟨next, rest, whole, starts.apart.1, starts.apart.2.1⟩
  cases levels with
  | zero => exact scalarStarts isValue
  | succ levels =>
      rcases isValue with scalar | container
      · exact scalarStarts scalar
      · cases container with
        | list _ => exact ⟨_, _, rfl, by decide, by decide⟩
        | object _ => exact ⟨_, _, rfl, by decide, by decide⟩

theorem KeptValue.starts (levels : Nat) : Startable (kept.Value levels) :=
  Dialect.Value.starts KeptScalar.starts levels

theorem readValue_sound {inside : Option (Reader Json)} {held : Bytes → Json → Prop}
    (follows : ∀ reader ∈ inside, reader.Follows held) {bytes rest : Bytes} {value : Json}
    (done : readValue inside bytes = .ok (value, rest)) :
    ∃ space token, Blank space ∧ bytes = space ++ (token ++ rest) ∧
      (KeptScalar token value ∨ inside.isSome = true ∧ kept.Container held token value) := by
  unfold readValue at done
  split at done
  · simp at done
  · rename_i next others skipped
    obtain ⟨space, blank, rfl⟩ := skipSpace_eq skipped
    split at done
    · rename_i isOpen
      subst next
      split at done
      · simp at done
      · rename_i reader
        split at done
        · simp at done
        · rename_i items after read
          simp only [Except.ok.injEq, Prod.mk.injEq] at done
          obtain ⟨rfl, rfl⟩ := done
          obtain ⟨inner, more, sequence, rfl, rfl⟩ := readItems_sound (follows reader rfl) read
          exact ⟨space, _, blank, by simp, Or.inr ⟨rfl, .list sequence⟩⟩
    · split at done
      · rename_i isOpen
        subst next
        split at done
        · simp at done
        · rename_i reader
          split at done
          · simp at done
          · rename_i members after read
            simp only [Except.ok.injEq, Prod.mk.injEq] at done
            obtain ⟨rfl, rfl⟩ := done
            obtain ⟨inner, entries, sequence, rfl, rfl⟩ :=
              readMembers_sound (follows reader rfl) read
            exact ⟨space, _, blank, by simp, Or.inr ⟨rfl, .object sequence⟩⟩
      · obtain ⟨token, scalar, whole⟩ := readScalar_sound done
        exact ⟨space, token, blank, by rw [whole], Or.inl scalar⟩

theorem readValue_scalar (inside : Option (Reader Json)) {space token rest : Bytes} {value : Json}
    (blank : Blank space) (scalar : KeptScalar token value) (ends : Ends rest) :
    readValue inside (space ++ (token ++ rest)) = .ok (value, rest) := by
  obtain ⟨next, more, rfl, starts⟩ := scalar.starts
  obtain ⟨notSpace, _, notList, notObject⟩ := starts.apart
  unfold readValue
  rw [List.cons_append, skipSpace_blank_cons blank notSpace]
  dsimp only
  rw [if_neg notList, if_neg notObject, readScalar_complete scalar ends]

theorem readValue_container {reader : Reader Json} {held : Bytes → Json → Prop}
    (follows : reader.Follows held) (startable : Startable held) {space token : Bytes}
    {value : Json} (blank : Blank space) (container : kept.Container held token value)
    (rest : Bytes) : readValue (some reader) (space ++ (token ++ rest)) = .ok (value, rest) := by
  unfold readValue
  cases container with
  | list sequence =>
      rw [List.cons_append, skipSpace_blank_cons blank (by decide), List.append_assoc]
      dsimp only
      rw [if_pos rfl, List.singleton_append, readItems_complete follows startable sequence]
      rfl
  | object sequence =>
      rw [List.cons_append, skipSpace_blank_cons blank (by decide), List.append_assoc]
      dsimp only
      rw [if_neg (by decide), if_pos rfl, List.singleton_append,
        readMembers_complete follows sequence]
      rfl

theorem decoded_follows (levels : Nat) : (decoded levels).Follows (kept.Value levels) := by
  induction levels with
  | zero =>
      constructor
      · intro bytes value rest done
        have inside : ∀ reader ∈ (none : Option (Reader Json)), reader.Follows kept.scalar := by
          simp
        obtain ⟨space, token, blank, whole, scalar | container⟩ := readValue_sound inside done
        · exact ⟨space, token, blank, scalar, whole⟩
        · simp at container
      · intro space token value rest blank scalar ends
        exact readValue_scalar none blank scalar ends
  | succ levels ih =>
      constructor
      · intro bytes value rest done
        have inside : ∀ reader ∈ some (decoded levels), reader.Follows (kept.Value levels) := by
          rintro reader ⟨⟩
          exact ih
        obtain ⟨space, token, blank, whole, scalar | container⟩ := readValue_sound inside done
        · exact ⟨space, token, blank, Or.inl scalar, whole⟩
        · exact ⟨space, token, blank, Or.inr container.2, whole⟩
      · intro space token value rest blank isValue ends
        rcases isValue with scalar | container
        · exact readValue_scalar (some (decoded levels)) blank scalar ends
        · exact readValue_container ih (KeptValue.starts levels) blank container rest

end TaskQueue.Json
