import TaskQueue.Json.Container

/-!
Values that are only passed over. Their nesting is not limited: the brackets that are open stand on
a list, innermost first. Their numbers may have any size and their texts any bytes.
-/

namespace TaskQueue.Json

inductive Bracket
  | list
  | object
deriving DecidableEq, Repr

namespace Bracket

def opening : Bracket → UInt8
  | .list => byte '['
  | .object => byte '\x7b'

def closing : Bracket → UInt8
  | .list => byte ']'
  | .object => byte '\x7d'

def endInside : Bracket → Cause
  | .list => .endInList
  | .object => .endInObject

def expectedEnd : Bracket → Cause
  | .list => .expectedListEnd
  | .object => .expectedObjectEnd

end Bracket

def skipScalar (next : UInt8) (rest : Bytes) : Except Fault Bytes :=
  if next = byte 'n' then readWord ['u', 'l', 'l'] rest
  else if next = byte 't' then readWord ['r', 'u', 'e'] rest
  else if next = byte 'f' then readWord ['a', 'l', 's', 'e'] rest
  else if next = byte '"' then skipText rest
  else if next = byte '-' ∨ isDigit next then skipNumber (next :: rest)
  else .error (.within .expectedValue (next :: rest))

theorem skipScalar_length {next : UInt8} {rest after : Bytes}
    (done : skipScalar next rest = .ok after) : after.length ≤ rest.length := by
  unfold skipScalar at done
  split at done
  · exact readWord_length _ _ _ done
  · split at done
    · exact readWord_length _ _ _ done
    · split at done
      · exact readWord_length _ _ _ done
      · split at done
        · exact Nat.le_of_lt (skipText_length done)
        · split at done
          · have shorter := skipNumber_length done
            simp only [List.length_cons] at shorter
            omega
          · simp at done

def skipName (bytes : Bytes) : Except Fault Bytes :=
  match skipSpace bytes with
  | [] => .error (.within .endInObject [])
  | next :: rest =>
      if next = byte '"' then
        match skipText rest with
        | .error fault => .error fault
        | .ok after => readColon after
      else .error (.within .nameNotText (next :: rest))

def enter : Bracket → Bytes → Except Fault Bytes
  | .list, bytes => .ok bytes
  | .object, bytes => skipName bytes

theorem enter_length {bracket : Bracket} {bytes rest : Bytes}
    (done : enter bracket bytes = .ok rest) : rest.length ≤ bytes.length := by
  unfold enter at done
  split at done
  · simp only [Except.ok.injEq] at done
    simp [done]
  · unfold skipName at done
    split at done
    · simp at done
    · rename_i next after skipped
      have shorter := skipSpace_cons_length skipped
      split at done
      · split at done
        · simp at done
        · rename_i named textSkipped
          have textShorter := skipText_length textSkipped
          have colonShorter := readColon_length done
          omega
      · simp at done

mutual

def skipValue (opened : List Bracket) (bytes : Bytes) : Except Fault Bytes :=
  match _skipped : skipSpace bytes with
  | [] => .error (.within .endInValue [])
  | next :: rest =>
      if next = byte '[' then skipFirst .list opened rest
      else if next = byte '\x7b' then skipFirst .object opened rest
      else
        match _read : skipScalar next rest with
        | .error fault => .error fault
        | .ok after => skipAfter opened after
termination_by (bytes.length, 0)
decreasing_by
  · have shorter := skipSpace_cons_length _skipped
    exact Prod.Lex.left _ _ shorter
  · have shorter := skipSpace_cons_length _skipped
    exact Prod.Lex.left _ _ shorter
  · have shorter := skipSpace_cons_length _skipped
    have scalarShorter := skipScalar_length _read
    exact Prod.Lex.left _ _ (by omega)

def skipFirst (bracket : Bracket) (opened : List Bracket) (bytes : Bytes) : Except Fault Bytes :=
  match _skipped : skipSpace bytes with
  | [] => .error (.within bracket.endInside [])
  | next :: rest =>
      if next = bracket.closing then skipAfter opened rest
      else
        match _entered : enter bracket (next :: rest) with
        | .error fault => .error fault
        | .ok after => skipValue (bracket :: opened) after
termination_by (bytes.length, 1)
decreasing_by
  · have shorter := skipSpace_cons_length _skipped
    exact Prod.Lex.left _ _ shorter
  · have shorter := skipSpace_length bytes
    rw [_skipped] at shorter
    have entered := enter_length _entered
    exact Prod.lex_def.mpr (by dsimp only; omega)

def skipAfter (opened : List Bracket) (bytes : Bytes) : Except Fault Bytes :=
  match opened with
  | [] => .ok bytes
  | bracket :: outer =>
      match _skipped : skipSpace bytes with
      | [] => .error (.within bracket.endInside [])
      | next :: rest =>
          if next = byte ',' then
            match _entered : enter bracket rest with
            | .error fault => .error fault
            | .ok after => skipValue (bracket :: outer) after
          else if next = bracket.closing then skipAfter outer rest
          else .error (.within bracket.expectedEnd (next :: rest))
termination_by (bytes.length, 0)
decreasing_by
  · have shorter := skipSpace_cons_length _skipped
    have entered := enter_length _entered
    exact Prod.Lex.left _ _ (by omega)
  · have shorter := skipSpace_cons_length _skipped
    exact Prod.Lex.left _ _ shorter

end

section Inversion

variable {opened : List Bracket} {bracket : Bracket} {bytes rest : Bytes}

theorem skipValue_ok (done : skipValue opened bytes = .ok rest) :
    (∃ bracket inner, skipSpace bytes = bracket.opening :: inner ∧
      skipFirst bracket opened inner = .ok rest) ∨
    ∃ next inner after, skipSpace bytes = next :: inner ∧ skipScalar next inner = .ok after ∧
      skipAfter opened after = .ok rest := by
  rw [skipValue] at done
  split at done
  · simp at done
  · rename_i next inner skipped
    split at done
    · rename_i isList
      exact .inl ⟨.list, inner, skipped.trans (by rw [isList]; rfl), done⟩
    · split at done
      · rename_i isObject
        exact .inl ⟨.object, inner, skipped.trans (by rw [isObject]; rfl), done⟩
      · split at done
        · simp at done
        · rename_i after scalar
          exact .inr ⟨next, inner, after, skipped, scalar, done⟩

theorem skipFirst_ok (done : skipFirst bracket opened bytes = .ok rest) :
    (∃ inner, skipSpace bytes = bracket.closing :: inner ∧ skipAfter opened inner = .ok rest) ∨
    ∃ next inner after, skipSpace bytes = next :: inner ∧
      enter bracket (next :: inner) = .ok after ∧
      skipValue (bracket :: opened) after = .ok rest := by
  rw [skipFirst] at done
  split at done
  · simp at done
  · rename_i next inner skipped
    split at done
    · rename_i closes
      exact .inl ⟨inner, closes ▸ skipped, done⟩
    · split at done
      · simp at done
      · rename_i after entered
        exact .inr ⟨next, inner, after, skipped, entered, done⟩

theorem skipAfter_ok (done : skipAfter (bracket :: opened) bytes = .ok rest) :
    (∃ inner after, skipSpace bytes = byte ',' :: inner ∧ enter bracket inner = .ok after ∧
      skipValue (bracket :: opened) after = .ok rest) ∨
    ∃ inner, skipSpace bytes = bracket.closing :: inner ∧ skipAfter opened inner = .ok rest := by
  rw [skipAfter] at done
  split at done
  · simp at done
  · rename_i next inner skipped
    split at done
    · rename_i isComma
      split at done
      · simp at done
      · rename_i after entered
        exact .inl ⟨inner, after, isComma ▸ skipped, entered, done⟩
    · split at done
      · rename_i closes
        exact .inr ⟨inner, closes ▸ skipped, done⟩
      · simp at done

end Inversion

inductive Spot
  | value
  | first (bracket : Bracket)
  | after

/-- How skipping gets from a spot inside the open brackets to the end of the outermost one. -/
inductive Skips : Spot → List Bracket → Bytes → Bytes → Prop
  | opening {opened : List Bracket} {bracket : Bracket} {bytes inner rest : Bytes} :
      skipSpace bytes = bracket.opening :: inner → Skips (.first bracket) opened inner rest →
      Skips .value opened bytes rest
  | scalar {opened : List Bracket} {next : UInt8} {bytes inner after rest : Bytes} :
      skipSpace bytes = next :: inner → skipScalar next inner = .ok after →
      Skips .after opened after rest → Skips .value opened bytes rest
  | empty {opened : List Bracket} {bracket : Bracket} {bytes inner rest : Bytes} :
      skipSpace bytes = bracket.closing :: inner → Skips .after opened inner rest →
      Skips (.first bracket) opened bytes rest
  | enter {opened : List Bracket} {bracket : Bracket} {next : UInt8}
      {bytes inner after rest : Bytes} :
      skipSpace bytes = next :: inner → Json.enter bracket (next :: inner) = .ok after →
      Skips .value (bracket :: opened) after rest → Skips (.first bracket) opened bytes rest
  | finished (bytes : Bytes) : Skips .after [] bytes bytes
  | comma {opened : List Bracket} {bracket : Bracket} {bytes inner after rest : Bytes} :
      skipSpace bytes = byte ',' :: inner → Json.enter bracket inner = .ok after →
      Skips .value (bracket :: opened) after rest → Skips .after (bracket :: opened) bytes rest
  | close {opened : List Bracket} {bracket : Bracket} {bytes inner rest : Bytes} :
      skipSpace bytes = bracket.closing :: inner → Skips .after opened inner rest →
      Skips .after (bracket :: opened) bytes rest

mutual

theorem skips_value {opened : List Bracket} {bytes rest : Bytes}
    (done : skipValue opened bytes = .ok rest) : Skips .value opened bytes rest := by
  rcases skipValue_ok done with ⟨bracket, inner, skipped, inside⟩ |
    ⟨next, inner, after, skipped, scalar, going⟩
  · have shorter := skipSpace_cons_length skipped
    exact .opening skipped (skips_first inside)
  · have shorter := skipSpace_cons_length skipped
    have scalarShorter := skipScalar_length scalar
    exact .scalar skipped scalar (skips_after going)
termination_by (bytes.length, 0)
decreasing_by all_goals exact Prod.Lex.left _ _ (by omega)

theorem skips_first {bracket : Bracket} {opened : List Bracket} {bytes rest : Bytes}
    (done : skipFirst bracket opened bytes = .ok rest) :
    Skips (.first bracket) opened bytes rest := by
  rcases skipFirst_ok done with ⟨inner, skipped, going⟩ |
    ⟨next, inner, after, skipped, entered, inside⟩
  · have shorter := skipSpace_cons_length skipped
    exact .empty skipped (skips_after going)
  · have shorter : (next :: inner).length ≤ bytes.length := skipped ▸ skipSpace_length bytes
    have enteredShorter := enter_length entered
    exact .enter skipped entered (skips_value inside)
termination_by (bytes.length, 1)
decreasing_by all_goals exact Prod.lex_def.mpr (by dsimp only; omega)

theorem skips_after {opened : List Bracket} {bytes rest : Bytes}
    (done : skipAfter opened bytes = .ok rest) : Skips .after opened bytes rest := by
  cases opened with
  | nil =>
      rw [skipAfter] at done
      obtain rfl := Except.ok.inj done
      exact .finished bytes
  | cons bracket outer =>
      rcases skipAfter_ok done with ⟨inner, after, skipped, entered, inside⟩ |
        ⟨inner, skipped, going⟩
      · have shorter := skipSpace_cons_length skipped
        have enteredShorter := enter_length entered
        exact .comma skipped entered (skips_value inside)
      · have shorter := skipSpace_cons_length skipped
        exact .close skipped (skips_after going)
termination_by (bytes.length, 0)
decreasing_by all_goals exact Prod.Lex.left _ _ (by omega)

end

def Spot.least : Spot → Nat
  | .value => 1
  | _ => 0

theorem Skips.length {spot : Spot} {opened : List Bracket} {bytes rest : Bytes}
    (skips : Skips spot opened bytes rest) : rest.length + spot.least ≤ bytes.length := by
  induction skips with
  | opening skipped _ ih | empty skipped _ ih | close skipped _ ih =>
      have shorter := skipSpace_cons_length skipped
      simp only [Spot.least] at ih ⊢
      omega
  | scalar skipped scalar _ ih =>
      have shorter := skipSpace_cons_length skipped
      have scalarShorter := skipScalar_length scalar
      simp only [Spot.least] at ih ⊢
      omega
  | enter skipped entered _ ih | comma skipped entered _ ih =>
      have shorter := skipSpace_cons_length skipped
      have enteredShorter := enter_length entered
      simp only [Spot.least, List.length_cons] at ih enteredShorter ⊢
      omega
  | finished => exact Nat.le_refl _

def skipJson (bytes : Bytes) : Except Fault Bytes := skipValue [] bytes

theorem skipJson_length {bytes rest : Bytes} (done : skipJson bytes = .ok rest) :
    rest.length < bytes.length := (skips_value done).length

end TaskQueue.Json
