import TaskQueue.Json.Container

/-!
Values that are kept. A decoder is allowed a number of levels of lists and objects inside each
other; the bracket that would open one level more is at fault. Of several members of one name the
last counts.
-/

namespace TaskQueue.Json

def readNamed (letters : List Char) (value : Json) (bytes : Bytes) : Reading Json :=
  match readWord letters bytes with
  | .error fault => .error fault
  | .ok rest => .ok (value, rest)

def readScalar (next : UInt8) (rest : Bytes) : Reading Json :=
  if next = byte 'n' then readNamed ['u', 'l', 'l'] .null rest
  else if next = byte 't' then readNamed ['r', 'u', 'e'] (.bool true) rest
  else if next = byte 'f' then readNamed ['a', 'l', 's', 'e'] (.bool false) rest
  else if next = byte '"' then
    match readText rest with
    | .error fault => .error fault
    | .ok (value, after) => .ok (.text value, after)
  else if next = byte '-' ∨ isDigit next then
    match readNumber (next :: rest) with
    | .error fault => .error fault
    | .ok (value, after) => .ok (.number value, after)
  else .error (.within .expectedValue (next :: rest))

theorem readNamed_length {letters : List Char} {named value : Json} {bytes rest : Bytes}
    (done : readNamed letters named bytes = .ok (value, rest)) : rest.length ≤ bytes.length := by
  unfold readNamed at done
  split at done
  · simp at done
  · rename_i after word
    simp only [Except.ok.injEq, Prod.mk.injEq] at done
    rw [← done.2]
    exact readWord_length _ _ _ word

theorem readScalar_length {next : UInt8} {rest after : Bytes} {value : Json}
    (done : readScalar next rest = .ok (value, after)) : after.length ≤ rest.length := by
  unfold readScalar at done
  split at done
  · exact readNamed_length done
  · split at done
    · exact readNamed_length done
    · split at done
      · exact readNamed_length done
      · split at done
        · split at done
          · simp at done
          · rename_i content others text
            simp only [Except.ok.injEq, Prod.mk.injEq] at done
            have shorter := readText_length text
            rw [← done.2]
            omega
        · split at done
          · split at done
            · simp at done
            · rename_i number others numeral
              simp only [Except.ok.injEq, Prod.mk.injEq] at done
              have shorter := readNumber_length numeral
              simp only [List.length_cons] at shorter
              rw [← done.2]
              omega
          · simp at done

def readMember {α : Type} (value : Reader α) (bytes : Bytes) : Reading α :=
  match readColon bytes with
  | .error fault => .error fault
  | .ok rest => value.read rest

theorem readMember_length {α : Type} {value : Reader α} {bytes rest : Bytes} {result : α}
    (done : readMember value bytes = .ok (result, rest)) : rest.length ≤ bytes.length := by
  unfold readMember at done
  split at done
  · simp at done
  · rename_i after colon
    have colonShorter := readColon_length colon
    have shorter := value.shrinks done
    omega

def collect {α : Type} (value : Reader α) : Action (List (String × α)) where
  act name members bytes :=
    match readMember value bytes with
    | .error fault => (.error fault, members)
    | .ok (result, rest) => (.ok rest, Entries.put name result members)
  shrinks := by
    intro name members bytes rest done
    split at done
    · simp at done
    · rename_i result after member
      simp only [Except.ok.injEq] at done
      rw [← done]
      exact readMember_length member

def readMembers {α : Type} (value : Reader α) (bytes : Bytes) : Reading (List (String × α)) :=
  match walk (collect value) true [] bytes with
  | (.error fault, _) => .error fault
  | (.ok rest, members) => .ok (members, rest)

theorem readMembers_length {α : Type} {value : Reader α} {bytes rest : Bytes}
    {members : List (String × α)} (done : readMembers value bytes = .ok (members, rest)) :
    rest.length < bytes.length := by
  unfold readMembers at done
  split at done
  · simp at done
  · rename_i after found walked
    simp only [Except.ok.injEq, Prod.mk.injEq] at done
    rw [← done.2]
    have ended : (walk (collect value) true [] bytes).1 = .ok after := by rw [walked]
    exact walk_length ended

/-- A value whose lists and objects hold values that `inside` reads; without `inside` it has no room
for them. -/
def readValue (inside : Option (Reader Json)) (bytes : Bytes) : Reading Json :=
  match skipSpace bytes with
  | [] => .error (.within .endInValue [])
  | next :: rest =>
      if next = byte '[' then
        match inside with
        | none => .error (.within .tooDeep (next :: rest))
        | some item =>
            match readItems item true rest [] with
            | .error fault => .error fault
            | .ok (items, after) => .ok (.list items, after)
      else if next = byte '\x7b' then
        match inside with
        | none => .error (.within .tooDeep (next :: rest))
        | some item =>
            match readMembers item rest with
            | .error fault => .error fault
            | .ok (members, after) => .ok (.object members, after)
      else readScalar next rest

theorem readValue_length {inside : Option (Reader Json)} {bytes rest : Bytes} {value : Json}
    (done : readValue inside bytes = .ok (value, rest)) : rest.length < bytes.length := by
  unfold readValue at done
  split at done
  · simp at done
  · rename_i next after skipped
    have shorter := skipSpace_cons_length skipped
    split at done
    · split at done
      · simp at done
      · split at done
        · simp at done
        · rename_i items others read
          simp only [Except.ok.injEq, Prod.mk.injEq] at done
          have inner := readItems_length read
          rw [← done.2]
          omega
    · split at done
      · split at done
        · simp at done
        · split at done
          · simp at done
          · rename_i members others read
            simp only [Except.ok.injEq, Prod.mk.injEq] at done
            have inner := readMembers_length read
            rw [← done.2]
            omega
      · have scalar := readScalar_length done
        omega

def decoded : (levels : Nat) → Reader Json
  | 0 => ⟨readValue none, readValue_length⟩
  | levels + 1 => ⟨readValue (some (decoded levels)), readValue_length⟩

def maxLevels : Nat := 127

def parse (text : Bytes) : Except Fault Json :=
  match (decoded maxLevels).read text with
  | .error fault => .error fault
  | .ok (value, rest) =>
      match finish rest with
      | .error fault => .error fault
      | .ok () => .ok value

end TaskQueue.Json
