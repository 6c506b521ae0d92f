import TaskQueue.Json.Token

/-!
Lists and objects, apart from what they hold. A reader takes something off the front of the bytes.
`readItems` reads the items of a list with a given reader. `walk` goes through the members of an
object in order and hands each, with its name, to an action on a state; when the text is at fault,
the state stays as the members before the fault left it.
-/

namespace TaskQueue.Json

/-- Reads a value off the front of the bytes, and always takes at least one byte. -/
structure Reader (α : Type) where
  read : Bytes → Reading α
  shrinks : ∀ {bytes value rest}, read bytes = .ok (value, rest) → rest.length < bytes.length

inductive Turn
  | close (rest : Bytes)
  | item (rest : Bytes)

def itemTurn (first : Bool) (bytes : Bytes) : Except Fault Turn :=
  match skipSpace bytes with
  | [] => .error (.within .endInList [])
  | next :: rest =>
      if next = byte ']' then .ok (.close rest)
      else if first then .ok (.item (next :: rest))
      else if next = byte ',' then
        match skipSpace rest with
        | [] => .error (.within .endInValue [])
        | after :: others =>
            if after = byte ']' then .error (.within .trailingComma (after :: others))
            else .ok (.item (after :: others))
      else .error (.within .expectedListEnd (next :: rest))

def closeList (bytes : Bytes) : Except Fault Bytes :=
  match skipSpace bytes with
  | [] => .error (.within .endInList [])
  | next :: rest =>
      if next = byte ']' then .ok rest
      else if next = byte ',' then
        match skipSpace rest with
        | after :: others =>
            if after = byte ']' then .error (.within .trailingComma (after :: others))
            else .error (.within .trailingText (after :: others))
        | [] => .error (.within .trailingText [])
      else .error (.within .trailingText (next :: rest))

inductive MemberTurn
  | close (rest : Bytes)
  | member (name : String) (rest : Bytes)

def readName (bytes : Bytes) : Except Fault MemberTurn :=
  match readText bytes with
  | .error fault => .error fault
  | .ok (name, rest) => .ok (.member name rest)

def memberTurn (first : Bool) (bytes : Bytes) : Except Fault MemberTurn :=
  match skipSpace bytes with
  | [] => .error (.within .endInObject [])
  | next :: rest =>
      if next = byte '\x7d' then .ok (.close rest)
      else if first then
        if next = byte '"' then readName rest else .error (.within .nameNotText (next :: rest))
      else if next = byte ',' then
        match skipSpace rest with
        | [] => .error (.within .endInValue [])
        | after :: others =>
            if after = byte '"' then readName others
            else if after = byte '\x7d' then .error (.within .trailingComma (after :: others))
            else .error (.within .nameNotText (after :: others))
      else .error (.within .expectedObjectEnd (next :: rest))

def readColon (bytes : Bytes) : Except Fault Bytes :=
  match skipSpace bytes with
  | [] => .error (.within .endInObject [])
  | next :: rest =>
      if next = byte ':' then .ok rest else .error (.within .expectedColon (next :: rest))

theorem skipSpace_cons_length {bytes rest : Bytes} {next : UInt8}
    (skipped : skipSpace bytes = next :: rest) : rest.length < bytes.length := by
  have shorter := skipSpace_length bytes
  rw [skipped] at shorter
  simp only [List.length_cons] at shorter
  omega

theorem itemTurn_length {first : Bool} {bytes rest : Bytes}
    (done : itemTurn first bytes = .ok (.item rest)) : rest.length ≤ bytes.length := by
  unfold itemTurn at done
  split at done
  · simp at done
  · rename_i next after skipped
    have shorter := skipSpace_cons_length skipped
    split at done
    · simp at done
    · split at done
      · simp only [Except.ok.injEq, Turn.item.injEq] at done
        simp only [← done, List.length_cons]
        omega
      · split at done
        · split at done
          · simp at done
          · rename_i other others skippedAgain
            have shorterAgain := skipSpace_cons_length skippedAgain
            split at done
            · simp at done
            · simp only [Except.ok.injEq, Turn.item.injEq] at done
              simp only [← done, List.length_cons]
              omega
        · simp at done

theorem itemTurn_close_length {first : Bool} {bytes rest : Bytes}
    (done : itemTurn first bytes = .ok (.close rest)) : rest.length < bytes.length := by
  unfold itemTurn at done
  split at done
  · simp at done
  · rename_i next after skipped
    have shorter := skipSpace_cons_length skipped
    split at done
    · simp only [Except.ok.injEq, Turn.close.injEq] at done
      rw [← done]
      exact shorter
    · split at done
      · simp at done
      · split at done
        · split at done
          · simp at done
          · split at done <;> simp at done
        · simp at done

theorem readName_member {bytes rest : Bytes} {name : String}
    (done : readName bytes = .ok (.member name rest)) : rest.length < bytes.length := by
  unfold readName at done
  split at done
  · simp at done
  · rename_i name' after read
    simp only [Except.ok.injEq, MemberTurn.member.injEq] at done
    rw [← done.2]
    exact readText_length read

theorem readName_not_close {bytes rest : Bytes} : readName bytes ≠ .ok (.close rest) := by
  unfold readName
  split <;> simp

theorem memberTurn_length {first : Bool} {bytes rest : Bytes} {name : String}
    (done : memberTurn first bytes = .ok (.member name rest)) : rest.length < bytes.length := by
  unfold memberTurn at done
  split at done
  · simp at done
  · rename_i next after skipped
    have shorter := skipSpace_cons_length skipped
    split at done
    · simp at done
    · split at done
      · split at done
        · have named := readName_member done
          omega
        · simp at done
      · split at done
        · split at done
          · simp at done
          · rename_i other others skippedAgain
            have shorterAgain := skipSpace_cons_length skippedAgain
            split at done
            · have named := readName_member done
              omega
            · split at done <;> simp at done
        · simp at done

theorem memberTurn_close_length {first : Bool} {bytes rest : Bytes}
    (done : memberTurn first bytes = .ok (.close rest)) : rest.length < bytes.length := by
  unfold memberTurn at done
  split at done
  · simp at done
  · rename_i next after skipped
    have shorter := skipSpace_cons_length skipped
    split at done
    · simp only [Except.ok.injEq, MemberTurn.close.injEq] at done
      rw [← done]
      exact shorter
    · split at done
      · split at done
        · exact absurd done readName_not_close
        · simp at done
      · split at done
        · split at done
          · simp at done
          · split at done
            · exact absurd done readName_not_close
            · split at done <;> simp at done
        · simp at done

theorem readColon_length {bytes rest : Bytes} (done : readColon bytes = .ok rest) :
    rest.length < bytes.length := by
  unfold readColon at done
  split at done
  · simp at done
  · rename_i next after skipped
    have shorter := skipSpace_cons_length skipped
    split at done
    · simp only [Except.ok.injEq] at done
      rw [← done]
      exact shorter
    · simp at done

def readItems {α : Type} (item : Reader α) (first : Bool) (bytes : Bytes) (before : List α) :
    Reading (List α) :=
  match _turn : itemTurn first bytes with
  | .error fault => .error fault
  | .ok (.close rest) => .ok (before.reverse, rest)
  | .ok (.item rest) =>
      match _read : item.read rest with
      | .error fault => .error fault
      | .ok (value, after) => readItems item false after (value :: before)
termination_by bytes.length
decreasing_by
  have first := itemTurn_length _turn
  have second := item.shrinks _read
  omega

theorem readItems_length {α : Type} {item : Reader α} {first : Bool} {bytes rest : Bytes}
    {before values : List α} (done : readItems item first bytes before = .ok (values, rest)) :
    rest.length < bytes.length := by
  fun_induction readItems item first bytes before with
  | case1 => simp at done
  | case2 first bytes before after turn =>
      simp only [Except.ok.injEq, Prod.mk.injEq] at done
      rw [← done.2]
      exact itemTurn_close_length turn
  | case3 => simp at done
  | case4 first bytes before middle turn value after read ih =>
      have shorter := ih done
      have turnShorter := itemTurn_length turn
      have readShorter := item.shrinks read
      omega

/-- What is done with a member, from the end of its name on: the bytes after its value, or a fault,
and the new state in either case. -/
structure Action (σ : Type) where
  act : String → σ → Bytes → Except Fault Bytes × σ
  shrinks : ∀ {name state bytes rest}, (act name state bytes).1 = .ok rest →
    rest.length ≤ bytes.length

def walk {σ : Type} (action : Action σ) (first : Bool) (state : σ) (bytes : Bytes) :
    Except Fault Bytes × σ :=
  match _turn : memberTurn first bytes with
  | .error fault => (.error fault, state)
  | .ok (.close rest) => (.ok rest, state)
  | .ok (.member name rest) =>
      match _acted : (action.act name state rest).1 with
      | .error fault => (.error fault, (action.act name state rest).2)
      | .ok after => walk action false (action.act name state rest).2 after
termination_by bytes.length
decreasing_by
  have first := memberTurn_length _turn
  have second := action.shrinks _acted
  omega

theorem walk_length {σ : Type} {action : Action σ} {first : Bool} {state : σ} {bytes rest : Bytes}
    (done : (walk action first state bytes).1 = .ok rest) : rest.length < bytes.length := by
  fun_induction walk action first state bytes with
  | case1 => simp at done
  | case2 first state bytes after turn =>
      simp only [Except.ok.injEq] at done
      rw [← done]
      exact memberTurn_close_length turn
  | case3 => simp at done
  | case4 first state bytes name middle turn after acted ih =>
      have shorter := ih done
      have turnShorter := memberTurn_length turn
      have actedShorter := action.shrinks acted
      omega

def finish (bytes : Bytes) : Except Fault Unit :=
  match skipSpace bytes with
  | [] => .ok ()
  | next :: rest => .error (.within .trailingText (next :: rest))

end TaskQueue.Json
