import TaskQueue.Json.Decoded

/-!
Values of a known form inside documents. A shape takes such a value from a text or from a JSON value
that has been read before. If what stands there has another form, both say what was found and what
was expected; a text is then at fault after the scalar, or before the bracket, that was found.
-/

namespace TaskQueue.Json

structure Shape (α : Type) where
  reader : Reader α
  fit : Json → Except Cause α

def mismatch (expected : String) (next : UInt8) (rest : Bytes) : Fault :=
  if next = byte '[' then .before (.invalidType .list expected) (next :: rest)
  else if next = byte '\x7b' then .before (.invalidType .object expected) (next :: rest)
  else
    match readScalar next rest with
    | .error fault => fault
    | .ok (value, after) => .before (.invalidType (.ofJson value) expected) after

/-- Reads a scalar and fits it; at a bracket an empty container is fitted for its fault. -/
def readFitting {α : Type} (fit : Json → Except Cause α) (bytes : Bytes) : Reading α :=
  match skipSpace bytes with
  | [] => .error (.within .endInValue [])
  | next :: rest =>
      if next = byte '[' then
        match fit (.list []) with
        | .error cause => .error (.before cause (next :: rest))
        | .ok _ => .error (.within .expectedValue (next :: rest))
      else if next = byte '\x7b' then
        match fit (.object []) with
        | .error cause => .error (.before cause (next :: rest))
        | .ok _ => .error (.within .expectedValue (next :: rest))
      else
        match readScalar next rest with
        | .error fault => .error fault
        | .ok (value, after) =>
            match fit value with
            | .error cause => .error (.before cause after)
            | .ok result => .ok (result, after)

theorem readFitting_length {α : Type} {fit : Json → Except Cause α} {bytes rest : Bytes}
    {value : α} (done : readFitting fit bytes = .ok (value, rest)) :
    rest.length < bytes.length := by
  unfold readFitting at done
  split at done
  · simp at done
  · rename_i next after skipped
    have shorter := skipSpace_cons_length skipped
    split at done
    · split at done <;> simp at done
    · split at done
      · split at done <;> simp at done
      · split at done
        · simp at done
        · rename_i scalar others read
          split at done
          · simp at done
          · simp only [Except.ok.injEq, Prod.mk.injEq] at done
            have inner := readScalar_length read
            rw [← done.2]
            omega

def Reader.map {α β : Type} (change : α → β) (reader : Reader α) : Reader β where
  read bytes := (reader.read bytes).map fun reading => (change reading.1, reading.2)
  shrinks := by
    intro bytes value rest done
    cases read : reader.read bytes with
    | error fault => simp [read, Except.map] at done
    | ok reading =>
        simp only [read, Except.map, Except.ok.injEq, Prod.mk.injEq] at done
        have shorter : reading.2.length < bytes.length := reader.shrinks read
        rw [← done.2]
        exact shorter

namespace Shape

variable {α β : Type}

def scalar (fit : Json → Except Cause α) : Shape α := ⟨⟨readFitting fit, readFitting_length⟩, fit⟩

def fitText (expected : String) : Json → Except Cause String
  | .text value => .ok value
  | other => .error (.invalidType (.ofJson other) expected)

def text : Shape String := scalar (fitText "a string")

def fitBool : Json → Except Cause Bool
  | .bool value => .ok value
  | other => .error (.invalidType (.ofJson other) "a boolean")

def bool : Shape Bool := scalar fitBool

def fitNatural (expected : String) : Json → Except Cause UInt64
  | .number (.natural value) => .ok value
  | .number (.negative predecessor) =>
      .error (.invalidValue (.number (.negative predecessor)) expected)
  | other => .error (.invalidType (.ofJson other) expected)

def natural (expected : String) : Shape UInt64 := scalar (fitNatural expected)

def fitInt32 : Json → Except Cause Int32
  | .number (.natural value) =>
      if value.toNat < 0x80000000 then .ok (Int32.ofNat value.toNat)
      else .error (.invalidValue (.number (.natural value)) "i32")
  | .number (.negative predecessor) =>
      if predecessor.val < 0x80000000 then .ok (Int32.ofInt (Int.negSucc predecessor.val))
      else .error (.invalidValue (.number (.negative predecessor)) "i32")
  | other => .error (.invalidType (.ofJson other) "i32")

def int32 : Shape Int32 := scalar fitInt32

def fitOptional (fit : Json → Except Cause α) : Json → Except Cause (Option α)
  | .null => .ok none
  | other => (fit other).map some

def optional (fit : Json → Except Cause α) : Shape (Option α) := scalar (fitOptional fit)

def any (levels : Nat) : Shape Json := ⟨decoded levels, .ok⟩

def fitItems (fit : Json → Except Cause α) : List Json → Except Cause (List α)
  | [] => .ok []
  | item :: rest =>
      match fit item with
      | .error cause => .error cause
      | .ok value => (fitItems fit rest).map (value :: ·)

def readList (expected : String) (item : Reader α) (bytes : Bytes) : Reading (List α) :=
  match skipSpace bytes with
  | [] => .error (.within .endInValue [])
  | next :: rest =>
      if next = byte '[' then readItems item true rest [] else .error (mismatch expected next rest)

def readObject (expected : String) (item : Reader α) (bytes : Bytes) :
    Reading (List (String × α)) :=
  match skipSpace bytes with
  | [] => .error (.within .endInValue [])
  | next :: rest =>
      if next = byte '\x7b' then readMembers item rest else .error (mismatch expected next rest)

theorem readList_length {expected : String} {item : Reader α} {bytes rest : Bytes}
    {values : List α} (done : readList expected item bytes = .ok (values, rest)) :
    rest.length < bytes.length := by
  unfold readList at done
  split at done
  · simp at done
  · rename_i next after skipped
    have shorter := skipSpace_cons_length skipped
    split at done
    · have inner := readItems_length done
      omega
    · simp at done

theorem readObject_length {expected : String} {item : Reader α} {bytes rest : Bytes}
    {members : List (String × α)} (done : readObject expected item bytes = .ok (members, rest)) :
    rest.length < bytes.length := by
  unfold readObject at done
  split at done
  · simp at done
  · rename_i next after skipped
    have shorter := skipSpace_cons_length skipped
    split at done
    · have inner := readMembers_length done
      omega
    · simp at done

def list (item : Shape α) : Shape (List α) where
  reader := ⟨readList "a sequence" item.reader, readList_length⟩
  fit
    | .list items => fitItems item.fit items
    | other => .error (.invalidType (.ofJson other) "a sequence")

def fitMembers (fit : Json → Except Cause α) :
    List (String × Json) → Except Cause (List (String × α))
  | [] => .ok []
  | (name, member) :: rest =>
      match fit member with
      | .error cause => .error cause
      | .ok value => (fitMembers fit rest).map ((name, value) :: ·)

def members (expected : String) (item : Shape α) : Shape (List (String × α)) where
  reader := ⟨readObject expected item.reader, readObject_length⟩
  fit
    | .object members => fitMembers item.fit members
    | other => .error (.invalidType (.ofJson other) expected)

def map (change : α → β) (shape : Shape α) : Shape β :=
  ⟨shape.reader.map change, fun value => (shape.fit value).map change⟩

end Shape

end TaskQueue.Json
