import TaskQueue.Json.Shape
import TaskQueue.Json.Skipped

/-!
Records as documents write them: an object with the fields as members, in any order and among
members that are passed over, or a list of the fields' values in their own order. A field given
twice is at fault, and so is one that is missed and must be there; what is not given keeps its value
in the blank record.
-/

namespace TaskQueue.Json

structure Field (ρ : Type) where
  name : String
  needed : Bool
  neededInList : Bool
  shape : Shape (ρ → ρ)

structure Layout (ρ : Type) where
  name : String
  fields : List (Field ρ)
  blank : ρ

namespace Layout

variable {ρ : Type} (layout : Layout ρ)

def expected : String := "struct " ++ layout.name

def expectedElements : String :=
  layout.expected ++ " with " ++ toString layout.fields.length ++
    (if layout.fields.length = 1 then " element" else " elements")

def field? (name : String) : Option (Field ρ) := layout.fields.find? fun field => field.name == name

structure Draft (ρ : Type) where
  record : ρ
  given : List String

def draft : Draft ρ := ⟨layout.blank, []⟩

def Draft.give (draft : Draft ρ) (field : Field ρ) (change : ρ → ρ) : Draft ρ :=
  ⟨change draft.record, field.name :: draft.given⟩

def complete (draft : Draft ρ) : Except Cause ρ :=
  match layout.fields.find? fun field => field.needed && !draft.given.contains field.name with
  | some field => .error (.missingField field.name)
  | none => .ok draft.record

/-- The place of a fault that shows only when the object is left: after its end if that is next. -/
def leaving (bytes : Bytes) : Bytes :=
  match skipSpace bytes with
  | [] => []
  | next :: rest => if next = byte '\x7d' then rest else next :: rest

def skipMember (bytes : Bytes) : Except Fault Bytes :=
  match readColon bytes with
  | .error fault => .error fault
  | .ok rest => skipJson rest

theorem skipMember_length {bytes rest : Bytes} (done : skipMember bytes = .ok rest) :
    rest.length ≤ bytes.length := by
  unfold skipMember at done
  split at done
  · simp at done
  · rename_i after colon
    have colonShorter := readColon_length colon
    have shorter := skipJson_length done
    omega

def giveMember : Action (Draft ρ) where
  act name draft bytes :=
    match layout.field? name with
    | none => (skipMember bytes, draft)
    | some field =>
        if draft.given.contains name then
          (.error (.before (.duplicateField name) (leaving bytes)), draft)
        else
          match readMember field.shape.reader bytes with
          | .error fault => (.error fault, draft)
          | .ok (change, rest) => (.ok rest, draft.give field change)
  shrinks := by
    intro name draft bytes rest done
    split at done
    · exact skipMember_length done
    · split at done
      · simp at done
      · split at done
        · simp at done
        · rename_i change after member
          simp only [Except.ok.injEq] at done
          rw [← done]
          exact readMember_length member

def readFields : (fields : List (Field ρ)) → (place : Nat) → (record : ρ) → Bytes → Reading ρ
  | [], _, record, bytes =>
      match closeList bytes with
      | .error fault => .error fault
      | .ok rest => .ok (record, rest)
  | field :: fields, place, record, bytes =>
      match itemTurn (place == 0) bytes with
      | .error fault => .error fault
      | .ok (.close rest) =>
          match (field :: fields).findIdx? fun later => later.neededInList with
          | some further =>
              .error (.before (.invalidLength (place + further) layout.expectedElements) rest)
          | none => .ok (record, rest)
      | .ok (.item rest) =>
          match field.shape.reader.read rest with
          | .error fault => .error fault
          | .ok (change, after) => readFields fields (place + 1) (change record) after

def read (bytes : Bytes) : Reading ρ :=
  match skipSpace bytes with
  | [] => .error (.within .endInValue [])
  | next :: rest =>
      if next = byte '[' then layout.readFields layout.fields 0 layout.blank rest
      else if next = byte '\x7b' then
        match walk layout.giveMember true layout.draft rest with
        | (.error fault, _) => .error fault
        | (.ok after, draft) =>
            match layout.complete draft with
            | .error cause => .error (.before cause after)
            | .ok record => .ok (record, after)
      else .error (mismatch layout.expected next rest)

def parse (text : Bytes) : Except Fault ρ :=
  match layout.read text with
  | .error fault => .error fault
  | .ok (record, rest) =>
      match finish rest with
      | .error fault => .error fault
      | .ok () => .ok record

def fitMembers : List (String × Json) → Draft ρ → Except Cause (Draft ρ)
  | [], draft => .ok draft
  | (name, value) :: rest, draft =>
      match layout.field? name with
      | none => fitMembers rest draft
      | some field =>
          match field.shape.fit value with
          | .error cause => .error cause
          | .ok change => fitMembers rest (draft.give field change)

def fitFields (count : Nat) :
    (fields : List (Field ρ)) → (place : Nat) → (record : ρ) → List Json → Except Cause ρ
  | [], _, record, [] => .ok record
  | [], _, _, _ :: _ => .error (.invalidLength count "fewer elements in array")
  | field :: fields, place, record, [] =>
      match (field :: fields).findIdx? fun later => later.neededInList with
      | some further => .error (.invalidLength (place + further) layout.expectedElements)
      | none => .ok record
  | field :: fields, place, record, item :: items =>
      match field.shape.fit item with
      | .error cause => .error cause
      | .ok change => fitFields count fields (place + 1) (change record) items

def fit : Json → Except Cause ρ
  | .object members =>
      match layout.fitMembers members layout.draft with
      | .error cause => .error cause
      | .ok draft => layout.complete draft
  | .list items => layout.fitFields items.length layout.fields 0 layout.blank items
  | other => .error (.invalidType (.ofJson other) layout.expected)

end Layout

end TaskQueue.Json
