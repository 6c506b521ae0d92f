import TaskQueue.Error
import TaskQueue.Param
import TaskQueue.Json.Printer
import TaskQueue.Json.Record

/-!
Payloads: the bytes that carry a task parameter. The usual format is a JSON object, which is decoded
into a parameter that is already there: its members change the parameter one after another, and a
fault leaves what was done before it. The same object can also be read as a record, which gives a
parameter or nothing.
-/

namespace TaskQueue.Payload

def memberLevels : Nat := Json.maxLevels - 1

structure Filling where
  param : TaskParam
  named : Bool

def addEntry : Json.Action (Dictionary String) where
  act key metadata bytes :=
    match Json.readMember Json.Shape.text.reader bytes with
    | .error fault => (.error fault, metadata)
    | .ok (value, rest) => (.ok rest, metadata.insert key value)
  shrinks := by
    intro key metadata bytes rest done
    split at done
    · simp at done
    · rename_i value after member
      simp only [Except.ok.injEq] at done
      rw [← done]
      exact Json.readMember_length member

def fillMetadata (metadata : Dictionary String) (bytes : Bytes) :
    Except Json.Fault Bytes × Dictionary String :=
  match Json.readColon bytes with
  | .error fault => (.error fault, metadata)
  | .ok after =>
      match Json.skipSpace after with
      | [] => (.error (.within .endInValue []), metadata)
      | next :: rest =>
          if next = byte '\x7b' then Json.walk addEntry true Dictionary.empty rest
          else (.error (Json.mismatch "a map of strings" next rest), metadata)

theorem fillMetadata_length {metadata : Dictionary String} {bytes rest : Bytes}
    (done : (fillMetadata metadata bytes).1 = .ok rest) : rest.length ≤ bytes.length := by
  unfold fillMetadata at done
  split at done
  · simp at done
  · rename_i after colon
    have colonShorter := Json.readColon_length colon
    split at done
    · simp at done
    · rename_i next others skipped
      have shorter := Json.skipSpace_cons_length skipped
      split at done
      · have walked := Json.walk_length done
        omega
      · simp at done

def fill : Json.Action Filling where
  act name filling bytes :=
    if name = "task_name" then
      match Json.readMember Json.Shape.text.reader bytes with
      | .error fault => (.error fault, filling)
      | .ok (value, rest) => (.ok rest, ⟨{ filling.param with taskName := value }, true⟩)
    else if name = "params" then
      match Json.readMember (Json.decoded memberLevels) bytes with
      | .error fault => (.error fault, filling)
      | .ok (value, rest) =>
          (.ok rest, { filling with param := { filling.param with params := value } })
    else if name = "metadata" then
      let filled := fillMetadata filling.param.metadata bytes
      (filled.1, { filling with param := { filling.param with metadata := filled.2 } })
    else (Json.Layout.skipMember bytes, filling)
  shrinks := by
    intro name filling bytes rest done
    split at done
    · split at done
      · simp at done
      · rename_i value after member
        simp only [Except.ok.injEq] at done
        rw [← done]
        exact Json.readMember_length member
    · split at done
      · split at done
        · simp at done
        · rename_i value after member
          simp only [Except.ok.injEq] at done
          rw [← done]
          exact Json.readMember_length member
      · split at done
        · exact fillMetadata_length done
        · exact Json.Layout.skipMember_length done

/-- Decodes a text into a parameter. Before the opening bracket nothing is changed; there the
parameter is emptied. -/
def decodeInto (text : Bytes) (param : TaskParam) : Except Json.Fault Unit × TaskParam :=
  match Json.skipSpace text with
  | [] => (.error (.within .endInValue []), param)
  | next :: rest =>
      if next = byte '\x7b' then
        match Json.walk fill true ⟨TaskParam.empty, false⟩ rest with
        | (.error fault, filling) => (.error fault, filling.param)
        | (.ok after, filling) =>
            if filling.named then (Json.finish after, filling.param)
            else (.error (.before (.missingField "task_name") after), filling.param)
      else (.error (Json.mismatch "a task parameter object" next rest), param)

def members (taskName : String) (params : Json) (metadata : List (String × String)) :
    List (String × Json) :=
  [("task_name", .text taskName), ("params", params),
    ("metadata", .object (metadata.map fun entry => (entry.1, .text entry.2)))]

def encodeOrdered (param : TaskParam) (order : List (String × String)) : Bytes :=
  Json.encode (.object (members param.taskName param.params order))

def encode (param : TaskParam) : Bytes := encodeOrdered param param.metadata.entries

def layout : Json.Layout TaskParam where
  name := "TaskParam"
  fields := [
    { name := "task_name", needed := true, neededInList := true,
      shape := Json.Shape.text.map fun value param => { param with taskName := value } },
    { name := "params", needed := false, neededInList := false,
      shape := (Json.Shape.any memberLevels).map fun params param => { param with params } },
    { name := "metadata", needed := false, neededInList := false,
      shape := (Json.Shape.members "a map" Json.Shape.text).map fun entries param =>
        { param with metadata := Dictionary.ofList entries } }]
  blank := TaskParam.empty

def decodeTask (body : Bytes) (param : TaskParam) : Except TaskError Unit × TaskParam :=
  match decodeInto body param with
  | (.ok (), filled) => (.ok (), filled)
  | (.error fault, filled) => (.error (.decode (fault.message body)), filled)

abbrev Format := Bytes → TaskParam → Outcome Unit × TaskParam

namespace Format

def json : Format := fun body param =>
  match decodeTask body param with
  | (.ok (), filled) => (.done (), filled)
  | (.error error, filled) => (.failed error, filled)

def plain : Format := fun body param =>
  match body.toText? with
  | some taskName => (.done (), TaskParam.ofName taskName .null)
  | none => (.failed (.decode "not text"), param)

end Format

end TaskQueue.Payload
