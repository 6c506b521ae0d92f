import TaskQueue.Proofs.Json.Printed
import TaskQueue.Proofs.Payload.Reading

/-! What is encoded is decoded to what it was, in whatever order the metadata is written, as long as
the value is within the levels that a member may have; a deeper value is written, but not read. -/

namespace TaskQueue.Payload

open Json (Ends KeptText)

def Part.json : Part → Json
  | taskName value => .text value
  | params value => value
  | metadata entries => .object (entries.map fun entry => (entry.1, .text entry.2))
  | other => .null

def parts (taskName : String) (params : Json) (metadata : List (String × String)) :
    List (String × Part) :=
  [("task_name", .taskName taskName), ("params", .params params), ("metadata", .metadata metadata)]

theorem members_eq (taskName : String) (params : Json) (metadata : List (String × String)) :
    members taskName params metadata =
      (parts taskName params metadata).map fun member => (member.1, member.2.json) := rfl

theorem metadata_printed (entries : List (String × String)) :
    MetadataText (Json.encode (Part.metadata entries).json) entries := by
  obtain ⟨inner, sequence, printed⟩ := @Json.encode_object String Json.text (fun _ => KeptText)
    entries fun entry _ => Json.encodeText_kept entry.2
  rw [Part.json, printed]
  exact .mk sequence

theorem encodeOrdered_payload {param : TaskParam} (ordered : param.params.Ordered)
    (floatless : param.params.Floatless) (within : param.params.depth ≤ memberLevels)
    (order : List (String × String)) :
    PayloadText (encodeOrdered param order) (parts param.taskName param.params order) := by
  have each : ∀ member ∈ parts param.taskName param.params order,
      PartText member.1 (Json.encode member.2.json) member.2 := by
    intro member inside
    simp only [parts, List.mem_cons, List.not_mem_nil, or_false] at inside
    rcases inside with rfl | rfl | rfl
    · exact .taskName (Json.encodeText_kept param.taskName)
    · exact .params (Json.encode_kept ordered floatless within)
    · exact .metadata (metadata_printed order)
  obtain ⟨inner, sequence, printed⟩ := Json.encode_object each
  rw [encodeOrdered, members_eq, printed]
  exact .mk Json.blank_nil sequence Json.blank_nil

theorem means_parts {param : TaskParam} {order : List (String × String)}
    (perm : order.Perm param.metadata.entries) :
    Means (parts param.taskName param.params order) param := by
  refine means_iff.mpr ⟨rfl, ?_⟩
  have same : reading (parts param.taskName param.params order) =
      ⟨param.taskName, param.params, Dictionary.ofList order⟩ := rfl
  rw [same, Dictionary.ofList_perm perm]

theorem fill_deep {params : Json} (ordered : params.Ordered) (floatless : params.Floatless)
    (deep : memberLevels < params.depth) (filling : Filling) (rest : Bytes) :
    ∃ fault, fill.act "params" filling (byte ':' :: (Json.encode params ++ rest)) =
      (.error fault, filling) := by
  obtain ⟨fault, failed⟩ := Json.decoded_encode_deep ordered floatless deep rest
  have colon : Json.readColon (byte ':' :: (Json.encode params ++ rest)) =
      .ok (Json.encode params ++ rest) := Json.readColon_iff.mpr ⟨[], Json.blank_nil, rfl⟩
  refine ⟨fault, ?_⟩
  unfold fill
  dsimp only
  rw [if_neg (by decide), if_pos rfl]
  simp only [Json.readMember, colon, failed]

theorem decodeInto_deep {param : TaskParam} (ordered : param.params.Ordered)
    (floatless : param.params.Floatless) (deep : memberLevels < param.params.depth)
    (order : List (String × String)) (start : TaskParam) :
    ∃ fault left, decodeInto (encodeOrdered param order) start = (.error fault, left) := by
  generalize others : Json.encodeMembers [("metadata", (Part.metadata order).json)] = rest
  generalize afterName : byte ',' :: (Json.encodeText "params" ++
    byte ':' :: (Json.encode param.params ++ rest)) = next
  have whole : encodeOrdered param order = byte '\x7b' :: (Json.encodeText "task_name" ++
      byte ':' :: (Json.encodeText param.taskName ++ next)) := by
    rw [← afterName, ← others]
    simp only [encodeOrdered, members, Json.encode, Json.encodeMembers, Part.json]
  have ends : Ends next := by
    rw [← afterName]
    exact Json.ends_cons (Or.inr (Or.inl rfl))
  have nameTurn : Json.memberTurn true (Json.encodeText "task_name" ++
      byte ':' :: (Json.encodeText param.taskName ++ next)) =
      .ok (.member "task_name" (byte ':' :: (Json.encodeText param.taskName ++ next))) :=
    Json.memberTurn_member_complete (.first Json.blank_nil) (Json.encodeText_kept "task_name") _
  have named : fill.act "task_name" ⟨TaskParam.empty, false⟩
      (byte ':' :: (Json.encodeText param.taskName ++ next)) =
      (.ok next, ⟨{ TaskParam.empty with taskName := param.taskName }, true⟩) :=
    fill_follows.complete _ (.mk Json.blank_nil Json.blank_nil
      (.taskName (Json.encodeText_kept param.taskName))) ends
  have paramsTurn : Json.memberTurn false next =
      .ok (.member "params" (byte ':' :: (Json.encode param.params ++ rest))) := by
    rw [← afterName]
    exact Json.memberTurn_member_complete Json.lead_comma (Json.encodeText_kept "params") _
  obtain ⟨fault, failed⟩ := fill_deep ordered floatless deep
    ⟨{ TaskParam.empty with taskName := param.taskName }, true⟩ rest
  refine ⟨fault, { TaskParam.empty with taskName := param.taskName }, ?_⟩
  rw [whole]
  unfold decodeInto
  rw [Json.skipSpace_of_not (by decide)]
  dsimp only
  rw [if_pos rfl, Json.walk_member nameTurn, named]
  dsimp only
  rw [Json.walk_member paramsTurn, failed]

/-- A parameter without doubles is decoded from its text as it was, whatever the order of its
metadata in the text, if its value has 126 levels at most, and not at all if it has more. -/
theorem decodeTask_encodeOrdered (param : TaskParam) (ordered : param.params.Ordered)
    (floatless : param.params.Floatless) (order : List (String × String))
    (perm : order.Perm param.metadata.entries) (start : TaskParam) :
    (param.params.depth ≤ 126 →
      decodeTask (encodeOrdered param order) start = (.ok (), param)) ∧
    (127 ≤ param.params.depth →
      ∃ reason left, decodeTask (encodeOrdered param order) start =
        (.error (.decode reason), left)) := by
  constructor
  · intro within
    exact (decodeTask_payload_iff (encodeOrdered_payload ordered floatless within order)).mpr
      (means_parts perm)
  · intro deep
    obtain ⟨fault, left, failed⟩ := decodeInto_deep ordered floatless deep order start
    exact ⟨fault.message (encodeOrdered param order), left, by rw [decodeTask, failed]⟩

def letter : TaskParam :=
  ⟨"mail", .list [.number (.natural 0xFFFFFFFFFFFFFFFF), .object [("to", .text "\"me\"\n")]],
    Dictionary.ofList [("trace", "1"), ("origin", "here")]⟩

theorem decodeTask_letter : letter.params.Ordered ∧ letter.params.Floatless ∧
    [("trace", "1"), ("origin", "here")].Perm letter.metadata.entries ∧
    decodeTask (encodeOrdered letter [("trace", "1"), ("origin", "here")]) TaskParam.empty =
      (.ok (), letter) := by
  have ordered : letter.params.Ordered := by
    simp [letter, Json.Ordered, Json.OrderedItems, Json.OrderedMembers, KeysIncrease]
  have floatless : letter.params.Floatless := by
    simp [letter, Json.Floatless, Json.FloatlessItems, Json.FloatlessMembers]
  have perm : [("trace", "1"), ("origin", "here")].Perm letter.metadata.entries := by decide
  exact ⟨ordered, floatless, perm,
    (decodeTask_encodeOrdered letter ordered floatless _ perm TaskParam.empty).1 (by decide)⟩

end TaskQueue.Payload
