import TaskQueue.Proofs.Json.Record
import TaskQueue.Proofs.Payload.Reading

/-!
The two readings of a payload. Decoding goes through the members of the object and lets the last of
each name count; the record refuses a member that is given twice. Otherwise they agree: on the
members of other names, on what is missed, on the values, and on what may stand around the object.
-/

namespace TaskQueue.Payload

open Json (Reader KeptText PassedValue firstByte?)
open Json.Layout (ObjectText)

def Part.change : Part → TaskParam → TaskParam
  | taskName value, param => { param with taskName := value }
  | params value, param => { param with params := value }
  | metadata entries, param => { param with metadata := Dictionary.ofList entries }
  | other, param => param

theorem payloadText_iff {text : Bytes} {members : List (String × Part)} :
    PayloadText text members ↔ ObjectText PartText text members :=
  ⟨fun ⟨before, sequence, after⟩ => .mk before sequence after,
    fun ⟨before, sequence, after⟩ => .mk before sequence after⟩

theorem metadata_follows :
    (Json.Shape.members "a map" Json.Shape.text).reader.Follows fun token entries =>
      ∃ given, MetadataText token given ∧
        entries = given.foldl (fun before entry => Entries.put entry.1 entry.2 before) [] where
  sound := by
    intro bytes entries rest done
    simp only [Json.Shape.members, Json.Shape.readObject] at done
    split at done
    · simp at done
    · rename_i next others skipped
      obtain ⟨space, blank, rfl⟩ := Json.skipSpace_eq skipped
      split at done
      · rename_i isOpen
        subst next
        obtain ⟨inner, given, sequence, rfl, rfl⟩ :=
          Json.readMembers_sound Json.Shape.text_follows done
        exact ⟨space, _, blank, ⟨given, .mk sequence, rfl⟩, by simp⟩
      · simp at done
  complete := by
    rintro space token entries rest blank ⟨given, ⟨sequence⟩, rfl⟩ ends
    simp only [Json.Shape.members, Json.Shape.readObject]
    rw [List.cons_append, List.append_assoc, List.singleton_append,
      Json.skipSpace_blank_cons blank (by decide)]
    exact (if_pos rfl).trans (Json.readMembers_complete Json.Shape.text_follows sequence rest)

section Parts

variable {name : String} {token : Bytes} {part : Part}

theorem PartText.of_taskName (isPart : PartText name token part) (isName : name = "task_name") :
    ∃ value, KeptText token value ∧ part = .taskName value := by
  cases isPart with
  | taskName isText => exact ⟨_, isText, rfl⟩
  | params _ | metadata _ => simp at isName
  | other notTaskName _ _ _ => exact absurd isName notTaskName

theorem PartText.of_params (isPart : PartText name token part) (isName : name = "params") :
    ∃ value, Json.kept.Value memberLevels token value ∧ part = .params value := by
  cases isPart with
  | params isValue => exact ⟨_, isValue, rfl⟩
  | taskName _ | metadata _ => simp at isName
  | other _ notParams _ _ => exact absurd isName notParams

theorem PartText.of_metadata (isPart : PartText name token part) (isName : name = "metadata") :
    ∃ entries, MetadataText token entries ∧ part = .metadata entries := by
  cases isPart with
  | metadata isMap => exact ⟨_, isMap, rfl⟩
  | taskName _ | params _ => simp at isName
  | other _ _ notMetadata _ => exact absurd isName notMetadata

theorem PartText.of_unknown (isPart : PartText name token part) (notTaskName : name ≠ "task_name")
    (notParams : name ≠ "params") (notMetadata : name ≠ "metadata") :
    PassedValue token ∧ part = .other := by
  cases isPart with
  | other _ _ _ isValue => exact ⟨isValue, rfl⟩
  | _ => contradiction

end Parts

theorem knows_iff {name : String} :
    layout.knows name = true ↔ name = "task_name" ∨ name = "params" ∨ name = "metadata" := by
  simpa [layout] using @Json.Layout.knows_iff_mem _ layout name

theorem layout_follows : layout.Follows PartText Part.change where
  field := by
    intro name field found
    obtain rfl := Json.Layout.name_of_field? found
    have inside := List.mem_of_find?_eq_some found
    simp only [layout, List.mem_cons, List.not_mem_nil, or_false] at inside
    rcases inside with rfl | rfl | rfl
    · have follows := Json.Shape.text_follows.map fun value (param : TaskParam) =>
        { param with taskName := value }
      refine follows.of_iff ?_
      intro token made
      constructor
      · rintro ⟨value, isText, rfl⟩
        exact ⟨.taskName value, .taskName isText, rfl⟩
      · rintro ⟨part, isPart, rfl⟩
        obtain ⟨value, isText, rfl⟩ := isPart.of_taskName rfl
        exact ⟨value, isText, rfl⟩
    · have follows := (Json.decoded_follows memberLevels).map fun value (param : TaskParam) =>
        { param with params := value }
      refine follows.of_iff ?_
      intro token made
      constructor
      · rintro ⟨value, isValue, rfl⟩
        exact ⟨.params value, .params isValue, rfl⟩
      · rintro ⟨part, isPart, rfl⟩
        obtain ⟨value, isValue, rfl⟩ := isPart.of_params rfl
        exact ⟨value, isValue, rfl⟩
    · have follows := metadata_follows.map fun entries (param : TaskParam) =>
        { param with metadata := Dictionary.ofList entries }
      refine follows.of_iff ?_
      intro token made
      constructor
      · rintro ⟨entries, ⟨given, isMap, rfl⟩, rfl⟩
        refine ⟨.metadata given, .metadata isMap, ?_⟩
        funext param
        rw [Dictionary.ofList_foldl_put]
        rfl
      · rintro ⟨part, isPart, rfl⟩
        obtain ⟨given, isMap, rfl⟩ := isPart.of_metadata rfl
        refine ⟨_, ⟨given, isMap, rfl⟩, ?_⟩
        funext param
        rw [Dictionary.ofList_foldl_put]
        rfl
  other := by
    intro name token unknown
    have apart : ¬layout.knows name = true := by simp [unknown]
    simp only [knows_iff, not_or] at apart
    obtain ⟨notTaskName, notParams, notMetadata⟩ := apart
    constructor
    · rintro ⟨item, isPart⟩
      exact (isPart.of_unknown notTaskName notParams notMetadata).1
    · intro isValue
      exact ⟨.other, .other notTaskName notParams notMetadata isValue⟩
  idle := by
    intro name token item unknown isPart
    have apart : ¬layout.knows name = true := by simp [unknown]
    simp only [knows_iff, not_or] at apart
    obtain ⟨notTaskName, notParams, notMetadata⟩ := apart
    obtain ⟨_, rfl⟩ := isPart.of_unknown notTaskName notParams notMetadata
    rfl

section Members

variable {text : Bytes} {members : List (String × Part)}

def Repeats (members : List (String × Part)) : Prop :=
  ∃ name ∈ ["task_name", "params", "metadata"], 1 < (members.map Prod.fst).count name

theorem count_fieldNames {name : String} (known : name ∈ ["task_name", "params", "metadata"]) :
    (layout.fieldNames members).count name = (members.map Prod.fst).count name := by
  have isKnown : layout.knows name = true := by simpa [knows_iff] using known
  exact List.count_filter isKnown

theorem repeats_iff : Repeats members ↔ ¬(layout.fieldNames members).Nodup := by
  have known (name : String) :
      layout.knows name = true ↔ name ∈ ["task_name", "params", "metadata"] := by simp [knows_iff]
  rw [Json.Layout.nodup_fieldNames_iff]
  simp only [Repeats, known, not_forall, Nat.not_le, exists_prop]

theorem foldl_change (members : List (String × Part)) (param : TaskParam) (named : Bool) :
    members.foldl (fun param member => member.2.change param) param =
      (members.foldl Filling.take ⟨param, named⟩).param := by
  induction members generalizing param named with
  | nil => rfl
  | cons member rest ih =>
      obtain ⟨name, part⟩ := member
      cases part with
      | taskName value => exact ih _ true
      | params value | metadata entries | other => exact ih _ named

theorem made_eq_reading : layout.made Part.change members = reading members := by
  have folded := foldl_change members TaskParam.empty false
  rw [foldl_take_fresh] at folded
  exact folded

theorem sufficient_iff (isPayload : PayloadText text members) :
    layout.Sufficient (layout.fieldNames members) ↔ (lastTaskName? members).isSome = true := by
  obtain ⟨_, sequence, _⟩ := isPayload
  have spoken : ∀ member ∈ members, ∃ token, PartText member.1 token member.2 := by
    refine sequence.forall_values ?_
    rintro token member ⟨_, ⟨_, _, isPart⟩⟩
    exact ⟨_, isPart⟩
  have needs : layout.Sufficient (layout.fieldNames members) ↔
      "task_name" ∈ layout.fieldNames members := by
    simp [Json.Layout.Sufficient, layout]
  rw [needs]
  constructor
  · intro inside
    obtain ⟨member, taken, isName⟩ := List.mem_map.mp (List.mem_filter.mp inside).1
    obtain ⟨token, isPart⟩ := spoken member taken
    obtain ⟨value, _, part⟩ := isPart.of_taskName isName
    cases last : lastTaskName? members with
    | some last => rfl
    | none =>
        have nothing := List.filterMap_eq_nil_iff.mp (List.getLast?_eq_none_iff.mp last)
        simpa [part, Part.taskName?] using nothing member taken
  · intro named
    obtain ⟨value, last⟩ := Option.isSome_iff_exists.mp named
    obtain ⟨⟨name, part⟩, taken, chosen⟩ := exists_of_lastOf last
    obtain ⟨token, isPart⟩ := spoken _ taken
    refine List.mem_filter.mpr ⟨List.mem_map.mpr ⟨_, taken, ?_⟩, knows_iff.mpr (.inl rfl)⟩
    cases isPart with
    | taskName _ => rfl
    | _ => simp [Part.taskName?] at chosen

end Members

/-- What is an object that the record takes is decoded to the same, into any parameter. What is
decoded is taken by the record as the same, unless one of the known names is given again; then, and
only then, the record names such a one as its fault. -/
theorem parse_agrees (text : Bytes) :
    (∀ param, firstByte? text = some (byte '\x7b') → layout.parse text = .ok param →
      ∀ start, decodeTask text start = (.ok (), param)) ∧
    ∀ start param, decodeTask text start = (.ok (), param) →
      (∃ members, PayloadText text members) ∧
      ∀ members, PayloadText text members →
        (¬Repeats members ∧ layout.parse text = .ok param) ∨
        (Repeats members ∧ ∃ name unread,
          layout.parse text = .error ⟨.duplicateField name, unread⟩ ∧
            name ∈ ["task_name", "params", "metadata"] ∧
            1 < (members.map Prod.fst).count name) := by
  constructor
  · intro param opened parsed start
    obtain ⟨members, isObject, _, sufficient, rfl⟩ :=
      Json.Layout.parse_sound layout_follows opened parsed
    have isPayload := payloadText_iff.mpr isObject
    rw [decodeTask_payload_iff isPayload, means_iff]
    exact ⟨(sufficient_iff isPayload).mp sufficient, made_eq_reading⟩
  · intro start param decoded
    refine ⟨?_, ?_⟩
    · obtain ⟨members, isPayload, _⟩ := decodeInto_sound (decodeTask_ok_iff.mp decoded)
      exact ⟨members, isPayload⟩
    intro members isPayload
    have isObject := payloadText_iff.mp isPayload
    obtain ⟨named, rfl⟩ := means_iff.mp ((decodeTask_payload_iff isPayload).mp decoded)
    by_cases apart : (layout.fieldNames members).Nodup
    · left
      refine ⟨fun repeats => repeats_iff.mp repeats apart, ?_⟩
      rw [← made_eq_reading]
      exact Json.Layout.parse_complete layout_follows isObject apart
        ((sufficient_iff isPayload).mpr named)
    · right
      obtain ⟨name, unread, failed, twice⟩ :=
        Json.Layout.parse_repeated layout_follows isObject apart
      have inside : name ∈ layout.fieldNames members := List.count_pos_iff.mp (by omega)
      have known : name ∈ ["task_name", "params", "metadata"] := by
        simpa [knows_iff] using (List.mem_filter.mp inside).2
      refine ⟨repeats_iff.mpr apart, name, unread, failed, known, ?_⟩
      rwa [count_fieldNames known] at twice

def plain : Bytes := Bytes.ofText "\x7b\"params\":[1],\"task_name\":\"a\"\x7d"

def renamed : Bytes :=
  Bytes.ofText "\x7b\"task_name\":\"a\",\"task\\u005fname\":\"b\"\x7d"

/-- Both readings take the first payload. The second is decoded, with the later name, and the record
refuses it. -/
theorem parse_agrees_renamed :
    (∃ param, layout.parse plain = .ok param ∧
      ∀ start, decodeTask plain start = (.ok (), param)) ∧
    ∃ param, decodeTask renamed TaskParam.empty = (.ok (), param) ∧
      param.taskName = "b" ∧
      ∃ name unread, layout.parse renamed = .error ⟨.duplicateField name, unread⟩ := by
  constructor
  · have taken : (layout.parse plain).toBool = true := by decide +kernel
    cases parsed : layout.parse plain with
    | error fault =>
        rw [parsed] at taken
        cases taken
    | ok param => exact ⟨param, rfl, (parse_agrees plain).1 param (by decide +kernel) parsed⟩
  · have done : (decodeTask renamed TaskParam.empty).1 = .ok () ∧
        (decodeTask renamed TaskParam.empty).2.taskName = "b" := by decide +kernel
    have refused : (layout.parse renamed).toBool = false := by decide +kernel
    have decoded : decodeTask renamed TaskParam.empty =
        (.ok (), (decodeTask renamed TaskParam.empty).2) := Prod.ext done.1 rfl
    obtain ⟨⟨members, isPayload⟩, readings⟩ :=
      (parse_agrees renamed).2 TaskParam.empty _ decoded
    rcases readings members isPayload with ⟨_, parsed⟩ | ⟨_, name, unread, failed, _⟩
    · rw [parsed] at refused
      cases refused
    · exact ⟨_, decoded, done.2, name, unread, failed⟩

end TaskQueue.Payload
