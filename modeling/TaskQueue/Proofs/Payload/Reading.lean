import TaskQueue.Payload
import TaskQueue.Proofs.Dictionary
import TaskQueue.Proofs.Json.Record

/-! What a payload means. Its text is one object; the last member of each known name counts, and the
members of other names say nothing. Decoding changes one parameter member by member; the proof shows
that this amounts to the meaning of the members as a whole. -/

namespace TaskQueue.Payload

open Json (Blank Ends Enclosed MemberText ColonText KeptText PassedValue Reader Action finish_iff
  firstByte? firstByte?_eq_head?)
open Json.Shape (text_follows)
open Json.Layout (skipMember_sound skipMember_complete)

inductive Part
  | taskName (value : String)
  | params (value : Json)
  | metadata (entries : List (String × String))
  | other

namespace Part

def taskName? : Part → Option String
  | taskName value => some value
  | _ => none

def params? : Part → Option Json
  | params value => some value
  | _ => none

def metadata? : Part → Option (List (String × String))
  | metadata entries => some entries
  | _ => none

def isOther : Part → Bool
  | other => true
  | _ => false

end Part

inductive MetadataText : Bytes → List (String × String) → Prop
  | mk {inner : Bytes} {entries : List (String × String)} :
      Enclosed (MemberText KeptText fun _ => KeptText) inner entries →
      MetadataText (byte '\x7b' :: (inner ++ [byte '\x7d'])) entries

/-- The value of a member, by its name. Only the values of other names may have any depth. -/
inductive PartText : String → Bytes → Part → Prop
  | taskName {token : Bytes} {value : String} : KeptText token value →
      PartText "task_name" token (.taskName value)
  | params {token : Bytes} {value : Json} : Json.kept.Value memberLevels token value →
      PartText "params" token (.params value)
  | metadata {token : Bytes} {entries : List (String × String)} : MetadataText token entries →
      PartText "metadata" token (.metadata entries)
  | other {name : String} {token : Bytes} : name ≠ "task_name" → name ≠ "params" →
      name ≠ "metadata" → PassedValue token → PartText name token .other

inductive PayloadText : Bytes → List (String × Part) → Prop
  | mk {before inner after : Bytes} {members : List (String × Part)} : Blank before →
      Enclosed (MemberText KeptText PartText) inner members → Blank after →
      PayloadText (before ++ byte '\x7b' :: (inner ++ byte '\x7d' :: after)) members

section Members

variable (members : List (String × Part))

def lastTaskName? : Option String := lastOf (fun entry => entry.2.taskName?) members

def lastParams? : Option Json := lastOf (fun entry => entry.2.params?) members

def lastMetadata? : Option (List (String × String)) :=
  lastOf (fun entry => entry.2.metadata?) members

structure Means (param : TaskParam) : Prop where
  taskName : lastTaskName? members = some param.taskName
  params : param.params = (lastParams? members).getD .null
  metadata : ∀ key, param.metadata.get? key =
    lastOf (Entries.valueAt key) ((lastMetadata? members).getD [])

end Members

theorem addEntry_follows : addEntry.Follows (fun _ => KeptText)
    fun metadata entry => metadata.insert entry.1 entry.2 where
  sound := by
    intro key metadata bytes rest after done
    simp only [addEntry] at done
    split at done
    · simp at done
    · rename_i value left read
      simp only [Prod.mk.injEq, Except.ok.injEq] at done
      obtain ⟨rfl, rfl⟩ := done
      obtain ⟨token, isValue, rfl⟩ := Json.readMember_sound text_follows read
      exact ⟨token, value, isValue, rfl, rfl⟩
  complete := by
    intro key token value rest metadata isValue ends
    simp only [addEntry, Json.readMember_complete text_follows isValue ends]

theorem fillMetadata_sound {metadata after : Dictionary String} {bytes rest : Bytes}
    (done : fillMetadata metadata bytes = (.ok rest, after)) :
    ∃ token entries, ColonText MetadataText token entries ∧ bytes = token ++ rest ∧
      after = Dictionary.ofList entries := by
  unfold fillMetadata at done
  split at done
  · simp at done
  · rename_i afterColon colon
    split at done
    · simp at done
    · rename_i next others skipped
      obtain ⟨space, blank, rfl⟩ := Json.skipSpace_eq skipped
      split at done
      · rename_i isOpen
        subst next
        obtain ⟨inner, entries, sequence, rfl, rfl⟩ := Json.walk_sound addEntry_follows done
        have token : space ++ byte '\x7b' :: (inner ++ byte '\x7d' :: rest) =
            space ++ ((byte '\x7b' :: (inner ++ [byte '\x7d'])) ++ rest) := by simp
        rw [token] at colon
        obtain ⟨text, isText, rfl⟩ := ColonText.ofColon colon blank (MetadataText.mk sequence)
        exact ⟨text, entries, isText, rfl, rfl⟩
      · simp at done

theorem fillMetadata_complete (metadata : Dictionary String) {token : Bytes}
    {entries : List (String × String)} (isValue : ColonText MetadataText token entries)
    (rest : Bytes) :
    fillMetadata metadata (token ++ rest) = (.ok rest, Dictionary.ofList entries) := by
  obtain ⟨space, inner, blank, ⟨sequence⟩, colon⟩ := isValue.readColon
  rename_i inner
  unfold fillMetadata
  rw [colon]
  dsimp only
  rw [List.cons_append, List.append_assoc, List.singleton_append,
    Json.skipSpace_blank_cons blank (by decide)]
  exact (if_pos rfl).trans (Json.walk_complete addEntry_follows sequence Dictionary.empty rest)

def Filling.take (filling : Filling) (member : String × Part) : Filling :=
  match member.2 with
  | .taskName value => ⟨{ filling.param with taskName := value }, true⟩
  | .params value => { filling with param := { filling.param with params := value } }
  | .metadata entries =>
      { filling with param := { filling.param with metadata := Dictionary.ofList entries } }
  | .other => filling

theorem fill_follows : fill.Follows PartText Filling.take where
  sound := by
    intro name filling bytes rest after done
    simp only [fill] at done
    split at done
    · rename_i isName
      subst name
      split at done
      · simp at done
      · rename_i value left read
        simp only [Prod.mk.injEq, Except.ok.injEq] at done
        obtain ⟨rfl, rfl⟩ := done
        obtain ⟨token, text, rfl⟩ := Json.readMember_sound text_follows read
        exact ⟨token, .taskName value, text.imp .taskName, rfl, rfl⟩
    · rename_i notTaskName
      split at done
      · rename_i isName
        subst name
        split at done
        · simp at done
        · rename_i value left read
          simp only [Prod.mk.injEq, Except.ok.injEq] at done
          obtain ⟨rfl, rfl⟩ := done
          obtain ⟨token, text, rfl⟩ :=
            Json.readMember_sound (Json.decoded_follows memberLevels) read
          exact ⟨token, .params value, text.imp .params, rfl, rfl⟩
      · rename_i notParams
        split at done
        · rename_i isName
          subst name
          generalize found : fillMetadata filling.param.metadata bytes = filled at done
          obtain ⟨result, metadata⟩ := filled
          simp only [Prod.mk.injEq] at done
          obtain ⟨rfl, rfl⟩ := done
          obtain ⟨token, entries, text, rfl, rfl⟩ := fillMetadata_sound found
          exact ⟨token, .metadata entries, text.imp .metadata, rfl, rfl⟩
        · rename_i notMetadata
          simp only [Prod.mk.injEq] at done
          obtain ⟨skipped, rfl⟩ := done
          obtain ⟨token, text, rfl⟩ := skipMember_sound skipped
          exact ⟨token, .other, text.imp (.other notTaskName notParams notMetadata), rfl, rfl⟩
  complete := by
    intro name token part rest filling text ends
    obtain ⟨before, after, isPart⟩ := text
    simp only [fill]
    cases isPart with
    | taskName isText =>
        rw [if_pos rfl, Json.readMember_complete text_follows (.mk before after isText) ends]
        rfl
    | params isValue =>
        rw [if_neg (by decide), if_pos rfl, Json.readMember_complete
          (Json.decoded_follows memberLevels) (.mk before after isValue) ends]
        rfl
    | metadata isValue =>
        rw [if_neg (by decide), if_neg (by decide), if_pos rfl,
          fillMetadata_complete _ (.mk before after isValue)]
        rfl
    | other notTaskName notParams notMetadata isValue =>
        rw [if_neg notTaskName, if_neg notParams, if_neg notMetadata,
          skipMember_complete (.mk before after isValue) ends]
        rfl

theorem foldl_take (members : List (String × Part)) (filling : Filling) :
    members.foldl Filling.take filling =
      ⟨⟨(lastTaskName? members).getD filling.param.taskName,
        (lastParams? members).getD filling.param.params,
        ((lastMetadata? members).map Dictionary.ofList).getD filling.param.metadata⟩,
        filling.named || (lastTaskName? members).isSome⟩ := by
  induction members generalizing filling with
  | nil => simp [lastTaskName?, lastParams?, lastMetadata?, lastOf]
  | cons member rest ih =>
      obtain ⟨name, part⟩ := member
      rw [List.foldl_cons, ih]
      unfold lastTaskName? lastParams? lastMetadata?
      cases part <;>
        simp [lastOf_cons, Filling.take, Part.taskName?, Part.params?, Part.metadata?]

def reading (members : List (String × Part)) : TaskParam :=
  ⟨(lastTaskName? members).getD "", (lastParams? members).getD .null,
    ((lastMetadata? members).map Dictionary.ofList).getD Dictionary.empty⟩

theorem foldl_take_fresh (members : List (String × Part)) :
    members.foldl Filling.take ⟨TaskParam.empty, false⟩ =
      ⟨reading members, (lastTaskName? members).isSome⟩ := by
  rw [foldl_take, Bool.false_or]
  rfl

theorem means_iff {members : List (String × Part)} {param : TaskParam} :
    Means members param ↔ (lastTaskName? members).isSome = true ∧ param = reading members := by
  constructor
  · intro means
    refine ⟨by rw [means.taskName]; rfl, ?_⟩
    obtain ⟨taskName, params, metadata⟩ := param
    have sameMetadata : metadata = (reading members).metadata := by
      refine Dictionary.ext_get? fun key => ?_
      rw [means.metadata key, reading]
      cases lastMetadata? members with
      | none => rfl
      | some entries => exact (Dictionary.get?_ofList entries key).symm
    obtain rfl := means.params
    rw [sameMetadata, reading, means.taskName]
    rfl
  · rintro ⟨named, rfl⟩
    obtain ⟨taskName, last⟩ := Option.isSome_iff_exists.mp named
    refine ⟨by rw [reading, last]; rfl, rfl, fun key => ?_⟩
    rw [reading]
    cases lastMetadata? members with
    | none => rfl
    | some entries => exact Dictionary.get?_ofList entries key

theorem decodeInto_sound {text : Bytes} {start param : TaskParam}
    (done : decodeInto text start = (.ok (), param)) :
    ∃ members, PayloadText text members ∧ Means members param := by
  unfold decodeInto at done
  split at done
  · simp at done
  · rename_i next others skipped
    obtain ⟨before, beforeBlank, rfl⟩ := Json.skipSpace_eq skipped
    split at done
    · rename_i isOpen
      subst next
      split at done
      · simp at done
      · rename_i after filling walked
        obtain ⟨inner, members, sequence, rfl, rfl⟩ := Json.walk_sound fill_follows walked
        rw [foldl_take_fresh] at done
        split at done
        · rename_i named
          simp only [Prod.mk.injEq] at done
          obtain ⟨finished, rfl⟩ := done
          exact ⟨members, .mk beforeBlank sequence (finish_iff.mp finished),
            means_iff.mpr ⟨named, rfl⟩⟩
        · simp at done
    · simp at done

theorem decodeInto_payload {text : Bytes} {members : List (String × Part)}
    (isPayload : PayloadText text members) (start : TaskParam) :
    (decodeInto text start).2 = reading members ∧
      ((decodeInto text start).1 = .ok () ↔ (lastTaskName? members).isSome = true) := by
  obtain ⟨beforeBlank, sequence, afterBlank⟩ := isPayload
  unfold decodeInto
  rw [Json.skipSpace_blank_cons beforeBlank (by decide)]
  dsimp only
  rw [if_pos rfl, Json.walk_complete fill_follows sequence, foldl_take_fresh]
  dsimp only
  split
  · rename_i named
    exact ⟨rfl, fun _ => named, fun _ => finish_iff.mpr afterBlank⟩
  · rename_i unnamed
    exact ⟨rfl, by simp, fun named => absurd named unnamed⟩

theorem decodeTask_ok_iff {text : Bytes} {start param : TaskParam} :
    decodeTask text start = (.ok (), param) ↔ decodeInto text start = (.ok (), param) := by
  unfold decodeTask
  split <;> simp_all

theorem decodeTask_payload_iff {text : Bytes} {members : List (String × Part)}
    (isPayload : PayloadText text members) {start param : TaskParam} :
    decodeTask text start = (.ok (), param) ↔ Means members param := by
  obtain ⟨left, decoded⟩ := decodeInto_payload isPayload start
  rw [decodeTask_ok_iff, means_iff, ← decoded, ← left]
  constructor
  · intro done
    rw [done]
    exact ⟨rfl, rfl⟩
  · rintro ⟨done, rfl⟩
    exact Prod.ext done rfl

theorem means_filter {members : List (String × Part)} {param : TaskParam} :
    Means (members.filter fun entry => !entry.2.isOther) param ↔ Means members param := by
  have nothing (entry : String × Part) (dropped : (!entry.2.isOther) = false) :
      entry.2 = .other := by
    obtain ⟨name, part⟩ := entry
    cases part <;> simp_all [Part.isOther]
  have sameName : lastTaskName? (members.filter fun entry => !entry.2.isOther) =
      lastTaskName? members := lastOf_filter fun entry dropped => by rw [nothing entry dropped]; rfl
  have sameParams : lastParams? (members.filter fun entry => !entry.2.isOther) =
      lastParams? members := lastOf_filter fun entry dropped => by rw [nothing entry dropped]; rfl
  have sameMetadata : lastMetadata? (members.filter fun entry => !entry.2.isOther) =
      lastMetadata? members := lastOf_filter fun entry dropped => by rw [nothing entry dropped]; rfl
  rw [means_iff, means_iff, reading, reading, sameName, sameParams, sameMetadata]

/-- A text is decoded exactly if it is a payload whose members name a task, and then into what they
mean, whatever the parameter held before. Payloads that differ only in members of other names are
decoded alike. -/
theorem decodeTask_meaning (text : Bytes) (start : TaskParam) :
    (∀ param, decodeTask text start = (.ok (), param) ↔
      ∃ members, PayloadText text members ∧ Means members param) ∧
    ∀ members other others, PayloadText text members → PayloadText other others →
      (members.filter fun entry => !entry.2.isOther) =
        (others.filter fun entry => !entry.2.isOther) →
      ∀ otherStart param, decodeTask text start = (.ok (), param) ↔
        decodeTask other otherStart = (.ok (), param) := by
  constructor
  · intro param
    constructor
    · intro done
      exact decodeInto_sound (decodeTask_ok_iff.mp done)
    · rintro ⟨members, isPayload, means⟩
      exact (decodeTask_payload_iff isPayload).mpr means
  · intro members other others isPayload otherIsPayload same otherStart param
    rw [decodeTask_payload_iff isPayload, decodeTask_payload_iff otherIsPayload, ← means_filter,
      same, means_filter]

theorem decodeInto_opened {text : Bytes} (opened : firstByte? text = some (byte '\x7b'))
    (left right : TaskParam) : decodeInto text left = decodeInto text right := by
  rw [firstByte?_eq_head?, List.head?_eq_some_iff] at opened
  obtain ⟨rest, skipped⟩ := opened
  unfold decodeInto
  rw [skipped]
  dsimp only
  rw [if_pos rfl, if_pos rfl]

theorem decodeInto_unopened {text : Bytes} (unopened : firstByte? text ≠ some (byte '\x7b')) :
    ∃ fault, ∀ start, decodeInto text start = (.error fault, start) := by
  rw [firstByte?_eq_head?] at unopened
  unfold decodeInto
  cases skipped : Json.skipSpace text with
  | nil => exact ⟨_, fun _ => rfl⟩
  | cons next rest =>
      have notOpen : next ≠ byte '\x7b' := by
        rintro rfl
        exact unopened (by rw [skipped]; rfl)
      refine ⟨Json.mismatch "a task parameter object" next rest, fun start => ?_⟩
      dsimp only
      rw [if_neg notOpen]

/-- A text has the same result in any two parameters, and so the same error if it is at fault. What
is decoded is the same in both; a fault leaves either both as they were, if no object was begun, or
the same in both, however far the object was read. -/
theorem decodeTask_forgets (text : Bytes) (left right : TaskParam) :
    (decodeTask text left).1 = (decodeTask text right).1 ∧
      ((decodeTask text left).1 = .ok () →
        (decodeTask text left).2 = (decodeTask text right).2) ∧
      ∀ error, (decodeTask text left).1 = .error error →
        (firstByte? text ≠ some (byte '\x7b') ∧ (decodeTask text left).2 = left ∧
            (decodeTask text right).2 = right) ∨
          (firstByte? text = some (byte '\x7b') ∧
            (decodeTask text left).2 = (decodeTask text right).2) := by
  by_cases opened : firstByte? text = some (byte '\x7b')
  · have same : decodeTask text left = decodeTask text right := by
      unfold decodeTask
      rw [decodeInto_opened opened left right]
    rw [same]
    exact ⟨rfl, fun _ => rfl, fun _ _ => .inr ⟨opened, rfl⟩⟩
  · obtain ⟨fault, failed⟩ := decodeInto_unopened opened
    have untouched (start : TaskParam) :
        decodeTask text start = (.error (.decode (fault.message text)), start) := by
      rw [decodeTask, failed]
    rw [untouched, untouched]
    exact ⟨rfl, nofun, fun _ _ => .inl ⟨opened, rfl, rfl⟩⟩

/-- The name is filled in before the metadata are at fault; the old value is gone. -/
example : (decodeTask (Bytes.ofText "\x7b\"task_name\":\"t\",\"metadata\":1\x7d")
    ⟨"old", .bool true, Dictionary.ofList [("trace", "1")]⟩).2.same (TaskParam.ofName "t" .null) :=
  by decide +kernel

end TaskQueue.Payload
