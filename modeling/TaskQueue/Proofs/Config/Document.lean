import TaskQueue.Config
import TaskQueue.Proofs.Dictionary
import TaskQueue.Proofs.Json.Natural
import TaskQueue.Proofs.Json.Written

/-!
Documents with the settings of a consumer. What is printed is read back; an object gives the
settings it lists, in any order and among whatever else, and the defaults for the others; and an
object that lists a setting twice, or gives something else than a natural number where one belongs,
is refused.
-/

namespace TaskQueue.ConsumerConfig

open Json (KeptText PassedValue NaturalText OptionalText WrittenObject)
open Json.Layout (ObjectText)

inductive Setting
  | tagPrefix (value : String)
  | maxConcurrency (limit : Option UInt64)
  | messageTimeout (milliseconds : Option UInt64)
  | reconnectBackoff (milliseconds : UInt64)
  | payloadPoolCapacity (capacity : UInt64)
  | other

def settingNames : List String :=
  ["consumer_tag_prefix", "max_concurrency", "message_timeout_ms", "reconnect_backoff_ms",
    "payload_pool_capacity"]

def numberNames : List String :=
  ["max_concurrency", "message_timeout_ms", "reconnect_backoff_ms", "payload_pool_capacity"]

/-- The value of a member: a text, a number or none, a number, or under another name anything. -/
def SettingText (name : String) (token : Bytes) : Setting → Prop
  | .tagPrefix value => name = "consumer_tag_prefix" ∧ KeptText token value
  | .maxConcurrency limit => name = "max_concurrency" ∧ OptionalText token limit
  | .messageTimeout milliseconds => name = "message_timeout_ms" ∧ OptionalText token milliseconds
  | .reconnectBackoff milliseconds =>
      name = "reconnect_backoff_ms" ∧ NaturalText token milliseconds
  | .payloadPoolCapacity capacity => name = "payload_pool_capacity" ∧ NaturalText token capacity
  | .other => name ∉ settingNames ∧ PassedValue token

namespace Setting

def tagPrefix? : Setting → Option String
  | tagPrefix value => some value
  | _ => none

def maxConcurrency? : Setting → Option (Option UInt64)
  | maxConcurrency limit => some limit
  | _ => none

def messageTimeout? : Setting → Option (Option UInt64)
  | messageTimeout milliseconds => some milliseconds
  | _ => none

def reconnectBackoff? : Setting → Option UInt64
  | reconnectBackoff milliseconds => some milliseconds
  | _ => none

def payloadPoolCapacity? : Setting → Option UInt64
  | payloadPoolCapacity capacity => some capacity
  | _ => none

def change : Setting → ConsumerConfig → ConsumerConfig
  | tagPrefix value, config => { config with tagPrefix := value }
  | maxConcurrency limit, config => { config with maxConcurrency := limit }
  | messageTimeout milliseconds, config => { config with messageTimeoutMs := milliseconds }
  | reconnectBackoff milliseconds, config => { config with reconnectBackoffMs := milliseconds }
  | payloadPoolCapacity capacity, config => { config with payloadPoolCapacity := capacity }
  | other, config => config

def json : Setting → Json
  | tagPrefix value => .text value
  | maxConcurrency limit => optionalNumber limit
  | messageTimeout milliseconds => optionalNumber milliseconds
  | reconnectBackoff milliseconds => .number (.natural milliseconds)
  | payloadPoolCapacity capacity => .number (.natural capacity)
  | other => .null

end Setting

def revised (base : ConsumerConfig) (members : List (String × Setting)) : ConsumerConfig where
  tagPrefix := (lastOf (·.2.tagPrefix?) members).getD base.tagPrefix
  maxConcurrency := (lastOf (·.2.maxConcurrency?) members).getD base.maxConcurrency
  messageTimeoutMs := (lastOf (·.2.messageTimeout?) members).getD base.messageTimeoutMs
  reconnectBackoffMs := (lastOf (·.2.reconnectBackoff?) members).getD base.reconnectBackoffMs
  payloadPoolCapacity :=
    (lastOf (·.2.payloadPoolCapacity?) members).getD base.payloadPoolCapacity

theorem SettingText.passed {name : String} {token : Bytes} {setting : Setting}
    (isSetting : SettingText name token setting) : PassedValue token := by
  cases setting with
  | tagPrefix value => exact (Json.PassedScalar.text isSetting.2.passed).value
  | maxConcurrency limit | messageTimeout limit => exact isSetting.2.passed.value
  | reconnectBackoff number | payloadPoolCapacity number => exact isSetting.2.passed.value
  | other => exact isSetting.2

theorem knows_iff {name : String} : layout.knows name = true ↔ name ∈ settingNames :=
  Json.Layout.knows_iff_mem

theorem field_follows {α : Type} {name : String} {shape : Json.Shape α}
    {set : α → ConsumerConfig → ConsumerConfig} {value : Bytes → α → Prop} (tell : α → Setting)
    (follows : shape.reader.Follows value)
    (means : ∀ {token setting}, SettingText name token setting ↔
      ∃ item, value token item ∧ setting = tell item)
    (changes : ∀ item, (tell item).change = set item) :
    (field name shape set).shape.reader.Follows fun token made =>
      ∃ setting, SettingText name token setting ∧ made = setting.change := by
  refine (follows.map set).of_iff ?_
  intro token made
  constructor
  · rintro ⟨item, isValue, rfl⟩
    exact ⟨tell item, means.mpr ⟨item, isValue, rfl⟩, (changes item).symm⟩
  · rintro ⟨setting, isSetting, rfl⟩
    obtain ⟨item, isValue, rfl⟩ := means.mp isSetting
    exact ⟨item, isValue, changes item⟩

theorem layout_follows : layout.Follows SettingText Setting.change where
  field := by
    intro name field found
    obtain rfl := Json.Layout.name_of_field? found
    have inside := List.mem_of_find?_eq_some found
    simp only [layout, List.mem_cons, List.not_mem_nil, or_false] at inside
    rcases inside with rfl | rfl | rfl | rfl | rfl
    · refine field_follows .tagPrefix Json.Shape.text_follows ?_ fun _ => rfl
      intro token setting
      cases setting <;> simp [SettingText, settingNames]
    · refine field_follows .maxConcurrency (Json.Shape.optional_natural_follows _) ?_ fun _ => rfl
      intro token setting
      cases setting <;> simp [SettingText, settingNames]
    · refine field_follows .messageTimeout (Json.Shape.optional_natural_follows _) ?_ fun _ => rfl
      intro token setting
      cases setting <;> simp [SettingText, settingNames]
    · refine field_follows .reconnectBackoff (Json.Shape.natural_follows _) ?_ fun _ => rfl
      intro token setting
      cases setting <;> simp [SettingText, settingNames]
    · refine field_follows .payloadPoolCapacity (Json.Shape.natural_follows _) ?_ fun _ => rfl
      intro token setting
      cases setting <;> simp [SettingText, settingNames]
  other := by
    intro name token unknown
    have apart : name ∉ settingNames := fun known => by simp [knows_iff.mpr known] at unknown
    constructor
    · rintro ⟨setting, isSetting⟩
      exact isSetting.passed
    · intro isValue
      exact ⟨.other, apart, isValue⟩
  idle := by
    intro name token setting unknown isSetting
    have apart : name ∉ settingNames := fun known => by simp [knows_iff.mpr known] at unknown
    cases setting with
    | other => rfl
    | _ => exact absurd (by simp [isSetting.1, settingNames]) apart

theorem foldl_change (members : List (String × Setting)) (base : ConsumerConfig) :
    members.foldl (fun config member => member.2.change config) base = base.revised members := by
  induction members generalizing base with
  | nil => rfl
  | cons member rest ih =>
      obtain ⟨name, setting⟩ := member
      rw [List.foldl_cons, ih]
      simp only [revised, lastOf_cons, Option.getD_or]
      cases setting <;> rfl

def Once (members : List (String × Setting)) : Prop :=
  ∀ name ∈ settingNames, (members.map Prod.fst).count name ≤ 1

instance (members : List (String × Setting)) : Decidable (Once members) :=
  inferInstanceAs (Decidable (∀ name ∈ settingNames, (members.map Prod.fst).count name ≤ 1))

theorem once_iff {members : List (String × Setting)} :
    Once members ↔ (layout.fieldNames members).Nodup := by
  rw [Json.Layout.nodup_fieldNames_iff]
  simp only [knows_iff]
  rfl

theorem sufficient (names : List String) : layout.Sufficient names := by
  simp [Json.Layout.Sufficient, layout, field]

theorem parse_revised {text : Bytes} {members : List (String × Setting)}
    (isObject : ObjectText SettingText text members) (once : Once members) :
    layout.parse text = .ok (default.revised members) := by
  have parsed := Json.Layout.parse_complete layout_follows isObject (once_iff.mp once)
    (sufficient (layout.fieldNames members))
  rw [parsed, ← foldl_change]
  rfl

def settings (config : ConsumerConfig) : List (String × Setting) :=
  [("consumer_tag_prefix", .tagPrefix config.tagPrefix),
    ("max_concurrency", .maxConcurrency config.maxConcurrency),
    ("message_timeout_ms", .messageTimeout config.messageTimeoutMs),
    ("reconnect_backoff_ms", .reconnectBackoff config.reconnectBackoffMs),
    ("payload_pool_capacity", .payloadPoolCapacity config.payloadPoolCapacity)]

theorem toJson_eq (config : ConsumerConfig) :
    config.toJson = .object (config.settings.map fun member => (member.1, member.2.json)) := rfl

theorem once_settings (config : ConsumerConfig) : Once config.settings := by
  have once : ∀ name ∈ settingNames, settingNames.count name ≤ 1 := by decide
  exact once

theorem revised_settings (config base : ConsumerConfig) : base.revised config.settings = config :=
  rfl

theorem natural_printed (number : UInt64) :
    NaturalText (Json.encode (.number (.natural number))) number := by
  refine ⟨Decimal.digits number.toNat, ?_, Decimal.value_digits number.toNat⟩
  simpa [Json.encode, Number.characters] using Json.digits_whole number.toNat

theorem optional_printed (number? : Option UInt64) :
    OptionalText (Json.encode (optionalNumber number?)) number? := by
  cases number? with
  | none =>
      simpa [optionalNumber, Json.encode] using OptionalText.none
  | some number => exact .some (natural_printed number)

theorem settings_printed (config : ConsumerConfig) :
    ObjectText SettingText (Json.encode config.toJson) config.settings := by
  have each : ∀ member ∈ config.settings,
      SettingText member.1 (Json.encode member.2.json) member.2 := by
    intro member inside
    simp only [settings, List.mem_cons, List.not_mem_nil, or_false] at inside
    rcases inside with rfl | rfl | rfl | rfl | rfl
    · exact ⟨rfl, Json.encodeText_kept config.tagPrefix⟩
    · exact ⟨rfl, optional_printed config.maxConcurrency⟩
    · exact ⟨rfl, optional_printed config.messageTimeoutMs⟩
    · exact ⟨rfl, natural_printed config.reconnectBackoffMs⟩
    · exact ⟨rfl, natural_printed config.payloadPoolCapacity⟩
  obtain ⟨inner, sequence, printed⟩ := Json.encode_object each
  rw [toJson_eq, printed]
  exact .mk Json.blank_nil sequence Json.blank_nil

/-- An object that lists a setting again, or gives a numeral for a number that is not a natural
number of 64 bits. -/
inductive Faulty (entries : List (Bytes × Bytes)) : Prop
  | again {before between after : List (Bytes × Bytes)} {first second : Bytes × Bytes}
      {name : String} : name ∈ settingNames →
      entries = before ++ first :: (between ++ second :: after) →
      KeptText first.1 name → KeptText second.1 name → Faulty entries
  | number {entry : Bytes × Bytes} {name : String} {parts : Numeral} : name ∈ numberNames →
      entry ∈ entries → KeptText entry.1 name → Json.NumeralText entry.2 parts →
      parts.negative = true ∨ parts.fraction ≠ [] ∨ parts.exponent.isSome = true ∨
        UInt64.size ≤ Decimal.value parts.whole →
      Faulty entries

theorem SettingText.of_number {name : String} {token : Bytes} {setting : Setting}
    (isSetting : SettingText name token setting) (isNumber : name ∈ numberNames) :
    ∃ number?, OptionalText token number? := by
  cases setting with
  | tagPrefix value =>
      rw [isSetting.1] at isNumber
      exact absurd isNumber (by decide)
  | maxConcurrency limit => exact ⟨limit, isSetting.2⟩
  | messageTimeout milliseconds => exact ⟨milliseconds, isSetting.2⟩
  | reconnectBackoff milliseconds => exact ⟨some milliseconds, .some isSetting.2⟩
  | payloadPoolCapacity capacity => exact ⟨some capacity, .some isSetting.2⟩
  | other => exact absurd (List.mem_cons_of_mem _ isNumber) isSetting.1

theorem refused_again {reads : List (Json.ReadMember Setting)}
    {before between after : List (Bytes × Bytes)} {first second : Bytes × Bytes} {name : String}
    (each : ∀ read ∈ reads, KeptText read.1.1 read.2.1)
    (split : reads.map Prod.fst = before ++ first :: (between ++ second :: after))
    (isFirst : KeptText first.1 name) (isSecond : KeptText second.1 name) :
    1 < ((reads.map Prod.snd).map Prod.fst).count name := by
  obtain ⟨readsBefore, fromFirst, rfl, _, splitFirst⟩ := List.map_eq_append_iff.mp split
  obtain ⟨one, afterFirst, rfl, rfl, splitAfter⟩ := List.map_eq_cons_iff.mp splitFirst
  obtain ⟨readsBetween, fromSecond, rfl, _, splitSecond⟩ := List.map_eq_append_iff.mp splitAfter
  obtain ⟨two, readsAfter, rfl, rfl, _⟩ := List.map_eq_cons_iff.mp splitSecond
  have nameOne : one.2.1 = name := (each one (by simp)).same isFirst
  have nameTwo : two.2.1 = name := (each two (by simp)).same isSecond
  simp [nameOne, nameTwo, List.count_append]
  omega

theorem parse_refused {text : Bytes} {entries : List (Bytes × Bytes)}
    (written : WrittenObject text entries) (faulty : Faulty entries) :
    ∃ fault, layout.parse text = .error fault := by
  cases parsed : layout.parse text with
  | error fault => exact ⟨fault, rfl⟩
  | ok config =>
      exfalso
      obtain ⟨members, isObject, apart, _⟩ :=
        Json.Layout.parse_sound layout_follows written.opened parsed
      obtain ⟨reads, rfl, rfl, each⟩ := written.reads SettingText.passed isObject
      cases faulty with
      | again known split isFirst isSecond =>
          have twice := refused_again (fun read inside => (each read inside).1) split isFirst
            isSecond
          have once := once_iff.mpr apart _ known
          omega
      | number isNumber inside isName isNumeral unnatural =>
          obtain ⟨read, taken, rfl⟩ := List.mem_map.mp inside
          obtain ⟨isReadName, isSetting⟩ := each read taken
          rw [isReadName.same isName] at isSetting
          obtain ⟨number?, isOptional⟩ := isSetting.of_number isNumber
          exact isOptional.not_unnatural isNumeral unnatural

/-- What is printed of a config is read as this config. An object whose members are settings, each
at most once, or anything under other names, is read as the default with these settings in their
place. An object with a setting that is given again, or with a numeral for a number that is not a
natural number of 64 bits, is refused. -/
theorem parse_document :
    (∀ config : ConsumerConfig, layout.parse (Json.encode config.toJson) = .ok config) ∧
      (∀ text members, ObjectText SettingText text members → Once members →
        layout.parse text = .ok (default.revised members)) ∧
      ∀ text entries, WrittenObject text entries → Faulty entries →
        ∃ fault, layout.parse text = .error fault := by
  refine ⟨?_, ?_, ?_⟩
  · intro config
    rw [parse_revised (settings_printed config) (once_settings config), revised_settings]
  · intro text members isObject once
    exact parse_revised isObject once
  · intro text entries written faulty
    exact parse_refused written faulty

theorem parse_document_mixed :
    layout.parse (Bytes.ofText
        "\x7b\"zone\":[[]],\"payload_pool_capacity\":7,\"max_concurrency\":null\x7d") =
      .ok ⟨"consumer.", none, none, 0, 7⟩ ∧
    (∃ fault, layout.parse (Bytes.ofText
        "\x7b\"max_concurrency\":1,\"max\\u005fconcurrency\":2\x7d") = .error fault) ∧
    ∃ fault, layout.parse (Bytes.ofText "\x7b\"reconnect_backoff_ms\":-1\x7d") = .error fault := by
  obtain ⟨_, accepted, refused⟩ := parse_document
  have nil : Json.Blank [] := Json.blank_nil
  have comma : Json.Lead false [byte ','] := Json.lead_comma
  have written {name token : Bytes} (isName : Json.PassedText name) (isValue : PassedValue token) :
      Json.WrittenMember (name ++ byte ':' :: token) (name, token) :=
    .mk ⟨isName, rfl⟩ (.mk nil nil ⟨isValue, rfl⟩)
  refine ⟨?_, ?_, ?_⟩
  · have inner : Json.passed.Container (Json.passed.Value 0) [byte '[', byte ']'] () :=
      .list (.nil nil)
    have outer := @Json.Dialect.Container.list _ _ Json.passed (Json.passed.Value 1) _ [()]
      (.cons (.first nil) (Or.inr inner) (.nil nil))
    have member (name : String) {token : Bytes} (setting : Setting)
        (isSetting : SettingText name token setting) :
        Json.MemberText KeptText SettingText (Json.encodeText name ++ byte ':' :: token)
          (name, setting) := .mk (Json.encodeText_kept name) (.mk nil nil isSetting)
    have zone := member "zone" .other ⟨by decide, 2, Or.inr outer⟩
    have capacity :=
      member "payload_pool_capacity" (.payloadPoolCapacity 7) ⟨rfl, natural_printed 7⟩
    have limit := member "max_concurrency" (.maxConcurrency none) ⟨rfl, .none⟩
    have isObject := ObjectText.mk nil
      (.cons (.first nil) zone (.cons comma capacity (.cons comma limit (.nil nil)))) nil
    have read := accepted _ _ isObject (by decide)
    exact (congrArg layout.parse (by decide +kernel)).trans read
  · have spelled : KeptText (byte '"' :: Bytes.ofText "max\\u005fconcurrency\"")
        "max_concurrency" := by
      obtain ⟨content, spelled, whole⟩ := Json.readText_iff.mp
        (by decide +kernel : Json.readText (Bytes.ofText "max\\u005fconcurrency\"") =
          .ok ("max_concurrency", []))
      exact ⟨content, spelled, congrArg (byte '"' :: ·) whole⟩
    have plain := Json.encodeText_kept "max_concurrency"
    have isObject := WrittenObject.mk nil
      (.cons (.first nil) (written plain.passed (natural_printed 1).passed.value)
        (.cons comma (written spelled.passed (natural_printed 2).passed.value) (.nil nil))) nil
    obtain ⟨fault, read⟩ := refused _ _ isObject
      (@Faulty.again _ [] [] [] (_, _) (_, _) "max_concurrency" (by decide) rfl plain spelled)
    exact ⟨fault, (congrArg layout.parse (by decide +kernel)).trans read⟩
  · have plain := Json.encodeText_kept "reconnect_backoff_ms"
    have negative := @Json.NumeralText.mk true _ _ _ _ _ _ (Json.digits_whole 1) .none .none
    have isObject := WrittenObject.mk nil
      (.cons (.first nil) (written plain.passed (Json.PassedScalar.number negative).value)
        (.nil nil)) nil
    obtain ⟨fault, read⟩ := refused _ _ isObject
      (.number (by decide : "reconnect_backoff_ms" ∈ numberNames) List.mem_cons_self plain negative
        (.inl rfl))
    exact ⟨fault, (congrArg layout.parse (by decide +kernel)).trans read⟩

end TaskQueue.ConsumerConfig
