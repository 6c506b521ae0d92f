import Mathlib.Data.List.TakeWhile
import TaskQueue.Config

/-!
What the environment says about a consumer. A variable gives a number if it is a numeral with white
space around it. Each setting follows its own variable, the first variable that gives no number is
what the error names, and variables that announce the settings of a consumer lead to these settings.
-/

namespace TaskQueue

namespace Text

def AllBlank (characters : List Char) : Prop := ∀ character ∈ characters, isBlank character = true

theorem dropWhile_blank {before : List Char} (blank : AllBlank before) (rest : List Char) :
    (before ++ rest).dropWhile isBlank = rest.dropWhile isBlank :=
  List.dropWhile_append_of_pos blank

theorem dropWhile_visible {visible after : List Char}
    (sound : ∀ character ∈ visible, isBlank character = false) (blank : AllBlank after) :
    (visible ++ after).dropWhile isBlank = if visible = [] then [] else visible ++ after := by
  cases visible with
  | nil =>
      rw [List.nil_append, if_pos rfl]
      exact List.dropWhile_eq_nil_iff.mpr blank
  | cons first rest =>
      have firstSound := sound first List.mem_cons_self
      simp [firstSound]

theorem trim_around {before visible after : List Char} (blankBefore : AllBlank before)
    (sound : ∀ character ∈ visible, isBlank character = false) (blankAfter : AllBlank after) :
    trim (before ++ (visible ++ after)) = visible := by
  unfold trim
  rw [dropWhile_blank blankBefore, dropWhile_visible sound blankAfter]
  split
  · rename_i empty
    simp [empty]
  · rename_i present
    have soundBack : ∀ character ∈ visible.reverse, isBlank character = false := by
      intro character inside
      exact sound character (List.mem_reverse.mp inside)
    have blankBack : AllBlank after.reverse := by
      intro character inside
      exact blankAfter character (List.mem_reverse.mp inside)
    have nothing : AllBlank [] := nofun
    have kept := dropWhile_visible soundBack nothing
    rw [List.append_nil, if_neg (by simpa using present)] at kept
    rw [List.reverse_append, dropWhile_blank blankBack, kept, List.reverse_reverse]

theorem exists_around (characters : List Char) :
    ∃ before after, AllBlank before ∧ AllBlank after ∧
      characters = before ++ (trim characters ++ after) := by
  have blankTaken (some : List Char) : AllBlank (some.takeWhile isBlank) := by
    intro character inside
    exact List.mem_takeWhile_imp inside
  let rest := characters.dropWhile isBlank
  have front : characters = characters.takeWhile isBlank ++ rest :=
    List.takeWhile_append_dropWhile.symm
  have back : rest = trim characters ++ (rest.reverse.takeWhile isBlank).reverse := by
    have split : rest.reverse.takeWhile isBlank ++ rest.reverse.dropWhile isBlank =
        rest.reverse := List.takeWhile_append_dropWhile
    have turned := congrArg List.reverse split
    rw [List.reverse_append, List.reverse_reverse] at turned
    exact turned.symm
  refine ⟨characters.takeWhile isBlank, (rest.reverse.takeWhile isBlank).reverse,
    blankTaken characters, ?_, ?_⟩
  · intro character inside
    exact blankTaken rest.reverse character (List.mem_reverse.mp inside)
  · rw [← back]
    exact front

end Text

namespace Decimal

structure Spells (characters : List Char) (number : Nat) : Prop where
  present : characters ≠ []
  digits : ∀ character ∈ characters, character.isDigit = true
  value : value (characters.map fun character => character.toNat - 48) = number

theorem mapM_digit? {characters : List Char}
    (all : ∀ character ∈ characters, character.isDigit = true) :
    characters.mapM digit? = some (characters.map fun character => character.toNat - 48) := by
  induction characters with
  | nil => rfl
  | cons character rest ih =>
      have first := all character List.mem_cons_self
      have others := ih fun other inside => all other (List.mem_cons_of_mem character inside)
      simp [digit?, first, others]

theorem isDigit_of_mapM {characters : List Char} {digits : List Nat}
    (read : characters.mapM digit? = some digits) :
    ∀ character ∈ characters, character.isDigit = true := by
  induction characters generalizing digits with
  | nil => simp
  | cons character rest ih =>
      simp only [List.mapM_cons, Option.bind_eq_bind, Option.bind_eq_some_iff] at read
      obtain ⟨digit, first, others, readOthers, _⟩ := read
      unfold digit? at first
      split at first
      · rename_i isDigit
        exact List.forall_mem_cons.mpr ⟨isDigit, ih readOthers⟩
      · cases first

theorem wordOfDigits?_iff {characters : List Char} {number : UInt64} :
    wordOfDigits? characters = some number ↔ Spells characters number.toNat := by
  constructor
  · intro read
    unfold wordOfDigits? at read
    split at read
    · cases read
    · cases read
    · rename_i digits notEmpty taken
      have all := isDigit_of_mapM taken
      obtain rfl := Option.some.inj ((mapM_digit? all).symm.trans taken)
      split at read
      · rename_i fits
        obtain rfl := Option.some.inj read
        refine ⟨?_, all, ?_⟩
        · rintro rfl
          exact notEmpty rfl
        · exact (UInt64.toNat_ofNat_of_lt fits).symm
      · cases read
  · rintro ⟨present, all, spelled⟩
    have fits : value (characters.map fun character => character.toNat - 48) < UInt64.size := by
      rw [spelled]
      exact number.toNat_lt
    cases characters with
    | nil => exact absurd rfl present
    | cons first rest =>
        unfold wordOfDigits?
        rw [mapM_digit? all]
        simp only [List.map_cons] at fits spelled ⊢
        rw [if_pos fits, spelled]
        simp [Nat.toUInt64]

def Sign (characters : List Char) : Prop := characters = [] ∨ characters = ['+']

theorem word?_iff {characters : List Char} {number : UInt64} :
    word? characters = some number ↔
      ∃ sign digits, Sign sign ∧ Spells digits number.toNat ∧ characters = sign ++ digits := by
  constructor
  · intro read
    unfold word? at read
    split at read
    · exact ⟨['+'], _, .inr rfl, wordOfDigits?_iff.mp read, rfl⟩
    · exact ⟨[], _, .inl rfl, wordOfDigits?_iff.mp read, rfl⟩
  · rintro ⟨sign, digits, rfl | rfl, spells, rfl⟩
    · have read := wordOfDigits?_iff.mpr spells
      unfold word?
      split
      · have plus := spells.digits '+' List.mem_cons_self
        cases plus
      · exact read
    · exact wordOfDigits?_iff.mpr spells

end Decimal

namespace ConsumerConfig

inductive NumberText : String → UInt64 → Prop
  | mk {before sign digits after : List Char} {number : UInt64} : Text.AllBlank before →
      Decimal.Sign sign → Decimal.Spells digits number.toNat → Text.AllBlank after →
      NumberText (String.ofList (before ++ (sign ++ digits ++ after))) number

theorem not_blank_of_isDigit {character : Char} (digit : character.isDigit = true) :
    Text.isBlank character = false := by
  have range : 48 ≤ character.toNat ∧ character.toNat ≤ 57 := Char.isDigit_iff_toNat.mp digit
  simp only [Text.isBlank, Bool.or_eq_false_iff, Bool.and_eq_false_iff, decide_eq_false_iff_not,
    beq_eq_false_iff_ne]
  omega

theorem numberText_iff {text : String} {number : UInt64} :
    NumberText text number ↔ Decimal.word? (Text.trim text.toList) = some number := by
  constructor
  · rintro ⟨blankBefore, isSign, spells, blankAfter⟩
    rename_i before sign digits after
    have sound : ∀ character ∈ sign ++ digits, Text.isBlank character = false := by
      intro character inside
      rcases List.mem_append.mp inside with inSign | inDigits
      · rcases isSign with rfl | rfl
        · cases inSign
        · obtain rfl := List.mem_singleton.mp inSign
          decide
      · exact not_blank_of_isDigit (spells.digits character inDigits)
    rw [String.toList_ofList, Text.trim_around blankBefore sound blankAfter]
    exact Decimal.word?_iff.mpr ⟨sign, digits, isSign, spells, rfl⟩
  · intro read
    obtain ⟨sign, digits, isSign, spells, same⟩ := Decimal.word?_iff.mp read
    obtain ⟨before, after, blankBefore, blankAfter, whole⟩ := Text.exists_around text.toList
    rw [same] at whole
    have isText := NumberText.mk blankBefore isSign spells blankAfter
    rwa [← whole, String.ofList_toList] at isText

inductive Gives : Option String → Option UInt64 → Prop
  | absent : Gives none none
  | present {text : String} {number : UInt64} :
      NumberText text number → Gives (some text) (some number)

def Readable (lookup : String → Option String) (key : String) : Prop :=
  ∀ text, lookup key = some text → ∃ number, NumberText text number

section Lookup

variable {lookup : String → Option String} {key : String}

theorem readVariable_ok_iff {number? : Option UInt64} :
    readVariable lookup key = .ok number? ↔ Gives (lookup key) number? := by
  unfold readVariable
  cases lookup key with
  | none =>
      constructor
      · intro read
        obtain rfl := Except.ok.inj read
        exact .absent
      · rintro ⟨⟩
        rfl
  | some text =>
      dsimp only
      cases read : Decimal.word? (Text.trim text.toList) with
      | none =>
          constructor
          · nofun
          · rintro (_ | isText)
            rw [numberText_iff.mp isText] at read
            cases read
      | some number =>
          constructor
          · intro same
            obtain rfl := Except.ok.inj same
            exact .present (numberText_iff.mpr read)
          · rintro (_ | isText)
            rw [numberText_iff.mp isText] at read
            obtain rfl := Option.some.inj read
            rfl

theorem readable_iff :
    Readable lookup key ↔ ∃ number?, readVariable lookup key = .ok number? := by
  constructor
  · intro readable
    cases found : lookup key with
    | none => exact ⟨none, readVariable_ok_iff.mpr (found ▸ .absent)⟩
    | some text =>
        obtain ⟨number, isText⟩ := readable text found
        exact ⟨some number, readVariable_ok_iff.mpr (found ▸ .present isText)⟩
  · rintro ⟨number?, read⟩ text found
    have gives := readVariable_ok_iff.mp read
    rw [found] at gives
    cases gives with
    | present isText => exact ⟨_, isText⟩

theorem readVariable_unreadable {text : String} (found : lookup key = some text)
    (unreadable : ∀ number, ¬NumberText text number) :
    readVariable lookup key = .error (.invalidVariable key text) := by
  cases read : Decimal.word? (Text.trim text.toList) with
  | none => simp [readVariable, found, read]
  | some number => exact absurd (numberText_iff.mpr read) (unreadable number)

def Variable.numeric : List String :=
  [Variable.maxConcurrency, Variable.messageTimeout, Variable.reconnectBackoff,
    Variable.payloadPoolCapacity]

/-- The settings that variables lead to: each follows its own, and keeps its default without. -/
inductive Settles (lookup : String → Option String) : ConsumerConfig → Prop
  | mk {concurrency timeout backoff capacity : Option UInt64} :
      Gives (lookup Variable.maxConcurrency) concurrency →
      Gives (lookup Variable.messageTimeout) timeout →
      Gives (lookup Variable.reconnectBackoff) backoff →
      Gives (lookup Variable.payloadPoolCapacity) capacity →
      Settles lookup {
        tagPrefix := (lookup Variable.tagPrefix).getD default.tagPrefix
        maxConcurrency := concurrency.or default.maxConcurrency
        messageTimeoutMs := timeout.or default.messageTimeoutMs
        reconnectBackoffMs := backoff.getD default.reconnectBackoffMs
        payloadPoolCapacity := capacity.getD default.payloadPoolCapacity }

/-- The error names the first variable that is set but no numeral, and its whole text. -/
inductive Offends (lookup : String → Option String) : BuildError → Prop
  | mk {before after : List String} {key text : String} :
      Variable.numeric = before ++ key :: after →
      (∀ earlier ∈ before, Readable lookup earlier) → lookup key = some text →
      (∀ number, ¬NumberText text number) → Offends lookup (.invalidVariable key text)

theorem Settles.ofVariables {config : ConsumerConfig} (settles : Settles lookup config) :
    ofVariables lookup = .ok config := by
  obtain ⟨concurrency, timeout, backoff, capacity⟩ := settles
  have readConcurrency := readVariable_ok_iff.mpr concurrency
  have readTimeout := readVariable_ok_iff.mpr timeout
  have readBackoff := readVariable_ok_iff.mpr backoff
  have readCapacity := readVariable_ok_iff.mpr capacity
  simp only [ConsumerConfig.ofVariables, readConcurrency, readTimeout, readBackoff, readCapacity,
    bind, Except.bind, pure, Except.pure, default, Option.or_none]

theorem ofVariables_error {error : BuildError}
    (failed : Variable.numeric.mapM (readVariable lookup) = .error error) :
    ofVariables lookup = .error error := by
  simp only [Variable.numeric, List.mapM_cons, List.mapM_nil, bind, Except.bind] at failed
  simp only [ConsumerConfig.ofVariables, bind, Except.bind]
  cases concurrency : readVariable lookup Variable.maxConcurrency with
  | error first => simpa only [concurrency, Except.error.injEq] using failed
  | ok number? =>
      cases timeout : readVariable lookup Variable.messageTimeout with
      | error second => simpa only [concurrency, timeout, Except.error.injEq] using failed
      | ok number? =>
          cases backoff : readVariable lookup Variable.reconnectBackoff with
          | error third =>
              simpa only [concurrency, timeout, backoff, Except.error.injEq] using failed
          | ok number? =>
              cases capacity : readVariable lookup Variable.payloadPoolCapacity with
              | error fourth =>
                  simpa only [concurrency, timeout, backoff, capacity,
                    Except.error.injEq] using failed
              | ok number? =>
                  simp [concurrency, timeout, backoff, capacity, pure, Except.pure] at failed

theorem mapM_stops {before after : List String} {error : BuildError}
    (readable : ∀ earlier ∈ before, Readable lookup earlier)
    (failed : readVariable lookup key = .error error) :
    (before ++ key :: after).mapM (readVariable lookup) = .error error := by
  induction before with
  | nil => simp [failed, bind, Except.bind]
  | cons earlier rest ih =>
      obtain ⟨number?, read⟩ := readable_iff.mp (readable earlier List.mem_cons_self)
      have stops := ih fun other inside => readable other (List.mem_cons_of_mem earlier inside)
      simp [read, stops, bind, Except.bind]

theorem Offends.ofVariables {error : BuildError} (offends : Offends lookup error) :
    ofVariables lookup = .error error := by
  obtain ⟨split, readable, found, unreadable⟩ := offends
  apply ofVariables_error
  rw [split]
  exact mapM_stops readable (readVariable_unreadable found unreadable)

theorem exists_first_unreadable (lookup : String → Option String) (keys : List String) :
    (∀ key ∈ keys, Readable lookup key) ∨
      ∃ before key after, keys = before ++ key :: after ∧
        (∀ earlier ∈ before, Readable lookup earlier) ∧ ¬Readable lookup key := by
  induction keys with
  | nil => exact .inl nofun
  | cons first rest ih =>
      by_cases readable : Readable lookup first
      · rcases ih with all | ⟨before, key, after, split, passed, unreadable⟩
        · exact .inl (List.forall_mem_cons.mpr ⟨readable, all⟩)
        · refine .inr ⟨first :: before, key, after, ?_, ?_, unreadable⟩
          · rw [split, List.cons_append]
          · exact List.forall_mem_cons.mpr ⟨readable, passed⟩
      · exact .inr ⟨[], first, rest, rfl, nofun, readable⟩

theorem exists_settles (all : ∀ key ∈ Variable.numeric, Readable lookup key) :
    ∃ config, Settles lookup config := by
  have gives (key : String) (inside : key ∈ Variable.numeric) :
      ∃ number?, Gives (lookup key) number? := by
    obtain ⟨number?, read⟩ := readable_iff.mp (all key inside)
    exact ⟨number?, readVariable_ok_iff.mp read⟩
  obtain ⟨concurrency, givesConcurrency⟩ := gives Variable.maxConcurrency (by decide)
  obtain ⟨timeout, givesTimeout⟩ := gives Variable.messageTimeout (by decide)
  obtain ⟨backoff, givesBackoff⟩ := gives Variable.reconnectBackoff (by decide)
  obtain ⟨capacity, givesCapacity⟩ := gives Variable.payloadPoolCapacity (by decide)
  exact ⟨_, .mk givesConcurrency givesTimeout givesBackoff givesCapacity⟩

theorem settles_or_offends (lookup : String → Option String) :
    (∃ config, Settles lookup config) ∨ ∃ error, Offends lookup error := by
  rcases exists_first_unreadable lookup Variable.numeric with all | first
  · exact .inl (exists_settles all)
  · obtain ⟨before, key, after, split, passed, unreadable⟩ := first
    obtain ⟨text, notNumeral⟩ := not_forall.mp unreadable
    obtain ⟨found, notNumeral⟩ := Classical.not_imp.mp notNumeral
    exact .inr ⟨_, .mk split passed found (not_exists.mp notNumeral)⟩

theorem ofVariables_ok_iff {config : ConsumerConfig} :
    ofVariables lookup = .ok config ↔ Settles lookup config := by
  refine ⟨fun made => ?_, Settles.ofVariables⟩
  rcases settles_or_offends lookup with ⟨other, settles⟩ | ⟨error, offends⟩
  · rw [settles.ofVariables] at made
    obtain rfl := Except.ok.inj made
    exact settles
  · rw [offends.ofVariables] at made
    cases made

theorem ofVariables_error_iff {error : BuildError} :
    ofVariables lookup = .error error ↔ Offends lookup error := by
  refine ⟨fun failed => ?_, Offends.ofVariables⟩
  rcases settles_or_offends lookup with ⟨config, settles⟩ | ⟨other, offends⟩
  · rw [settles.ofVariables] at failed
    cases failed
  · rw [offends.ofVariables] at failed
    obtain rfl := Except.error.inj failed
    exact offends

end Lookup

def decimalText (number : UInt64) : String := (Number.natural number).text

theorem isDigit_digitCharacter :
    ∀ digit < 10, (digitCharacter digit).isDigit = true ∧
      (digitCharacter digit).toNat - 48 = digit := by
  decide

theorem spells_decimalCharacters (number : Nat) :
    Decimal.Spells (decimalCharacters number) number := by
  have small := Decimal.digits_lt number
  unfold decimalCharacters
  refine ⟨?_, ?_, ?_⟩
  · simpa using Decimal.digits_ne_nil number
  · intro character inside
    obtain ⟨digit, isDigit, rfl⟩ := List.mem_map.mp inside
    exact (isDigit_digitCharacter digit (small digit isDigit)).1
  · have same : (Decimal.digits number).map
        ((fun character : Char => character.toNat - 48) ∘ digitCharacter) =
        (Decimal.digits number).map id :=
      List.map_congr_left fun digit isDigit =>
        (isDigit_digitCharacter digit (small digit isDigit)).2
    rw [List.map_map, same, List.map_id]
    exact Decimal.value_digits number

theorem decimalText_numeral (number : UInt64) : NumberText (decimalText number) number := by
  have nothing : Text.AllBlank [] := nofun
  have isText := NumberText.mk nothing (.inl rfl) (spells_decimalCharacters number.toNat) nothing
  simpa [decimalText, Number.text, Number.characters] using isText

theorem gives_decimalText (number? : Option UInt64) :
    Gives (number?.map decimalText) number? := by
  cases number? with
  | none => exact .absent
  | some number => exact .present (decimalText_numeral number)

structure Announces (lookup : String → Option String) (config : ConsumerConfig) : Prop where
  tagPrefix : lookup Variable.tagPrefix = some config.tagPrefix
  maxConcurrency : lookup Variable.maxConcurrency = config.maxConcurrency.map decimalText
  messageTimeout : lookup Variable.messageTimeout = config.messageTimeoutMs.map decimalText
  reconnectBackoff :
    lookup Variable.reconnectBackoff = some (decimalText config.reconnectBackoffMs)
  payloadPoolCapacity :
    lookup Variable.payloadPoolCapacity = some (decimalText config.payloadPoolCapacity)

theorem Announces.settles {lookup : String → Option String} {config : ConsumerConfig}
    (announces : Announces lookup config) : Settles lookup config := by
  have concurrency := gives_decimalText config.maxConcurrency
  have timeout := gives_decimalText config.messageTimeoutMs
  have backoff := gives_decimalText (some config.reconnectBackoffMs)
  have capacity := gives_decimalText (some config.payloadPoolCapacity)
  rw [← announces.maxConcurrency] at concurrency
  rw [← announces.messageTimeout] at timeout
  rw [Option.map_some, ← announces.reconnectBackoff] at backoff
  rw [Option.map_some, ← announces.payloadPoolCapacity] at capacity
  have settles := Settles.mk concurrency timeout backoff capacity
  rw [announces.tagPrefix] at settles
  simpa only [default, Option.or_none, Option.getD_some] using settles

/-- Settings are read from variables exactly if each variable that is to give a number is a numeral
or not set; then each setting is what its own variable says, or the default. Otherwise the error
names the first variable at fault and its whole text. Settings that variables announce are read as
they are. -/
theorem ofVariables_reads (lookup : String → Option String) :
    ((∃ config, ofVariables lookup = .ok config) ↔
      ∀ key ∈ Variable.numeric, Readable lookup key) ∧
    (∀ config, ofVariables lookup = .ok config ↔ Settles lookup config) ∧
    (∀ error, ofVariables lookup = .error error ↔ Offends lookup error) ∧
    ∀ config, Announces lookup config → ofVariables lookup = .ok config := by
  refine ⟨⟨?_, ?_⟩, fun config => ofVariables_ok_iff, fun error => ofVariables_error_iff,
    fun config announces => announces.settles.ofVariables⟩
  · rintro ⟨config, made⟩ key inside
    obtain ⟨concurrency, timeout, backoff, capacity⟩ := ofVariables_ok_iff.mp made
    simp only [Variable.numeric, List.mem_cons, List.not_mem_nil, or_false] at inside
    rcases inside with rfl | rfl | rfl | rfl
    · exact readable_iff.mpr ⟨_, readVariable_ok_iff.mpr concurrency⟩
    · exact readable_iff.mpr ⟨_, readVariable_ok_iff.mpr timeout⟩
    · exact readable_iff.mpr ⟨_, readVariable_ok_iff.mpr backoff⟩
    · exact readable_iff.mpr ⟨_, readVariable_ok_iff.mpr capacity⟩
  · intro all
    obtain ⟨config, settles⟩ := exists_settles all
    exact ⟨config, settles.ofVariables⟩

def announcement (config : ConsumerConfig) : String → Option String := fun key =>
  if key = Variable.tagPrefix then some config.tagPrefix
  else if key = Variable.maxConcurrency then config.maxConcurrency.map decimalText
  else if key = Variable.messageTimeout then config.messageTimeoutMs.map decimalText
  else if key = Variable.reconnectBackoff then some (decimalText config.reconnectBackoffMs)
  else if key = Variable.payloadPoolCapacity then some (decimalText config.payloadPoolCapacity)
  else none

theorem announces_announcement (config : ConsumerConfig) : Announces (announcement config) config :=
  ⟨rfl, rfl, rfl, rfl, rfl⟩

def extreme : ConsumerConfig := ⟨"", some 0xFFFFFFFFFFFFFFFF, none, 0, 0xFFFFFFFFFFFFFFFF⟩

theorem ofVariables_reads_extreme :
    Announces (announcement extreme) extreme ∧
      ofVariables (announcement extreme) = .ok extreme := by
  have announces := announces_announcement extreme
  exact ⟨announces, (ofVariables_reads (announcement extreme)).2.2.2 extreme announces⟩

end ConsumerConfig

end TaskQueue
