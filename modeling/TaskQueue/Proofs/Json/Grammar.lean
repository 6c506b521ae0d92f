import TaskQueue.Json.Decoded
import TaskQueue.Json.Printer
import TaskQueue.Json.Skipped

/-! The grammar of JSON texts, without regard to how they are read. There are two dialects: values
that are kept have numbers in range, sound texts and a limited depth; values that are passed over
only need to be well formed. -/

namespace TaskQueue.Json

def Blank (bytes : Bytes) : Prop := ∀ next ∈ bytes, isSpace next = true

/-- What may follow a value or a name: the end, white space, or a separator. -/
def Ends (rest : Bytes) : Prop :=
  ∀ next ∈ rest.head?, isSpace next = true ∨ next = byte ',' ∨ next = byte ':' ∨
    next = byte ']' ∨ next = byte '\x7d'

inductive IsQuad : Bytes → Nat → Prop
  | mk {first second third fourth : UInt8} {a b c d : Nat} : Text.hexValue? first = some a →
      Text.hexValue? second = some b → Text.hexValue? third = some c →
      Text.hexValue? fourth = some d →
      IsQuad [first, second, third, fourth] (((a * 16 + b) * 16 + c) * 16 + d)

inductive KeptEscape : Bytes → Bytes → Prop
  | short {letter meant : UInt8} : shortEscape? letter = some meant → KeptEscape [letter] [meant]
  | scalar {digits : Bytes} {code : Nat} : IsQuad digits code →
      isLeadingSurrogate code = false → isTrailingSurrogate code = false →
      KeptEscape (byte 'u' :: digits) (scalarBytes code)
  | pair {leadingDigits trailingDigits : Bytes} {leading trailing : Nat} :
      IsQuad leadingDigits leading → isLeadingSurrogate leading = true →
      IsQuad trailingDigits trailing → isTrailingSurrogate trailing = true →
      KeptEscape (byte 'u' :: (leadingDigits ++ byte '\\' :: byte 'u' :: trailingDigits))
        (scalarBytes (0x10000 + (leading - 0xD800) * 0x400 + (trailing - 0xDC00)))

/-- An escape that is passed over may be half of a pair. -/
inductive PassedEscape : Bytes → Bytes → Prop
  | short {letter meant : UInt8} : shortEscape? letter = some meant → PassedEscape [letter] []
  | quad {digits : Bytes} {code : Nat} : IsQuad digits code →
      PassedEscape (byte 'u' :: digits) []

inductive Spelled (escape : Bytes → Bytes → Prop) : Bytes → Bytes → Prop
  | nil : Spelled escape [] []
  | plain {next : UInt8} {rest meant : Bytes} : next ≠ byte '"' → next ≠ byte '\\' →
      ¬next < 0x20 → Spelled escape rest meant → Spelled escape (next :: rest) (next :: meant)
  | escape {letters one rest meant : Bytes} : escape letters one → Spelled escape rest meant →
      Spelled escape (byte '\\' :: (letters ++ rest)) (one ++ meant)

def KeptText (token : Bytes) (value : String) : Prop :=
  ∃ content, Spelled KeptEscape content (Bytes.ofText value) ∧
    token = byte '"' :: (content ++ [byte '"'])

def PassedText (token : Bytes) : Prop :=
  ∃ content meant, Spelled PassedEscape content meant ∧ token = byte '"' :: (content ++ [byte '"'])

def Digits (token : Bytes) (digits : List Nat) : Prop :=
  token ≠ [] ∧ (∀ next ∈ token, isDigit next = true) ∧ digits = token.map digitValue

def WholeText (token : Bytes) (digits : List Nat) : Prop :=
  Digits token digits ∧ (token.head? = some (byte '0') → token = [byte '0'])

inductive FractionText : Bytes → List Nat → Prop
  | none : FractionText [] []
  | some {token : Bytes} {digits : List Nat} : Digits token digits →
      FractionText (byte '.' :: token) digits

inductive SignText : Bytes → Bool → Prop
  | none : SignText [] false
  | plus : SignText [byte '+'] false
  | minus : SignText [byte '-'] true

inductive ExponentText : Bytes → Option (Bool × List Nat) → Prop
  | none : ExponentText [] none
  | some {mark : UInt8} {sign token : Bytes} {downward : Bool} {digits : List Nat} :
      mark = byte 'e' ∨ mark = byte 'E' → SignText sign downward → Digits token digits →
      ExponentText (mark :: (sign ++ token)) (some (downward, digits))

inductive NumeralText : Bytes → Numeral → Prop
  | mk {negative : Bool} {whole fraction exponent : Bytes} {wholeDigits fractionDigits : List Nat}
      {power : Option (Bool × List Nat)} : WholeText whole wholeDigits →
      FractionText fraction fractionDigits → ExponentText exponent power →
      NumeralText ((if negative then [byte '-'] else []) ++ (whole ++ (fraction ++ exponent)))
        ⟨negative, wholeDigits, fractionDigits, power⟩

section Sequence

variable {α : Type}

/-- What leads to an item: white space, with a comma in it unless the item is the first. -/
inductive Lead : (first : Bool) → Bytes → Prop
  | first {space : Bytes} : Blank space → Lead true space
  | later {before after : Bytes} : Blank before → Blank after →
      Lead false (before ++ byte ',' :: after)

/-- What stands before a closing bracket, from the opening bracket or from an item on. -/
inductive Sequence (item : Bytes → α → Prop) : (first : Bool) → Bytes → List α → Prop
  | nil {first : Bool} {space : Bytes} : Blank space → Sequence item first space []
  | cons {first : Bool} {lead token rest : Bytes} {value : α} {values : List α} :
      Lead first lead → item token value → Sequence item false rest values →
      Sequence item first (lead ++ (token ++ rest)) (value :: values)

def Enclosed (item : Bytes → α → Prop) (inner : Bytes) (values : List α) : Prop :=
  Sequence item true inner values

inductive ColonText (value : Bytes → α → Prop) : Bytes → α → Prop
  | mk {before after token : Bytes} {item : α} : Blank before → Blank after → value token item →
      ColonText value (before ++ byte ':' :: (after ++ token)) item

inductive MemberText {κ : Type} (name : Bytes → κ → Prop) (value : κ → Bytes → α → Prop) :
    Bytes → κ × α → Prop
  | mk {nameToken others : Bytes} {key : κ} {item : α} : name nameToken key →
      ColonText (value key) others item → MemberText name value (nameToken ++ others) (key, item)

end Sequence

/-- What a dialect takes for a scalar and for a name, and what it makes of lists and objects. -/
structure Dialect (κ α : Type) where
  scalar : Bytes → α → Prop
  name : Bytes → κ → Prop
  list : List α → α
  object : List (κ × α) → α

inductive Dialect.Container {κ α : Type} (dialect : Dialect κ α) (held : Bytes → α → Prop) :
    Bytes → α → Prop
  | list {inner : Bytes} {items : List α} : Enclosed held inner items →
      Container dialect held (byte '[' :: (inner ++ [byte ']'])) (dialect.list items)
  | object {inner : Bytes} {members : List (κ × α)} :
      Enclosed (MemberText dialect.name fun _ => held) inner members →
      Container dialect held (byte '\x7b' :: (inner ++ [byte '\x7d'])) (dialect.object members)

def Dialect.Value {κ α : Type} (dialect : Dialect κ α) : (levels : Nat) → Bytes → α → Prop
  | 0, token, value => dialect.scalar token value
  | levels + 1, token, value =>
      dialect.scalar token value ∨ dialect.Container (dialect.Value levels) token value

inductive KeptScalar : Bytes → Json → Prop
  | null : KeptScalar (encodeWord ['n', 'u', 'l', 'l']) .null
  | true : KeptScalar (encodeWord ['t', 'r', 'u', 'e']) (.bool true)
  | false : KeptScalar (encodeWord ['f', 'a', 'l', 's', 'e']) (.bool false)
  | text {token : Bytes} {value : String} : KeptText token value → KeptScalar token (.text value)
  | number {token : Bytes} {parts : Numeral} {value : Number} : NumeralText token parts →
      parts.value = .ok value → KeptScalar token (.number value)

inductive PassedScalar : Bytes → Prop
  | null : PassedScalar (encodeWord ['n', 'u', 'l', 'l'])
  | true : PassedScalar (encodeWord ['t', 'r', 'u', 'e'])
  | false : PassedScalar (encodeWord ['f', 'a', 'l', 's', 'e'])
  | text {token : Bytes} : PassedText token → PassedScalar token
  | number {token : Bytes} {parts : Numeral} : NumeralText token parts → PassedScalar token

def kept : Dialect String Json := ⟨KeptScalar, KeptText, .list, ofMembers⟩

def passed : Dialect Unit Unit :=
  ⟨fun token _ => PassedScalar token, fun token _ => PassedText token, fun _ => (), fun _ => ()⟩

def PassedValue (token : Bytes) : Prop := ∃ levels, passed.Value levels token ()

theorem Sequence.imp {α : Type} {item other : Bytes → α → Prop}
    (weaker : ∀ {token value}, item token value → other token value) {first : Bool}
    {inner : Bytes} {values : List α} (sequence : Sequence item first inner values) :
    Sequence other first inner values := by
  induction sequence with
  | nil blank => exact .nil blank
  | cons lead isItem _ ih => exact .cons lead (weaker isItem) ih

theorem Sequence.forall_values {α : Type} {item : Bytes → α → Prop} {holds : α → Prop}
    {first : Bool} {inner : Bytes} {values : List α} (sequence : Sequence item first inner values)
    (each : ∀ token value, item token value → holds value) : ∀ value ∈ values, holds value := by
  induction sequence with
  | nil blank => simp
  | cons lead isItem others ih => exact List.forall_mem_cons.mpr ⟨each _ _ isItem, ih⟩

theorem ColonText.imp {α β : Type} {held : Bytes → α → Prop} {other : Bytes → β → Prop}
    {value : α} {meant : β} (weaker : ∀ {token}, held token value → other token meant)
    {token : Bytes} (text : ColonText held token value) : ColonText other token meant := by
  obtain ⟨before, after, isValue⟩ := text
  exact .mk before after (weaker isValue)

theorem MemberText.imp {κ α : Type} {name : Bytes → κ → Prop} {held other : Bytes → α → Prop}
    (weaker : ∀ {token value}, held token value → other token value) {token : Bytes}
    {entry : κ × α} (member : MemberText name (fun _ => held) token entry) :
    MemberText name (fun _ => other) token entry := by
  obtain ⟨isName, text⟩ := member
  exact .mk isName (text.imp weaker)

theorem Dialect.Container.imp {κ α : Type} {dialect : Dialect κ α} {held other : Bytes → α → Prop}
    (weaker : ∀ {token value}, held token value → other token value) {token : Bytes} {value : α}
    (container : dialect.Container held token value) : dialect.Container other token value := by
  cases container with
  | list sequence => exact .list (sequence.imp weaker)
  | object sequence => exact .object (sequence.imp fun member => member.imp weaker)

theorem Dialect.Value.succ {κ α : Type} {dialect : Dialect κ α} {levels : Nat} {token : Bytes}
    {value : α} (isValue : dialect.Value levels token value) :
    dialect.Value (levels + 1) token value := by
  induction levels generalizing token value with
  | zero => exact Or.inl isValue
  | succ levels ih =>
      rcases isValue with scalar | container
      · exact Or.inl scalar
      · exact Or.inr (container.imp ih)

theorem Dialect.Value.mono {κ α : Type} {dialect : Dialect κ α} {levels more : Nat}
    (fewer : levels ≤ more) {token : Bytes} {value : α}
    (isValue : dialect.Value levels token value) : dialect.Value more token value := by
  induction fewer with
  | refl => exact isValue
  | step _ ih => exact ih.succ

end TaskQueue.Json
