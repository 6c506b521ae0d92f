import TaskQueue.Proofs.Dictionary
import TaskQueue.Proofs.Json.Decoded
import TaskQueue.Proofs.Json.Value

/-! Printed values are kept values of their own depth, so they are read back as they were. -/

namespace TaskQueue.Json

theorem hexValue?_hexDigit :
    ∀ value < 16, Text.hexValue? (Text.hexDigit value) = some value := by decide

theorem scalarBytes_ascii : ∀ code < 0x80, scalarBytes code = [code.toUInt8] := by
  decide +kernel

theorem isQuad_control {next : UInt8} (control : next < 0x20) :
    IsQuad (byte '0' :: byte '0' :: Text.hexPair next) next.toNat := by
  have small : next.toNat < 32 := control
  have quad := IsQuad.mk (hexValue?_hexDigit 0 (by decide)) (hexValue?_hexDigit 0 (by decide))
    (hexValue?_hexDigit (next.toNat / 16) (by omega))
    (hexValue?_hexDigit (next.toNat % 16) (by omega))
  have whole : ((0 * 16 + 0) * 16 + next.toNat / 16) * 16 + next.toNat % 16 = next.toNat := by
    omega
  rw [whole] at quad
  exact quad

theorem keptEscape_control {next : UInt8} (control : next < 0x20) :
    KeptEscape (byte 'u' :: byte '0' :: byte '0' :: Text.hexPair next) [next] := by
  have small : next.toNat < 32 := control
  have escape := KeptEscape.scalar (isQuad_control control)
    (by simp only [isLeadingSurrogate, Bool.and_eq_false_iff, decide_eq_false_iff_not]; omega)
    (by simp only [isTrailingSurrogate, Bool.and_eq_false_iff, decide_eq_false_iff_not]; omega)
  rw [scalarBytes_ascii next.toNat (by omega)] at escape
  simpa using escape

theorem spelled_escaped (next : UInt8) {rest meant : Bytes}
    (spelled : Spelled KeptEscape rest meant) :
    Spelled KeptEscape (escaped next ++ rest) (next :: meant) := by
  have short {letter : UInt8} (known : shortEscape? letter = some next) :
      Spelled KeptEscape ([byte '\\', letter] ++ rest) (next :: meant) := by
    have escape := KeptEscape.short known
    exact Spelled.escape escape spelled
  unfold escaped
  split
  · rename_i isMark
    apply short
    rcases isMark with rfl | rfl <;> decide
  · rename_i notMark
    split
    · subst next
      exact short (by decide)
    · split
      · subst next
        exact short (by decide)
      · split
        · subst next
          exact short (by decide)
        · split
          · subst next
            exact short (by decide)
          · split
            · subst next
              exact short (by decide)
            · split
              · rename_i control
                exact Spelled.escape (keptEscape_control control) spelled
              · rename_i printable
                exact Spelled.plain (fun isEnd => notMark (Or.inl isEnd))
                  (fun isEscape => notMark (Or.inr isEscape)) printable spelled

theorem spelled_flatMap (bytes : Bytes) : Spelled KeptEscape (bytes.flatMap escaped) bytes := by
  induction bytes with
  | nil => exact .nil
  | cons next rest ih => exact spelled_escaped next ih

theorem encodeText_kept (value : String) : KeptText (encodeText value) value :=
  ⟨_, spelled_flatMap (Bytes.ofText value), rfl⟩

theorem isDigit_digitCharacter :
    ∀ digit < 10, isDigit (byte (digitCharacter digit)) = true := by decide

theorem digitValue_digitCharacter :
    ∀ digit < 10, digitValue (byte (digitCharacter digit)) = digit := by decide

theorem digits_of_head_zero {number : Nat} (head : (Decimal.digits number).head? = some 0) :
    Decimal.digits number = [0] := by
  fun_induction Decimal.digits number with
  | case1 number small => simpa using head
  | case2 number large ih =>
      have value := Decimal.value_digits (number / 10)
      rw [ih ?first] at value
      case first =>
        cases front : Decimal.digits (number / 10) with
        | nil => exact absurd front (Decimal.digits_ne_nil (number / 10))
        | cons first others => simpa [front] using head
      simp only [Decimal.value, List.foldl_cons, List.foldl_nil] at value
      omega

theorem digits_whole (number : Nat) :
    WholeText (encodeWord (decimalCharacters number)) (Decimal.digits number) := by
  have small := Decimal.digits_lt number
  have token : encodeWord (decimalCharacters number) =
      (Decimal.digits number).map fun digit => byte (digitCharacter digit) := by
    simp [encodeWord, decimalCharacters]
  rw [token]
  refine ⟨⟨?_, ?_, ?_⟩, ?_⟩
  · simpa using Decimal.digits_ne_nil number
  · intro next inside
    obtain ⟨digit, isDigit, rfl⟩ := List.mem_map.mp inside
    exact isDigit_digitCharacter digit (small digit isDigit)
  · rw [List.map_map]
    have same : (Decimal.digits number).map id = (Decimal.digits number).map
        (digitValue ∘ fun digit => byte (digitCharacter digit)) :=
      List.map_congr_left fun digit isDigit =>
        (digitValue_digitCharacter digit (small digit isDigit)).symm
    rwa [List.map_id] at same
  · intro startsWithZero
    have head : (Decimal.digits number).head? = some 0 := by
      cases front : Decimal.digits number with
      | nil => exact absurd front (Decimal.digits_ne_nil number)
      | cons digit others =>
          rw [front] at startsWithZero
          simp only [List.map_cons, List.head?_cons, Option.some.injEq] at startsWithZero
          have isDigit : digit ∈ Decimal.digits number := by rw [front]; exact List.mem_cons_self
          have value := digitValue_digitCharacter digit (small digit isDigit)
          rw [startsWithZero] at value
          simp [← value]
          decide
    rw [digits_of_head_zero head]
    decide

theorem foldl_digits_le (digits : List Nat) (start : Nat) :
    start ≤ digits.foldl (fun total digit => total * 10 + digit) start := by
  induction digits generalizing start with
  | nil => exact Nat.le_refl start
  | cons digit rest ih =>
      have further := ih (start * 10 + digit)
      rw [List.foldl_cons]
      omega

theorem gather_foldl (digits : List Nat) (start : Nat)
    (fits : digits.foldl (fun total digit => total * 10 + digit) start < UInt64.size) :
    Numeral.gather start digits =
      (digits.foldl (fun total digit => total * 10 + digit) start, []) := by
  induction digits generalizing start with
  | nil => rfl
  | cons digit rest ih =>
      have further := foldl_digits_le rest (start * 10 + digit)
      rw [List.foldl_cons] at fits ⊢
      rw [Numeral.gather, if_pos (by omega)]
      exact ih (start * 10 + digit) fits

theorem numeral_value (negative : Bool) {number : Nat} (fits : number < UInt64.size) :
    (⟨negative, Decimal.digits number, [], none⟩ : Numeral).value =
      .ok (Numeral.integer negative number) := by
  have whole : (Decimal.digits number).foldl (fun total digit => total * 10 + digit) 0 = number :=
    Decimal.value_digits number
  have gathered := gather_foldl (Decimal.digits number) 0 (by rwa [whole])
  rw [whole] at gathered
  simp [Numeral.value, gathered]

theorem integer_kept (negative : Bool) {number : Nat} (fits : number < UInt64.size) :
    KeptScalar ((if negative then [byte '-'] else []) ++ encodeWord (decimalCharacters number))
      (.number (Numeral.integer negative number)) := by
  have numeral : NumeralText ((if negative then [byte '-'] else []) ++
      (encodeWord (decimalCharacters number) ++ ([] ++ [])))
      ⟨negative, Decimal.digits number, [], none⟩ := .mk (digits_whole number) .none .none
  rw [List.append_nil, List.append_nil] at numeral
  exact .number numeral (numeral_value negative fits)

theorem number_kept {number : Number} (isInteger : ∀ bits, number ≠ .float bits) :
    KeptScalar (encodeWord number.characters) (.number number) := by
  cases number with
  | natural value =>
      have scalar := integer_kept false value.toNat_lt
      rw [Numeral.integer, if_neg (by decide), Nat.toUInt64, UInt64.ofNat_toNat] at scalar
      exact scalar
  | negative predecessor =>
      have small : predecessor.val < 0x8000000000000000 := predecessor.isLt
      have fits : predecessor.val + 1 < UInt64.size := Nat.lt_of_le_of_lt small (by decide)
      have scalar := integer_kept true fits
      rw [Numeral.integer, if_pos rfl, dif_pos ⟨by omega, by omega⟩] at scalar
      exact scalar
  | float bits => exact absurd rfl (isInteger bits)

theorem lead_comma : Lead false [byte ','] := Lead.later blank_nil blank_nil

theorem encodeItems_sequence {held : Bytes → Json → Prop} {items : List Json}
    (each : ∀ item ∈ items, held (encode item) item) :
    ∃ inner, Sequence held false inner items ∧ encodeItems items = inner ++ [byte ']'] := by
  induction items with
  | nil => exact ⟨[], .nil blank_nil, rfl⟩
  | cons item rest ih =>
      obtain ⟨inner, sequence, printed⟩ := ih fun other inside =>
        each other (List.mem_cons_of_mem item inside)
      refine ⟨_, .cons lead_comma (each item List.mem_cons_self) sequence, ?_⟩
      rw [encodeItems, printed]
      simp

theorem encode_list {held : Bytes → Json → Prop} {items : List Json}
    (each : ∀ item ∈ items, held (encode item) item) :
    ∃ inner, Enclosed held inner items ∧
      encode (.list items) = byte '[' :: (inner ++ [byte ']']) := by
  cases items with
  | nil => exact ⟨[], .nil blank_nil, rfl⟩
  | cons item rest =>
      obtain ⟨inner, sequence, printed⟩ := encodeItems_sequence fun other inside =>
        each other (List.mem_cons_of_mem item inside)
      refine ⟨_, .cons (.first blank_nil) (each item List.mem_cons_self) sequence, ?_⟩
      rw [encode, printed]
      simp

section Objects

variable {α : Type} {json : α → Json} {held : String → Bytes → α → Prop}

theorem encodeMember_text {name : String} {value : α}
    (isValue : held name (encode (json value)) value) :
    MemberText KeptText held (encodeText name ++ byte ':' :: encode (json value)) (name, value) :=
  MemberText.mk (encodeText_kept name) (ColonText.mk blank_nil blank_nil isValue)

theorem encodeMembers_sequence {members : List (String × α)}
    (each : ∀ member ∈ members, held member.1 (encode (json member.2)) member.2) :
    ∃ inner, Sequence (MemberText KeptText held) false inner members ∧
      encodeMembers (members.map fun member => (member.1, json member.2)) =
        inner ++ [byte '\x7d'] := by
  induction members with
  | nil => exact ⟨[], .nil blank_nil, rfl⟩
  | cons member rest ih =>
      obtain ⟨inner, sequence, printed⟩ := ih fun other inside =>
        each other (List.mem_cons_of_mem member inside)
      have isMember := encodeMember_text (each member List.mem_cons_self)
      refine ⟨_, .cons lead_comma isMember sequence, ?_⟩
      rw [List.map_cons, encodeMembers, printed]
      simp

theorem encode_object {members : List (String × α)}
    (each : ∀ member ∈ members, held member.1 (encode (json member.2)) member.2) :
    ∃ inner, Enclosed (MemberText KeptText held) inner members ∧
      encode (.object (members.map fun member => (member.1, json member.2))) =
        byte '\x7b' :: (inner ++ [byte '\x7d']) := by
  cases members with
  | nil => exact ⟨[], .nil blank_nil, rfl⟩
  | cons member rest =>
      obtain ⟨inner, sequence, printed⟩ := encodeMembers_sequence fun other inside =>
        each other (List.mem_cons_of_mem member inside)
      have isMember := encodeMember_text (each member List.mem_cons_self)
      refine ⟨_, .cons (.first blank_nil) isMember sequence, ?_⟩
      rw [List.map_cons, encode, printed]
      simp

end Objects

theorem encode_kept {value : Json} (ordered : value.Ordered) (floatless : value.Floatless)
    {levels : Nat} (within : value.depth ≤ levels) : kept.Value levels (encode value) value := by
  have scalar {token : Bytes} {value : Json} (isScalar : KeptScalar token value) (levels : Nat) :
      kept.Value levels token value := Dialect.Value.mono (Nat.zero_le levels) isScalar
  induction value using inductionOnParts generalizing levels with
  | null => exact scalar .null levels
  | bool value =>
      cases value with
      | false => exact scalar .false levels
      | true => exact scalar .true levels
  | number value =>
      refine scalar (number_kept ?_) levels
      rintro bits rfl
      exact floatless
  | text value => exact scalar (.text (encodeText_kept value)) levels
  | list items ih =>
      cases levels with
      | zero => simp [Json.depth] at within
      | succ levels =>
          rw [depth_list_le_iff] at within
          rw [ordered_list_iff] at ordered
          rw [floatless_list_iff] at floatless
          obtain ⟨inner, sequence, printed⟩ := encode_list fun item inside =>
            ih item inside (ordered item inside) (floatless item inside) (within item inside)
          rw [printed]
          exact Or.inr (.list sequence)
  | object members ih =>
      cases levels with
      | zero => simp [Json.depth] at within
      | succ levels =>
          rw [depth_object_le_iff] at within
          rw [ordered_object_iff] at ordered
          rw [floatless_object_iff] at floatless
          obtain ⟨inner, sequence, printed⟩ :=
            @encode_object Json id (fun _ => kept.Value levels) members fun member inside =>
              ih member inside (ordered.2 member inside) (floatless member inside)
                (within member inside)
          have container : kept.Container (kept.Value levels) _ (ofMembers members) :=
            .object sequence
          rw [ofMembers, Entries.foldl_put_of_sorted ordered.1, ← printed] at container
          simp only [id_eq, List.map_id'] at container
          exact Or.inr container

theorem kept_induction {motive : Nat → Json → Prop}
    (scalar : ∀ levels token value, KeptScalar token value → motive levels value)
    (list : ∀ levels items, (∀ item ∈ items, motive levels item) →
      motive (levels + 1) (.list items))
    (object : ∀ levels members, (∀ member ∈ members, motive levels member.2) →
      motive (levels + 1) (ofMembers members))
    {levels : Nat} {token : Bytes} {value : Json} (isValue : kept.Value levels token value) :
    motive levels value := by
  induction levels generalizing token value with
  | zero => exact scalar 0 token value isValue
  | succ levels ih =>
      rcases isValue with isScalar | container
      · exact scalar (levels + 1) token value isScalar
      · cases container with
        | list sequence =>
            exact list levels _ (Sequence.forall_values sequence fun _ _ isItem => ih isItem)
        | object sequence =>
            refine object levels _ (Sequence.forall_values sequence ?_)
            rintro _ _ ⟨isName, ⟨before, after, isValue⟩⟩
            exact ih isValue

theorem kept_depth_le {levels : Nat} {token : Bytes} {value : Json}
    (isValue : kept.Value levels token value) : value.depth ≤ levels := by
  refine kept_induction (motive := fun levels value => value.depth ≤ levels) ?scalar ?list
    ?object isValue
  case scalar =>
    intro levels token value isScalar
    cases isScalar <;> exact Nat.zero_le levels
  case list => exact fun levels items within => depth_list_le_iff.mpr within
  case object => exact fun levels members within => depth_ofMembers_le within

theorem kept_container_starts {held : Bytes → Json → Prop} {token : Bytes} {value : Json}
    (container : kept.Container held token value) :
    ∃ next more, token = next :: more ∧ isSpace next = false ∧ ¬StartsScalar next := by
  cases container with
  | list sequence => exact ⟨_, _, rfl, by decide, fun starts => starts.apart.2.2.1 rfl⟩
  | object sequence => exact ⟨_, _, rfl, by decide, fun starts => starts.apart.2.2.2 rfl⟩

/-- Where a list or an object stands, nothing else can be read off, whatever the levels. -/
theorem container_unique {levels : Nat} {token other space rest left : Bytes} {value read : Json}
    (container : kept.Container (kept.Value levels) token value)
    (isValue : kept.Value levels other read) (blank : Blank space)
    (whole : token ++ rest = space ++ (other ++ left)) : read = value := by
  obtain ⟨next, more, starts, notSpace, notScalar⟩ := kept_container_starts container
  have noSpace : space = [] := by
    cases space with
    | nil => rfl
    | cons first others =>
        rw [starts, List.cons_append, List.cons_append] at whole
        obtain ⟨rfl, _⟩ := List.cons.inj whole
        simp [blank next List.mem_cons_self] at notSpace
  subst space
  have notOtherScalar : ¬KeptScalar other read := by
    intro scalar
    obtain ⟨first, others, otherStarts, startsScalar⟩ := scalar.starts
    rw [starts, otherStarts] at whole
    obtain ⟨rfl, _⟩ := List.cons.inj whole
    exact notScalar startsScalar
  have more : kept.Container (kept.Value levels) other read := by
    cases levels with
    | zero => exact absurd isValue notOtherScalar
    | succ levels =>
        rcases isValue with scalar | otherContainer
        · exact absurd scalar notOtherScalar
        · exact otherContainer.imp Dialect.Value.succ
  have readHere := readValue_container (decoded_follows levels) (KeptValue.starts levels)
    blank_nil container rest
  have readThere := readValue_container (decoded_follows levels) (KeptValue.starts levels)
    blank_nil more left
  rw [List.nil_append, whole, List.nil_append] at readHere
  rw [List.nil_append, readHere] at readThere
  exact (Prod.mk.inj (Except.ok.inj readThere)).1.symm

theorem decoded_encode_deep {value : Json} (ordered : value.Ordered)
    (floatless : value.Floatless) {levels : Nat} (deep : levels < value.depth) (rest : Bytes) :
    ∃ fault, (decoded levels).read (encode value ++ rest) = .error fault := by
  cases read : (decoded levels).read (encode value ++ rest) with
  | error fault => exact ⟨fault, rfl⟩
  | ok found =>
      obtain ⟨other, left⟩ := found
      obtain ⟨space, token, blank, isValue, whole⟩ := (decoded_follows levels).sound read
      obtain ⟨above, isDepth⟩ : ∃ above, value.depth = above + 1 :=
        ⟨value.depth - 1, by omega⟩
      rcases encode_kept ordered floatless (Nat.le_of_eq isDepth) with scalar | container
      · have flat : value.depth ≤ 0 := @kept_depth_le 0 (encode value) value scalar
        omega
      · have same := container_unique container (isValue.mono (by omega)) blank whole
        have shallow := kept_depth_le isValue
        rw [same] at shallow
        omega

end TaskQueue.Json
