import Mathlib.Data.List.Nodup
import TaskQueue.Json.Record
import TaskQueue.Proofs.Json.Skipped

/-!
Records are read as the grammar has them. If the fields of a record follow a grammar of their
values, then an object is a record exactly if its members follow that grammar, no field is given
twice, and no field that must be there is missed; the record is what the members make of the blank
one. A field that is given twice is what the fault names.
-/

namespace TaskQueue.Json

theorem Reader.Follows.map {α β : Type} {reader : Reader α} {item : Bytes → α → Prop}
    (follows : reader.Follows item) (change : α → β) :
    (reader.map change).Follows
      fun token made => ∃ value, item token value ∧ made = change value where
  sound := by
    intro bytes made rest done
    cases read : reader.read bytes with
    | error fault => simp [Reader.map, read, Except.map] at done
    | ok reading =>
        obtain ⟨value, after⟩ := reading
        simp only [Reader.map, read, Except.map, Except.ok.injEq, Prod.mk.injEq] at done
        obtain ⟨rfl, rfl⟩ := done
        obtain ⟨space, token, blank, isItem, whole⟩ := follows.sound read
        exact ⟨space, token, blank, ⟨value, isItem, rfl⟩, whole⟩
  complete := by
    rintro space token made rest blank ⟨value, isItem, rfl⟩ ends
    have read := follows.complete blank isItem ends
    simp only [Reader.map, read, Except.map]

theorem Reader.Follows.of_iff {α : Type} {reader : Reader α} {item other : Bytes → α → Prop}
    (follows : reader.Follows item) (same : ∀ {token value}, item token value ↔ other token value) :
    reader.Follows other where
  sound := by
    intro bytes value rest done
    obtain ⟨space, token, blank, isItem, whole⟩ := follows.sound done
    exact ⟨space, token, blank, same.mp isItem, whole⟩
  complete := fun blank isOther ends => follows.complete blank (same.mpr isOther) ends

theorem Shape.scalar_follows {α : Type} (fit : Json → Except Cause α) :
    (Shape.scalar fit).reader.Follows fun token value =>
      ∃ scalar, KeptScalar token scalar ∧ fit scalar = .ok value where
  sound := by
    intro bytes value rest done
    simp only [Shape.scalar, readFitting] at done
    split at done
    · simp at done
    · rename_i next others skipped
      obtain ⟨space, blank, rfl⟩ := skipSpace_eq skipped
      split at done
      · split at done <;> simp at done
      · split at done
        · split at done <;> simp at done
        · split at done
          · simp at done
          · rename_i scalar after read
            split at done
            · simp at done
            · rename_i fitted fits
              simp only [Except.ok.injEq, Prod.mk.injEq] at done
              obtain ⟨rfl, rfl⟩ := done
              obtain ⟨token, isScalar, whole⟩ := readScalar_sound read
              exact ⟨space, token, blank, ⟨scalar, isScalar, fits⟩, by rw [whole]⟩
  complete := by
    rintro space token value rest blank ⟨scalar, isScalar, fits⟩ ends
    obtain ⟨next, more, rfl, starts⟩ := isScalar.starts
    obtain ⟨notSpace, _, notList, notObject⟩ := starts.apart
    simp only [Shape.scalar, readFitting, List.cons_append,
      skipSpace_blank_cons blank notSpace, if_neg notList, if_neg notObject,
      readScalar_complete isScalar ends, fits]

theorem Shape.text_follows : Shape.text.reader.Follows KeptText := by
  refine (Shape.scalar_follows (Shape.fitText "a string")).of_iff ?_
  intro token value
  constructor
  · rintro ⟨scalar, isScalar, fits⟩
    cases isScalar with
    | text isText =>
        obtain rfl := Except.ok.inj fits
        exact isText
    | _ => simp [Shape.fitText] at fits
  · intro isText
    exact ⟨.text value, .text isText, rfl⟩

theorem finish_iff {bytes : Bytes} : finish bytes = .ok () ↔ Blank bytes := by
  rw [← skipSpace_nil_iff]
  unfold finish
  split <;> simp_all

def firstByte? (text : Bytes) : Option UInt8 := text.find? fun next => !isSpace next

theorem firstByte?_eq_head? (text : Bytes) : firstByte? text = (skipSpace text).head? := by
  induction text with
  | nil => rfl
  | cons next rest ih =>
      cases space : isSpace next with
      | true =>
          have skipped : skipSpace (next :: rest) = skipSpace rest := by simp [skipSpace, space]
          rw [skipped, ← ih]
          simp [firstByte?, space]
      | false =>
          rw [skipSpace_of_not space]
          simp [firstByte?, space]

namespace Layout

variable {ρ α : Type} {layout : Layout ρ} {part : String → Bytes → α → Prop} {change : α → ρ → ρ}

theorem skipMember_sound {bytes rest : Bytes} (done : skipMember bytes = .ok rest) :
    ∃ token, ColonText PassedUnread token () ∧ bytes = token ++ rest := by
  unfold skipMember at done
  split at done
  · simp at done
  · rename_i after colon
    obtain ⟨space, token, blank, isValue, rfl⟩ := skipJson_sound done
    exact ColonText.ofColon colon blank isValue

theorem skipMember_complete {token rest : Bytes} (text : ColonText PassedUnread token ())
    (ends : Ends rest) : skipMember (token ++ rest) = .ok rest := by
  obtain ⟨space, inner, blank, isValue, colon⟩ := text.readColon
  simp only [skipMember, colon, skipJson_complete blank isValue ends]

def knows (layout : Layout ρ) (name : String) : Bool := (layout.field? name).isSome

theorem knows_iff_mem {name : String} :
    layout.knows name = true ↔ name ∈ layout.fields.map Field.name := by
  simp [knows, field?]

/-- The values of members follow a grammar, and `change` says what each makes of the record. A
member that is no field of the record may be any well-formed value and changes nothing. -/
structure Follows (layout : Layout ρ) (part : String → Bytes → α → Prop) (change : α → ρ → ρ) :
    Prop where
  field : ∀ {name field}, layout.field? name = some field →
    field.shape.reader.Follows fun token made => ∃ item, part name token item ∧ made = change item
  other : ∀ {name token}, layout.knows name = false →
    ((∃ item, part name token item) ↔ PassedValue token)
  idle : ∀ {name token item}, layout.knows name = false → part name token item → change item = id

def Draft.take (layout : Layout ρ) (change : α → ρ → ρ) (draft : Draft ρ) (member : String × α) :
    Draft ρ :=
  ⟨change member.2 draft.record,
    if layout.knows member.1 then member.1 :: draft.given else draft.given⟩

theorem name_of_field? {name : String} {field : Field ρ} (found : layout.field? name = some field) :
    field.name = name := by
  have same := List.find?_some found
  simpa using same

theorem giveMember_sound (follows : layout.Follows part change) {name : String}
    {draft after : Draft ρ} {bytes rest : Bytes}
    (done : layout.giveMember.act name draft bytes = (.ok rest, after)) :
    ∃ token item, ColonText (part name) token item ∧ bytes = token ++ rest ∧
      after = draft.take layout change (name, item) ∧
      (layout.knows name = true → name ∉ draft.given) := by
  simp only [giveMember] at done
  split at done
  · rename_i unknown
    have strange : layout.knows name = false := by simp [knows, unknown]
    simp only [Prod.mk.injEq] at done
    obtain ⟨skipped, rfl⟩ := done
    obtain ⟨token, ⟨before, between, isValue⟩, rfl⟩ := skipMember_sound skipped
    obtain ⟨item, isPart⟩ := (follows.other strange).mpr isValue
    refine ⟨_, item, .mk before between isPart, rfl, ?_, ?_⟩
    · simp [Draft.take, follows.idle strange isPart, strange]
    · simp [strange]
  · rename_i field found
    split at done
    · simp at done
    · rename_i notGiven
      split at done
      · simp at done
      · rename_i made left read
        simp only [Prod.mk.injEq, Except.ok.injEq] at done
        obtain ⟨rfl, rfl⟩ := done
        obtain ⟨token, text, rfl⟩ := readMember_sound (follows.field found) read
        obtain ⟨before, between, item, isPart, rfl⟩ := text
        have known : layout.knows name = true := by simp [knows, found]
        refine ⟨_, item, .mk before between isPart, rfl, ?_, ?_⟩
        · simp [Draft.give, Draft.take, known, name_of_field? found]
        · intro _
          simpa using notGiven

theorem giveMember_complete (follows : layout.Follows part change) {name : String}
    {draft : Draft ρ} {token rest : Bytes} {item : α} (text : ColonText (part name) token item)
    (ends : Ends rest) (fresh : layout.knows name = true → name ∉ draft.given) :
    layout.giveMember.act name draft (token ++ rest) =
      (.ok rest, draft.take layout change (name, item)) := by
  obtain ⟨before, between, isPart⟩ := text
  simp only [giveMember]
  cases found : layout.field? name with
  | none =>
      have strange : layout.knows name = false := by simp [knows, found]
      have isValue := (follows.other strange).mp ⟨item, isPart⟩
      rw [skipMember_complete (.mk before between isValue) ends]
      simp [Draft.take, follows.idle strange isPart, strange]
  | some field =>
      have known : layout.knows name = true := by simp [knows, found]
      have notGiven : ¬draft.given.contains name = true := by simpa using fresh known
      have read := readMember_complete (follows.field found)
        (.mk before between ⟨item, isPart, rfl⟩) ends
      dsimp only
      rw [if_neg notGiven, read]
      simp [Draft.give, Draft.take, known, name_of_field? found]

theorem giveMember_again {name : String} {draft : Draft ρ} (known : layout.knows name = true)
    (given : name ∈ draft.given) (bytes : Bytes) :
    layout.giveMember.act name draft bytes =
      (.error (.before (.duplicateField name) (leaving bytes)), draft) := by
  obtain ⟨field, found⟩ := Option.isSome_iff_exists.mp known
  simp [giveMember, found, given]

section Objects

variable {members : List (String × α)} {draft : Draft ρ}

def fieldNames (layout : Layout ρ) (members : List (String × α)) : List String :=
  (members.map Prod.fst).filter layout.knows

theorem nodup_fieldNames_iff :
    (layout.fieldNames members).Nodup ↔
      ∀ name, layout.knows name = true → (members.map Prod.fst).count name ≤ 1 := by
  rw [List.nodup_iff_count_le_one]
  constructor
  · intro once name known
    have atMost := once name
    rwa [fieldNames, List.count_filter known] at atMost
  · intro once name
    by_cases known : layout.knows name = true
    · rw [fieldNames, List.count_filter known]
      exact once name known
    · have absent : name ∉ layout.fieldNames members := fun inside =>
        known (List.mem_filter.mp inside).2
      rw [List.count_eq_zero.mpr absent]
      exact Nat.zero_le 1

theorem record_foldl_take :
    (members.foldl (Draft.take layout change) draft).record =
      members.foldl (fun record member => change member.2 record) draft.record := by
  induction members generalizing draft with
  | nil => rfl
  | cons member rest ih => exact ih

theorem given_foldl_take :
    (members.foldl (Draft.take layout change) draft).given =
      (layout.fieldNames members).reverse ++ draft.given := by
  induction members generalizing draft with
  | nil => rfl
  | cons member rest ih =>
      rw [List.foldl_cons, ih]
      cases known : layout.knows member.1 <;> simp [fieldNames, Draft.take, known]

theorem nodup_take {name : String} (apart : draft.given.Nodup)
    (fresh : layout.knows name = true → name ∉ draft.given) (item : α) :
    (draft.take layout change (name, item)).given.Nodup := by
  unfold Draft.take
  dsimp only
  split
  · rename_i known
    exact List.nodup_cons.mpr ⟨fresh known, apart⟩
  · exact apart

theorem walk_sound (follows : layout.Follows part change) {first : Bool} {after : Draft ρ}
    {bytes rest : Bytes} (done : walk layout.giveMember first draft bytes = (.ok rest, after))
    (apart : draft.given.Nodup) :
    ∃ inner members, Sequence (MemberText KeptText part) first inner members ∧
      bytes = inner ++ byte '\x7d' :: rest ∧
      after = members.foldl (Draft.take layout change) draft ∧ after.given.Nodup := by
  fun_induction walk layout.giveMember first draft bytes with
  | case1 => simp at done
  | case2 first draft bytes left turn =>
      simp only [Prod.mk.injEq, Except.ok.injEq] at done
      obtain ⟨rfl, rfl⟩ := done
      obtain ⟨space, blank, rfl⟩ := memberTurn_close_iff.mp turn
      exact ⟨space, [], .nil blank, rfl, rfl, apart⟩
  | case3 => simp at done
  | case4 first draft bytes name middle turn left acted ih =>
      obtain ⟨lead, nameToken, isLead, isName, rfl⟩ := memberTurn_member_sound turn
      have step : layout.giveMember.act name draft middle =
          (.ok left, (layout.giveMember.act name draft middle).2) := Prod.ext acted rfl
      obtain ⟨token, item, isValue, rfl, changed, fresh⟩ := giveMember_sound follows step
      rw [changed] at done ih
      obtain ⟨inner, members, sequence, rfl, rfl, last⟩ := ih done (nodup_take apart fresh item)
      exact ⟨_, _, .cons isLead (.mk isName isValue) sequence, by simp, rfl, last⟩

theorem walk_complete (follows : layout.Follows part change) {first : Bool} {inner : Bytes}
    (sequence : Sequence (MemberText KeptText part) first inner members)
    (apart : (members.foldl (Draft.take layout change) draft).given.Nodup) (rest : Bytes) :
    walk layout.giveMember first draft (inner ++ byte '\x7d' :: rest) =
      (.ok rest, members.foldl (Draft.take layout change) draft) := by
  induction sequence generalizing draft with
  | nil blank => exact walk_close (memberTurn_close_iff.mpr ⟨_, blank, rfl⟩) draft
  | cons isLead isMember others ih =>
      obtain ⟨isName, isValue⟩ := isMember
      rename_i first lead inner members nameToken token name item
      have turn := memberTurn_member_complete isLead isName
        (token ++ (inner ++ byte '\x7d' :: rest))
      have fresh : layout.knows name = true → name ∉ draft.given := by
        intro known
        rw [List.foldl_cons, given_foldl_take] at apart
        have later := (List.nodup_append.mp apart).2.1
        simp only [Draft.take, known, if_true] at later
        exact (List.nodup_cons.mp later).1
      have acted := giveMember_complete follows isValue (others.ends (ends_object rest)) fresh
      simp only [List.append_assoc]
      rw [walk_member turn, acted]
      exact ih apart

theorem walk_repeated (follows : layout.Follows part change) {first : Bool} {inner : Bytes}
    (sequence : Sequence (MemberText KeptText part) first inner members)
    (apart : draft.given.Nodup)
    (repeats : ¬(members.foldl (Draft.take layout change) draft).given.Nodup) (rest : Bytes) :
    ∃ name unread after,
      walk layout.giveMember first draft (inner ++ byte '\x7d' :: rest) =
          (.error ⟨.duplicateField name, unread⟩, after) ∧
        1 < (members.foldl (Draft.take layout change) draft).given.count name := by
  induction sequence generalizing draft with
  | nil blank => exact absurd apart repeats
  | cons isLead isMember others ih =>
      obtain ⟨isName, isValue⟩ := isMember
      rename_i first lead inner members nameToken token name item
      have turn := memberTurn_member_complete isLead isName
        (token ++ (inner ++ byte '\x7d' :: rest))
      simp only [List.append_assoc]
      rw [walk_member turn]
      by_cases again : layout.knows name = true ∧ name ∈ draft.given
      · obtain ⟨known, given⟩ := again
        rw [giveMember_again known given]
        refine ⟨name, _, draft, rfl, ?_⟩
        rw [List.foldl_cons, given_foldl_take]
        have once : 0 < draft.given.count name := List.count_pos_iff.mpr given
        simp only [Draft.take, known, if_true, List.count_append, List.count_cons_self]
        omega
      · have fresh : layout.knows name = true → name ∉ draft.given :=
          fun known given => again ⟨known, given⟩
        rw [giveMember_complete follows isValue (others.ends (ends_object rest)) fresh]
        exact ih (nodup_take apart fresh item) repeats

end Objects

inductive ObjectText (part : String → Bytes → α → Prop) : Bytes → List (String × α) → Prop
  | mk {before inner after : Bytes} {members : List (String × α)} : Blank before →
      Enclosed (MemberText KeptText part) inner members → Blank after →
      ObjectText part (before ++ byte '\x7b' :: (inner ++ byte '\x7d' :: after)) members

def made (layout : Layout ρ) (change : α → ρ → ρ) (members : List (String × α)) : ρ :=
  members.foldl (fun record member => change member.2 record) layout.blank

def Sufficient (layout : Layout ρ) (names : List String) : Prop :=
  ∀ field ∈ layout.fields, field.needed = true → field.name ∈ names

theorem complete_ok_iff {draft : Draft ρ} {record : ρ} :
    layout.complete draft = .ok record ↔
      layout.Sufficient draft.given ∧ record = draft.record := by
  unfold complete Sufficient
  cases missed : layout.fields.find?
      (fun field => field.needed && !draft.given.contains field.name) with
  | none =>
      have all := List.find?_eq_none.mp missed
      simp only [Except.ok.injEq]
      constructor
      · rintro rfl
        refine ⟨?_, rfl⟩
        intro field inside needed
        have given := all field inside
        simpa [needed] using given
      · rintro ⟨_, rfl⟩
        rfl
  | some field =>
      have inside := List.mem_of_find?_eq_some missed
      have absent := List.find?_some missed
      simp only [Bool.and_eq_true, Bool.not_eq_true', List.contains_eq_mem,
        decide_eq_false_iff_not] at absent
      simp only [reduceCtorEq, false_iff, not_and]
      intro sufficient
      exact absurd (sufficient field inside absent.1) absent.2

variable {members : List (String × α)} {text : Bytes}

theorem given_taken (members : List (String × α)) :
    (members.foldl (Draft.take layout change) layout.draft).given =
      (layout.fieldNames members).reverse := by
  rw [given_foldl_take]
  exact List.append_nil _

theorem record_taken (members : List (String × α)) :
    (members.foldl (Draft.take layout change) layout.draft).record = layout.made change members :=
  record_foldl_take

theorem parse_sound (follows : layout.Follows part change) {record : ρ}
    (opened : firstByte? text = some (byte '\x7b')) (done : layout.parse text = .ok record) :
    ∃ members, ObjectText part text members ∧ (layout.fieldNames members).Nodup ∧
      layout.Sufficient (layout.fieldNames members) ∧ record = layout.made change members := by
  unfold parse at done
  split at done
  · simp at done
  · rename_i found left read
    split at done
    · simp at done
    · rename_i finished
      obtain rfl := Except.ok.inj done
      rw [firstByte?_eq_head?, List.head?_eq_some_iff] at opened
      obtain ⟨rest, skipped⟩ := opened
      obtain ⟨before, blank, rfl⟩ := skipSpace_eq skipped
      unfold Layout.read at read
      rw [skipped] at read
      dsimp only at read
      rw [if_neg (by decide), if_pos rfl] at read
      split at read
      · simp at read
      · rename_i after draft walked
        split at read
        · simp at read
        · rename_i record' completed
          simp only [Except.ok.injEq, Prod.mk.injEq] at read
          obtain ⟨rfl, rfl⟩ := read
          obtain ⟨inner, members, sequence, rfl, rfl, apart⟩ :=
            walk_sound follows walked List.nodup_nil
          obtain ⟨sufficient, rfl⟩ := complete_ok_iff.mp completed
          rw [given_taken, List.nodup_reverse] at apart
          refine ⟨members, .mk blank sequence (finish_iff.mp finished), apart, ?_,
            record_taken members⟩
          intro field inside needed
          have taken := sufficient field inside needed
          rwa [given_taken, List.mem_reverse] at taken

theorem parse_complete (follows : layout.Follows part change)
    (isObject : ObjectText part text members) (apart : (layout.fieldNames members).Nodup)
    (sufficient : layout.Sufficient (layout.fieldNames members)) :
    layout.parse text = .ok (layout.made change members) := by
  obtain ⟨beforeBlank, sequence, afterBlank⟩ := isObject
  have walked := walk_complete follows sequence
    (by rwa [given_taken, List.nodup_reverse])
  have completed : layout.complete (members.foldl (Draft.take layout change) layout.draft) =
      .ok (layout.made change members) := by
    refine complete_ok_iff.mpr ⟨?_, (record_taken members).symm⟩
    intro field inside needed
    rw [given_taken, List.mem_reverse]
    exact sufficient field inside needed
  unfold parse Layout.read
  rw [skipSpace_blank_cons beforeBlank (by decide)]
  dsimp only
  rw [if_neg (by decide), if_pos rfl, walked]
  dsimp only
  rw [completed]
  dsimp only
  rw [finish_iff.mpr afterBlank]

theorem parse_repeated (follows : layout.Follows part change)
    (isObject : ObjectText part text members) (repeats : ¬(layout.fieldNames members).Nodup) :
    ∃ name unread, layout.parse text = .error ⟨.duplicateField name, unread⟩ ∧
      1 < (layout.fieldNames members).count name := by
  obtain ⟨beforeBlank, sequence, afterBlank⟩ := isObject
  rename_i before inner after
  obtain ⟨name, unread, draft, walked, twice⟩ := walk_repeated follows sequence
    (List.nodup_nil : layout.draft.given.Nodup)
    (by rwa [given_taken, List.nodup_reverse]) after
  rw [given_taken, List.count_reverse] at twice
  refine ⟨name, unread, ?_, twice⟩
  unfold parse Layout.read
  rw [skipSpace_blank_cons beforeBlank (by decide)]
  dsimp only
  rw [if_neg (by decide), if_pos rfl, walked]

end Layout

end TaskQueue.Json
