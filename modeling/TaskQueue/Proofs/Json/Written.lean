import TaskQueue.Proofs.Json.Record

/-!
The members of an object are clear from its text. Whatever is made of a text or a value, it is a
well-formed one that could be passed over, and where such a one ends depends on nothing but what
stands there. So two readings of one text see the same members, whatever each makes of them.
-/

namespace TaskQueue.Json

theorem Spelled.passed {content meant : Bytes} (spelled : Spelled KeptEscape content meant) :
    ∃ left, Spelled PassedEscape content left := by
  induction spelled with
  | nil => exact ⟨[], .nil⟩
  | plain notEnd notEscape printable _ ih =>
      obtain ⟨left, others⟩ := ih
      exact ⟨_, .plain notEnd notEscape printable others⟩
  | escape isEscape _ ih =>
      obtain ⟨left, others⟩ := ih
      cases isEscape with
      | short known => exact ⟨_, .escape (.short known) others⟩
      | scalar isQuad _ _ => exact ⟨_, .escape (.quad isQuad) others⟩
      | pair leading _ trailing _ =>
          have second := Spelled.escape (.quad trailing) others
          have first := Spelled.escape (.quad leading) second
          exact ⟨_, by simpa using first⟩

theorem KeptText.passed {token : Bytes} {value : String} (isText : KeptText token value) :
    PassedText token := by
  obtain ⟨content, spelled, rfl⟩ := isText
  obtain ⟨left, passed⟩ := spelled.passed
  exact ⟨content, left, passed, rfl⟩

theorem PassedScalar.value {token : Bytes} (scalar : PassedScalar token) : PassedValue token :=
  ⟨0, scalar⟩

section Tokens

variable {token other rest more : Bytes}

theorem KeptText.same {value meant : String} (isText : KeptText token value)
    (again : KeptText token meant) : value = meant := by
  obtain ⟨content, spelled, rfl⟩ := isText
  obtain ⟨letters, others, same⟩ := again
  obtain ⟨_, same⟩ := List.cons.inj same
  have read := readText_iff.mpr ⟨content, spelled, (rfl : content ++ [byte '"'] = _)⟩
  have readAgain := readText_iff.mpr ⟨letters, others, (rfl : letters ++ [byte '"'] = _)⟩
  rw [same, readAgain] at read
  exact (Prod.mk.inj (Except.ok.inj read)).1.symm

theorem NumeralText.same {parts meant : Numeral} (isNumeral : NumeralText token parts)
    (again : NumeralText token meant) : parts = meant := by
  have ends : Ends [] := nofun
  have read := readNumeral_complete .endInValue isNumeral ends
  have readAgain := readNumeral_complete .endInValue again ends
  rw [readAgain] at read
  exact (Prod.mk.inj (Except.ok.inj read)).1.symm

theorem PassedText.same (isText : PassedText token) (again : PassedText other)
    (whole : token ++ rest = other ++ more) : token = other ∧ rest = more := by
  obtain ⟨content, meant, spelled, rfl⟩ := isText
  obtain ⟨letters, left, others, rfl⟩ := again
  simp only [List.cons_append, List.append_assoc, List.cons.injEq, true_and,
    List.nil_append] at whole
  have skipped : skipText (content ++ byte '"' :: rest) = .ok rest :=
    skipText_iff.mpr ⟨content, meant, spelled, rfl⟩
  have skippedAgain : skipText (content ++ byte '"' :: rest) = .ok more :=
    skipText_iff.mpr ⟨letters, left, others, whole⟩
  rw [skippedAgain] at skipped
  obtain rfl := Except.ok.inj skipped
  rw [List.append_cancel_right whole]
  exact ⟨rfl, rfl⟩

theorem PassedValue.starts (isValue : PassedValue token) :
    ∃ next others, token = next :: others ∧ isSpace next = false := by
  obtain ⟨levels, isValue⟩ := isValue
  obtain ⟨next, others, whole, notSpace, _⟩ :=
    Dialect.Value.starts PassedScalar.starts levels isValue
  exact ⟨next, others, whole, notSpace⟩

theorem same_of_blank {before between : Bytes} {next first : UInt8} (blankBefore : Blank before)
    (blankBetween : Blank between) (notSpace : isSpace next = false)
    (visible : isSpace first = false)
    (whole : before ++ next :: rest = between ++ first :: more) :
    next = first ∧ rest = more := by
  have skipped := congrArg skipSpace whole
  rw [skipSpace_blank_cons blankBefore notSpace, skipSpace_blank_cons blankBetween visible]
    at skipped
  exact List.cons.inj skipped

theorem PassedValue.same {before between : Bytes} (isValue : PassedValue token)
    (again : PassedValue other) (blankBefore : Blank before) (blankBetween : Blank between)
    (ends : Ends rest) (endsAgain : Ends more)
    (whole : before ++ (token ++ rest) = between ++ (other ++ more)) :
    token = other ∧ rest = more := by
  have skipped := skipJson_complete blankBefore isValue ends
  rw [whole, skipJson_complete blankBetween again endsAgain] at skipped
  obtain rfl := Except.ok.inj skipped
  obtain ⟨next, others, rfl, notSpace⟩ := isValue.starts
  obtain ⟨first, letters, rfl, visible⟩ := again.starts
  rw [← List.append_assoc, ← List.append_assoc] at whole
  obtain ⟨rfl, rfl⟩ := same_of_blank blankBefore blankBetween notSpace visible
    (List.append_cancel_right whole)
  exact ⟨rfl, rfl⟩

def WrittenMember : Bytes → Bytes × Bytes → Prop :=
  MemberText (fun token name => PassedText token ∧ name = token)
    fun _ token value => PassedValue token ∧ value = token

theorem WrittenMember.same {entry entryAgain : Bytes × Bytes} (member : WrittenMember token entry)
    (again : WrittenMember other entryAgain) (ends : Ends rest) (endsAgain : Ends more)
    (whole : token ++ rest = other ++ more) : entry = entryAgain ∧ rest = more := by
  obtain ⟨⟨isName, rfl⟩, ⟨before, after, isValue, rfl⟩⟩ := member
  obtain ⟨⟨isNameAgain, rfl⟩, ⟨beforeAgain, afterAgain, isValueAgain, rfl⟩⟩ := again
  simp only [List.append_assoc, List.cons_append] at whole
  obtain ⟨rfl, afterName⟩ := isName.same isNameAgain whole
  obtain ⟨_, afterColon⟩ := same_of_blank before beforeAgain (by decide) (by decide) afterName
  obtain ⟨rfl, afterValue⟩ :=
    isValue.same isValueAgain after afterAgain ends endsAgain afterColon
  exact ⟨rfl, afterValue⟩

theorem WrittenMember.starts {entry : Bytes × Bytes} (member : WrittenMember token entry) :
    ∃ others, token = byte '"' :: others := by
  obtain ⟨⟨⟨content, meant, _, rfl⟩, _⟩, _⟩ := member
  exact ⟨_, rfl⟩

end Tokens

section Sequences

variable {first : Bool} {rest more : Bytes}

theorem Lead.same {lead other : Bytes} (isLead : Lead first lead) (again : Lead first other)
    (whole : lead ++ byte '"' :: rest = other ++ byte '"' :: more) : rest = more := by
  cases isLead with
  | first blank =>
      cases again with
      | first blankAgain =>
          exact (same_of_blank blank blankAgain (by decide) (by decide) whole).2
  | later before after =>
      cases again with
      | later beforeAgain afterAgain =>
          simp only [List.append_assoc, List.cons_append] at whole
          obtain ⟨_, afterComma⟩ :=
            same_of_blank before beforeAgain (by decide) (by decide) whole
          exact (same_of_blank after afterAgain (by decide) (by decide) afterComma).2

theorem Lead.not_end {lead space : Bytes} (isLead : Lead first lead) (blank : Blank space)
    (whole : lead ++ byte '"' :: rest = space ++ byte '\x7d' :: more) : False := by
  cases isLead with
  | first before =>
      have same := (same_of_blank before blank (by decide) (by decide) whole).1
      exact absurd same (by decide)
  | later before after =>
      rw [List.append_assoc, List.cons_append] at whole
      have same := (same_of_blank before blank (by decide) (by decide) whole).1
      exact absurd same (by decide)

theorem Sequence.same {inner others : Bytes} {entries entriesAgain : List (Bytes × Bytes)}
    (sequence : Sequence WrittenMember first inner entries)
    (again : Sequence WrittenMember first others entriesAgain)
    (whole : inner ++ byte '\x7d' :: rest = others ++ byte '\x7d' :: more) :
    entries = entriesAgain := by
  induction sequence generalizing others entriesAgain with
  | nil blank =>
      cases again with
      | nil _ => rfl
      | cons isLead member _ =>
          obtain ⟨letters, rfl⟩ := member.starts
          simp only [List.append_assoc, List.cons_append] at whole
          exact (isLead.not_end blank whole.symm).elim
  | cons isLead member sequence ih =>
      obtain ⟨letters, rfl⟩ := member.starts
      cases again with
      | nil blank =>
          simp only [List.append_assoc, List.cons_append] at whole
          exact (isLead.not_end blank whole).elim
      | cons isLeadAgain memberAgain sequenceAgain =>
          obtain ⟨lettersAgain, rfl⟩ := memberAgain.starts
          simp only [List.append_assoc, List.cons_append] at whole
          have within := isLead.same isLeadAgain whole
          obtain ⟨rfl, afterMember⟩ := member.same memberAgain (sequence.ends (ends_object rest))
            (sequenceAgain.ends (ends_object more)) (congrArg (byte '"' :: ·) within)
          rw [ih sequenceAgain afterMember]

end Sequences

/-- A text that is one object, by its members as they are written. -/
inductive WrittenObject : Bytes → List (Bytes × Bytes) → Prop
  | mk {before inner after : Bytes} {entries : List (Bytes × Bytes)} : Blank before →
      Enclosed WrittenMember inner entries → Blank after →
      WrittenObject (before ++ byte '\x7b' :: (inner ++ byte '\x7d' :: after)) entries

theorem WrittenObject.opened {text : Bytes} {entries : List (Bytes × Bytes)}
    (written : WrittenObject text entries) : firstByte? text = some (byte '\x7b') := by
  obtain ⟨blank, _, _⟩ := written
  rw [firstByte?_eq_head?, skipSpace_blank_cons blank (by decide)]
  rfl

abbrev ReadMember (α : Type) : Type := (Bytes × Bytes) × (String × α)

section Readings

variable {α : Type} {part : String → Bytes → α → Prop} {members : List (String × α)}

theorem Sequence.written (passed : ∀ {name token item}, part name token item → PassedValue token)
    {first : Bool} {inner : Bytes}
    (sequence : Sequence (MemberText KeptText part) first inner members) :
    ∃ reads : List (ReadMember α), members = reads.map Prod.snd ∧
      Sequence WrittenMember first inner (reads.map Prod.fst) ∧
      ∀ read ∈ reads, KeptText read.1.1 read.2.1 ∧ part read.2.1 read.1.2 read.2.2 := by
  induction sequence with
  | nil blank => exact ⟨[], rfl, .nil blank, nofun⟩
  | cons isLead isMember _ ih =>
      obtain ⟨reads, rfl, sequence, each⟩ := ih
      obtain ⟨isName, ⟨before, after, isPart⟩⟩ := isMember
      rename_i nameToken name item blankBefore blankAfter token
      refine ⟨((nameToken, token), (name, item)) :: reads, rfl, ?_, ?_⟩
      · have member : WrittenMember _ (nameToken, token) :=
          .mk ⟨isName.passed, rfl⟩ (.mk before after ⟨passed isPart, rfl⟩)
        exact .cons isLead member sequence
      · exact List.forall_mem_cons.mpr ⟨⟨isName, isPart⟩, each⟩

/-- A reading of an object has its members as they are written, one by one. -/
theorem WrittenObject.reads {text : Bytes} {entries : List (Bytes × Bytes)}
    (written : WrittenObject text entries)
    (passed : ∀ {name token item}, part name token item → PassedValue token)
    (isObject : Layout.ObjectText part text members) :
    ∃ reads : List (ReadMember α), members = reads.map Prod.snd ∧
      entries = reads.map Prod.fst ∧
      ∀ read ∈ reads, KeptText read.1.1 read.2.1 ∧ part read.2.1 read.1.2 read.2.2 := by
  generalize whole : text = read at isObject
  obtain ⟨blank, sequence, _⟩ := written
  obtain ⟨blankAgain, members, _⟩ := isObject
  obtain ⟨reads, rfl, others, each⟩ := members.written passed
  obtain ⟨_, inside⟩ := same_of_blank blank blankAgain (by decide) (by decide) whole
  exact ⟨reads, rfl, sequence.same others inside, each⟩

end Readings

end TaskQueue.Json
