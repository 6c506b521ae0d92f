import TaskQueue.Proofs.Json.Decoded

/-! Skipping passes over exactly one well-formed value of any depth. The brackets that are open when
a value begins call for what closes them after it; this is the invariant of the three functions. -/

namespace TaskQueue.Json

theorem skipScalar_sound {next : UInt8} {bytes rest : Bytes}
    (done : skipScalar next bytes = .ok rest) :
    ∃ token, PassedScalar token ∧ next :: bytes = token ++ rest := by
  unfold skipScalar at done
  split at done
  · rename_i isNext
    obtain rfl := readWord_sound done
    exact ⟨_, .null, by rw [isNext]; rfl⟩
  · split at done
    · rename_i isNext
      obtain rfl := readWord_sound done
      exact ⟨_, .true, by rw [isNext]; rfl⟩
    · split at done
      · rename_i isNext
        obtain rfl := readWord_sound done
        exact ⟨_, .false, by rw [isNext]; rfl⟩
      · split at done
        · rename_i isMark
          obtain ⟨content, meant, spelled, rfl⟩ := skipText_iff.mp done
          exact ⟨_, .text ⟨content, meant, spelled, rfl⟩, by simp [isMark]⟩
        · split at done
          · obtain ⟨token, parts, isNumeral, whole⟩ := skipNumber_sound done
            exact ⟨token, .number isNumeral, whole⟩
          · simp at done

theorem PassedScalar.starts {token : Bytes} (scalar : PassedScalar token) :
    ∃ next rest, token = next :: rest ∧ StartsScalar next := by
  cases scalar with
  | null => exact ⟨byte 'n', _, rfl, Or.inl rfl⟩
  | true => exact ⟨byte 't', _, rfl, Or.inr (Or.inl rfl)⟩
  | false => exact ⟨byte 'f', _, rfl, Or.inr (Or.inr (Or.inl rfl))⟩
  | text isText =>
      obtain ⟨content, meant, _, rfl⟩ := isText
      exact ⟨byte '"', _, rfl, Or.inr (Or.inr (Or.inr (Or.inl rfl)))⟩
  | number isNumeral =>
      obtain ⟨next, rest, whole, starts⟩ := isNumeral.starts
      exact ⟨next, rest, whole, Or.inr (Or.inr (Or.inr (Or.inr starts)))⟩

theorem skipScalar_complete {next : UInt8} {more rest : Bytes}
    (scalar : PassedScalar (next :: more)) (ends : Ends rest) :
    skipScalar next (more ++ rest) = .ok rest := by
  generalize whole : next :: more = token at scalar
  cases scalar with
  | null =>
      obtain ⟨rfl, rfl⟩ := List.cons.inj whole
      exact readWord_complete ['u', 'l', 'l'] rest
  | true =>
      obtain ⟨rfl, rfl⟩ := List.cons.inj whole
      exact readWord_complete ['r', 'u', 'e'] rest
  | false =>
      obtain ⟨rfl, rfl⟩ := List.cons.inj whole
      exact readWord_complete ['a', 'l', 's', 'e'] rest
  | text isText =>
      obtain ⟨content, meant, spelled, rfl⟩ := isText
      obtain ⟨rfl, rfl⟩ := List.cons.inj whole
      unfold skipScalar
      rw [if_neg (by decide), if_neg (by decide), if_neg (by decide), if_pos rfl]
      exact skipText_iff.mpr ⟨content, meant, spelled, by simp⟩
  | number isNumeral =>
      subst whole
      obtain ⟨first, others, whole, starts⟩ := isNumeral.starts
      obtain ⟨rfl, rfl⟩ := List.cons.inj whole
      have skipped := skipNumber_complete isNumeral ends
      rw [List.cons_append] at skipped
      unfold skipScalar
      rw [if_neg (starts.ne (by decide)), if_neg (starts.ne (by decide)),
        if_neg (starts.ne (by decide)), if_neg (starts.ne (by decide)),
        if_pos starts, skipped]

theorem Bracket.ends_closing (bracket : Bracket) (rest : Bytes) :
    Ends (bracket.closing :: rest) := by
  cases bracket with
  | list => exact ends_list rest
  | object => exact ends_object rest

def Bracket.Unread : Bracket → Type
  | .list => Unit
  | .object => Unit × Unit

def PassedItem (held : Bytes → Unit → Prop) : (bracket : Bracket) → Bytes → bracket.Unread → Prop
  | .list => held
  | .object => MemberText passed.name fun _ => held

theorem passed_container_iff {held : Bytes → Unit → Prop} {token : Bytes} :
    passed.Container held token () ↔ ∃ bracket inner values,
      Enclosed (PassedItem held bracket) inner values ∧
        token = bracket.opening :: (inner ++ [bracket.closing]) := by
  constructor
  · intro container
    cases container with
    | list sequence => exact ⟨.list, _, _, sequence, rfl⟩
    | object sequence => exact ⟨.object, _, _, sequence, rfl⟩
  · rintro ⟨bracket, inner, values, sequence, rfl⟩
    cases bracket with
    | list => exact .list sequence
    | object => exact .object sequence

theorem PassedItem.imp {held other : Bytes → Unit → Prop}
    (weaker : ∀ {token value}, held token value → other token value) {bracket : Bracket}
    {token : Bytes} {value : bracket.Unread} (item : PassedItem held bracket token value) :
    PassedItem other bracket token value := by
  cases bracket with
  | list => exact weaker item
  | object => exact MemberText.imp weaker item

abbrev PassedUnread (token : Bytes) (_ : Unit) : Prop := PassedValue token

/-- The items of a sequence have a number of levels in common that is enough for each. -/
theorem Sequence.commonLevels {bracket : Bracket} {first : Bool} {inner : Bytes}
    {values : List bracket.Unread}
    (sequence : Sequence (PassedItem PassedUnread bracket) first inner values) :
    ∃ levels, Sequence (PassedItem (passed.Value levels) bracket) first inner values := by
  induction sequence with
  | nil blank => exact ⟨0, .nil blank⟩
  | cons lead item sequence ih =>
      rename_i first before token rest value values
      obtain ⟨levels, others⟩ := ih
      have own : ∃ levels, PassedItem (passed.Value levels) bracket token value := by
        cases bracket with
        | list => exact item
        | object =>
            obtain ⟨isName, ⟨before, after, levels, isValue⟩⟩ := item
            refine ⟨levels, ?_⟩
            change MemberText passed.name (fun _ => passed.Value levels) _ _
            exact .mk isName (.mk before after isValue)
      obtain ⟨ownLevels, item⟩ := own
      refine ⟨max ownLevels levels, .cons lead ?_ (others.imp ?_)⟩
      · exact item.imp (Dialect.Value.mono (Nat.le_max_left _ _))
      · exact PassedItem.imp (Dialect.Value.mono (Nat.le_max_right _ _))

theorem PassedValue.ofContainer {bracket : Bracket} {inner : Bytes} {values : List bracket.Unread}
    (sequence : Enclosed (PassedItem PassedUnread bracket) inner values) :
    PassedValue (bracket.opening :: (inner ++ [bracket.closing])) := by
  obtain ⟨levels, sequence⟩ := Sequence.commonLevels sequence
  exact ⟨levels + 1, Or.inr (passed_container_iff.mpr ⟨bracket, inner, values, sequence, rfl⟩)⟩

theorem PassedItem.starts {levels : Nat} {bracket : Bracket} {token : Bytes}
    {value : bracket.Unread} (item : PassedItem (passed.Value levels) bracket token value) :
    ∃ next rest, token = next :: rest ∧ isSpace next = false ∧ next ≠ bracket.closing := by
  cases bracket with
  | list => exact Dialect.Value.starts PassedScalar.starts levels item
  | object =>
      obtain ⟨⟨content, meant, _, rfl⟩, _⟩ := item
      exact ⟨byte '"', _, rfl, by decide, by decide⟩

theorem enter_sound (held : Bytes → Unit → Prop) {bracket : Bracket}
    {bytes space token rest : Bytes}
    (entered : enter bracket bytes = .ok (space ++ (token ++ rest))) (blank : Blank space)
    (isValue : held token ()) :
    ∃ before item value, Blank before ∧ PassedItem held bracket item value ∧
      bytes = before ++ (item ++ rest) := by
  cases bracket with
  | list =>
      obtain rfl := Except.ok.inj entered
      exact ⟨space, token, (), blank, isValue, rfl⟩
  | object =>
      simp only [enter, skipName] at entered
      split at entered
      · simp at entered
      · rename_i next others skipped
        obtain ⟨before, beforeBlank, rfl⟩ := skipSpace_eq skipped
        split at entered
        · rename_i isMark
          subst next
          split at entered
          · simp at entered
          · rename_i after named
            obtain ⟨content, meant, spelled, rfl⟩ := skipText_iff.mp named
            obtain ⟨text, isText, rfl⟩ := ColonText.ofColon entered blank isValue
            refine ⟨before, _, ((), ()), beforeBlank,
              MemberText.mk ⟨content, meant, spelled, rfl⟩ isText, ?_⟩
            simp
        · simp at entered

theorem enter_complete {held : Bytes → Unit → Prop} {bracket : Bracket} {before item : Bytes}
    {value : bracket.Unread} (beforeBlank : Blank before)
    (isItem : PassedItem held bracket item value) :
    ∃ space token, Blank space ∧ held token () ∧
      ∀ rest, enter bracket (before ++ (item ++ rest)) = .ok (space ++ (token ++ rest)) := by
  cases bracket with
  | list => exact ⟨before, item, beforeBlank, isItem, fun _ => rfl⟩
  | object =>
      obtain ⟨⟨content, meant, spelled, rfl⟩, isText⟩ := isItem
      rename_i text key inner
      obtain ⟨space, token, blank, isValue, colon⟩ := isText.readColon
      refine ⟨space, token, blank, isValue, fun rest => ?_⟩
      have named : skipText (content ++ byte '"' :: (text ++ rest)) = .ok (text ++ rest) :=
        skipText_iff.mpr ⟨content, meant, spelled, rfl⟩
      simp only [enter, skipName, List.cons_append, List.append_assoc, List.nil_append,
        skipSpace_blank_cons beforeBlank (show isSpace (byte '"') = false by decide), if_true,
        named, colon]

section Steps

variable {opened : List Bracket} {bracket : Bracket} {bytes rest after : Bytes} {next : UInt8}

theorem skipValue_opening (skipped : skipSpace bytes = bracket.opening :: rest) :
    skipValue opened bytes = skipFirst bracket opened rest := by
  rw [skipValue]
  split
  · simp_all
  · rename_i head tail found
    obtain ⟨rfl, rfl⟩ := List.cons.inj (skipped.symm.trans found)
    cases bracket with
    | list => exact if_pos rfl
    | object => rw [if_neg (by decide), if_pos (by rfl)]

theorem skipValue_scalar (skipped : skipSpace bytes = next :: rest) (notList : next ≠ byte '[')
    (notObject : next ≠ byte '\x7b') (scalar : skipScalar next rest = .ok after) :
    skipValue opened bytes = skipAfter opened after := by
  rw [skipValue]
  split
  · simp_all
  · rename_i head tail found
    obtain ⟨rfl, rfl⟩ := List.cons.inj (skipped.symm.trans found)
    rw [if_neg notList, if_neg notObject]
    split
    · simp_all
    · rename_i left read
      rw [Except.ok.inj (scalar.symm.trans read)]

theorem skipFirst_close (skipped : skipSpace bytes = bracket.closing :: rest) :
    skipFirst bracket opened bytes = skipAfter opened rest := by
  rw [skipFirst]
  split
  · simp_all
  · rename_i head tail found
    obtain ⟨rfl, rfl⟩ := List.cons.inj (skipped.symm.trans found)
    exact if_pos rfl

theorem skipFirst_enter (skipped : skipSpace bytes = next :: rest)
    (notClose : next ≠ bracket.closing) (entered : enter bracket (next :: rest) = .ok after) :
    skipFirst bracket opened bytes = skipValue (bracket :: opened) after := by
  rw [skipFirst]
  split
  · simp_all
  · rename_i head tail found
    obtain ⟨rfl, rfl⟩ := List.cons.inj (skipped.symm.trans found)
    rw [if_neg notClose]
    split
    · simp_all
    · rename_i left reached
      rw [Except.ok.inj (entered.symm.trans reached)]

theorem skipAfter_comma (skipped : skipSpace bytes = byte ',' :: rest)
    (entered : enter bracket rest = .ok after) :
    skipAfter (bracket :: opened) bytes = skipValue (bracket :: opened) after := by
  rw [skipAfter]
  split
  · simp_all
  · rename_i head tail found
    obtain ⟨rfl, rfl⟩ := List.cons.inj (skipped.symm.trans found)
    rw [if_pos rfl]
    split
    · simp_all
    · rename_i left reached
      rw [Except.ok.inj (entered.symm.trans reached)]

theorem skipAfter_close (skipped : skipSpace bytes = bracket.closing :: rest) :
    skipAfter (bracket :: opened) bytes = skipAfter opened rest := by
  rw [skipAfter]
  split
  · simp_all
  · rename_i head tail found
    obtain ⟨rfl, rfl⟩ := List.cons.inj (skipped.symm.trans found)
    rw [if_neg (by cases bracket <;> decide), if_pos rfl]

end Steps

/-- What closes the open brackets, innermost first: further items, then the closing bracket. -/
inductive Closes : List Bracket → Bytes → Prop
  | nil : Closes [] []
  | cons {bracket : Bracket} {outer : List Bracket} {inner tail : Bytes}
      {values : List bracket.Unread} :
      Sequence (PassedItem PassedUnread bracket) false inner values →
      Closes outer tail → Closes (bracket :: outer) (inner ++ bracket.closing :: tail)

/-- What stands between a spot inside the open brackets and the end of the outermost one. -/
def Spot.Covers (opened : List Bracket) (bytes rest : Bytes) : Spot → Prop
  | .value => ∃ space token tail, Blank space ∧ PassedValue token ∧ Closes opened tail ∧
      bytes = space ++ (token ++ (tail ++ rest))
  | .first bracket => ∃ inner tail values, Enclosed (PassedItem PassedUnread bracket) inner values ∧
      Closes opened tail ∧ bytes = inner ++ bracket.closing :: (tail ++ rest)
  | .after => ∃ tail, Closes opened tail ∧ bytes = tail ++ rest

section Cover

variable {opened : List Bracket} {bracket : Bracket} {bytes inner after rest : Bytes} {next : UInt8}

theorem Spot.covers_scalar (skipped : skipSpace bytes = next :: inner)
    (scalar : skipScalar next inner = .ok after) (going : Spot.after.Covers opened after rest) :
    Spot.value.Covers opened bytes rest := by
  obtain ⟨space, blank, rfl⟩ := skipSpace_eq skipped
  obtain ⟨token, isScalar, whole⟩ := skipScalar_sound scalar
  obtain ⟨tail, closes, rfl⟩ := going
  exact ⟨space, token, tail, blank, ⟨0, isScalar⟩, closes, by rw [whole]⟩

theorem Spot.covers_comma (skipped : skipSpace bytes = byte ',' :: inner)
    (entered : enter bracket inner = .ok after)
    (inside : Spot.value.Covers (bracket :: opened) after rest) :
    Spot.after.Covers (bracket :: opened) bytes rest := by
  obtain ⟨before, beforeBlank, rfl⟩ := skipSpace_eq skipped
  obtain ⟨space, token, tail, blank, isValue, closes, rfl⟩ := inside
  obtain ⟨between, item, value, betweenBlank, isItem, rfl⟩ :=
    enter_sound PassedUnread entered blank isValue
  cases closes with
  | cons others closes =>
      refine ⟨_, .cons (.cons (.later beforeBlank betweenBlank) isItem others) closes, ?_⟩
      simp

theorem Spot.covers_enter (skipped : skipSpace bytes = next :: inner)
    (entered : enter bracket (next :: inner) = .ok after)
    (inside : Spot.value.Covers (bracket :: opened) after rest) :
    (Spot.first bracket).Covers opened bytes rest := by
  obtain ⟨before, beforeBlank, rfl⟩ := skipSpace_eq skipped
  obtain ⟨space, token, tail, blank, isValue, closes, rfl⟩ := inside
  obtain ⟨between, item, value, betweenBlank, isItem, whole⟩ :=
    enter_sound PassedUnread entered blank isValue
  rw [whole]
  cases closes with
  | cons others closes =>
      refine ⟨_, _, _, .cons (.first (beforeBlank.append betweenBlank)) isItem others, closes, ?_⟩
      simp

end Cover

theorem Skips.sound {spot : Spot} {opened : List Bracket} {bytes rest : Bytes}
    (skips : Skips spot opened bytes rest) : spot.Covers opened bytes rest := by
  induction skips with
  | opening skipped _ ih =>
      obtain ⟨space, blank, rfl⟩ := skipSpace_eq skipped
      obtain ⟨content, tail, values, sequence, closes, rfl⟩ := ih
      exact ⟨space, _, tail, blank, .ofContainer sequence, closes, by simp⟩
  | scalar skipped scalar _ ih => exact Spot.covers_scalar skipped scalar ih
  | empty skipped _ ih =>
      obtain ⟨space, blank, rfl⟩ := skipSpace_eq skipped
      obtain ⟨tail, closes, rfl⟩ := ih
      exact ⟨space, tail, [], .nil blank, closes, rfl⟩
  | enter skipped entered _ ih => exact Spot.covers_enter skipped entered ih
  | finished => exact ⟨[], .nil, rfl⟩
  | comma skipped entered _ ih => exact Spot.covers_comma skipped entered ih
  | close skipped _ ih =>
      obtain ⟨space, blank, rfl⟩ := skipSpace_eq skipped
      obtain ⟨tail, closes, rfl⟩ := ih
      exact ⟨_, .cons (.nil blank) closes, by simp⟩

theorem skipAfter_complete {held : Bytes → Unit → Prop} {bracket : Bracket}
    (values : ∀ {token}, held token () → ∀ opened space rest, Blank space → Ends rest →
      skipValue opened (space ++ (token ++ rest)) = skipAfter opened rest)
    {inner : Bytes} {items : List bracket.Unread}
    (sequence : Sequence (PassedItem held bracket) false inner items) (opened : List Bracket)
    (rest : Bytes) :
    skipAfter (bracket :: opened) (inner ++ bracket.closing :: rest) = skipAfter opened rest := by
  generalize later : false = first at sequence
  induction sequence with
  | nil blank =>
      exact skipAfter_close (skipSpace_blank_cons blank (by cases bracket <;> decide) rest)
  | cons lead isItem others ih =>
      subst later
      cases lead with
      | later beforeBlank betweenBlank =>
          rename_i token inner value items before between
          obtain ⟨space, value, blank, isValue, entered⟩ := enter_complete betweenBlank isItem
          have ends := others.ends (bracket.ends_closing rest)
          rw [List.append_assoc, List.append_assoc, List.cons_append, List.append_assoc]
          rw [skipAfter_comma (skipSpace_blank_cons beforeBlank (by decide) _) (entered _)]
          rw [values isValue _ _ _ blank ends]
          exact ih rfl

theorem skipFirst_complete {levels : Nat} {bracket : Bracket}
    (values : ∀ {token}, passed.Value levels token () → ∀ opened space rest, Blank space →
      Ends rest → skipValue opened (space ++ (token ++ rest)) = skipAfter opened rest)
    {inner : Bytes} {items : List bracket.Unread}
    (sequence : Enclosed (PassedItem (passed.Value levels) bracket) inner items)
    (opened : List Bracket) (rest : Bytes) :
    skipFirst bracket opened (inner ++ bracket.closing :: rest) = skipAfter opened rest := by
  cases sequence with
  | nil blank =>
      exact skipFirst_close (skipSpace_blank_cons blank (by cases bracket <;> decide) rest)
  | cons lead isItem others =>
      cases lead with
      | first leadBlank =>
          rename_i before token inner item items
          obtain ⟨next, more, starts, notSpace, notClose⟩ := isItem.starts
          obtain ⟨space, value, blank, isValue, entered⟩ := enter_complete blank_nil isItem
          have ends := others.ends (bracket.ends_closing rest)
          have entered := entered (inner ++ bracket.closing :: rest)
          rw [starts, List.nil_append, List.cons_append] at entered
          rw [starts, List.append_assoc, List.append_assoc, List.cons_append]
          rw [skipFirst_enter (skipSpace_blank_cons leadBlank notSpace _) notClose entered]
          rw [values isValue _ _ _ blank ends]
          exact skipAfter_complete values others opened rest

theorem skipValue_passedScalar {space token rest : Bytes} (scalar : PassedScalar token)
    (opened : List Bracket) (blank : Blank space) (ends : Ends rest) :
    skipValue opened (space ++ (token ++ rest)) = skipAfter opened rest := by
  obtain ⟨next, more, rfl, starts⟩ := scalar.starts
  obtain ⟨notSpace, _, notList, notObject⟩ := starts.apart
  exact skipValue_scalar (skipSpace_blank_cons blank notSpace _) notList notObject
    (skipScalar_complete scalar ends)

theorem skipValue_complete (levels : Nat) {token : Bytes} (isValue : passed.Value levels token ())
    (opened : List Bracket) (space rest : Bytes) (blank : Blank space) (ends : Ends rest) :
    skipValue opened (space ++ (token ++ rest)) = skipAfter opened rest := by
  induction levels generalizing token opened space rest with
  | zero => exact skipValue_passedScalar isValue opened blank ends
  | succ levels ih =>
      rcases isValue with scalar | container
      · exact skipValue_passedScalar scalar opened blank ends
      · obtain ⟨bracket, inner, items, sequence, rfl⟩ := passed_container_iff.mp container
        have skipped : skipSpace (space ++ ((bracket.opening :: (inner ++ [bracket.closing])) ++
            rest)) = bracket.opening :: (inner ++ bracket.closing :: rest) := by
          rw [List.cons_append, List.append_assoc]
          exact skipSpace_blank_cons blank (by cases bracket <;> decide) _
        rw [skipValue_opening skipped]
        exact skipFirst_complete ih sequence opened rest

theorem skipJson_sound {bytes rest : Bytes} (done : skipJson bytes = .ok rest) :
    ∃ space token, Blank space ∧ PassedValue token ∧ bytes = space ++ (token ++ rest) := by
  obtain ⟨space, token, tail, blank, isValue, closes, rfl⟩ := (skips_value done).sound
  cases closes
  exact ⟨space, token, blank, isValue, rfl⟩

theorem skipJson_complete {space token rest : Bytes} (blank : Blank space)
    (isValue : PassedValue token) (ends : Ends rest) :
    skipJson (space ++ (token ++ rest)) = .ok rest := by
  obtain ⟨levels, isValue⟩ := isValue
  rw [skipJson, skipValue_complete levels isValue [] space rest blank ends, skipAfter]

end TaskQueue.Json
