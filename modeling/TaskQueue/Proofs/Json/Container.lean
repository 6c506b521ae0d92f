import TaskQueue.Proofs.Json.Token

/-! Lists and objects are read as the grammar has them, whatever they hold: if a reader follows an
item grammar, then `readItems` follows the lists of such items, and likewise for the actions that
`walk` takes at the members of an object. -/

namespace TaskQueue.Json

theorem skipSpace_cons_iff {bytes rest : Bytes} {next : UInt8} (notSpace : isSpace next = false) :
    skipSpace bytes = next :: rest ↔ ∃ space, Blank space ∧ bytes = space ++ next :: rest := by
  constructor
  · exact skipSpace_eq
  · rintro ⟨space, blank, rfl⟩
    exact skipSpace_blank_cons blank notSpace rest

theorem itemTurn_close_iff {first : Bool} {bytes rest : Bytes} :
    itemTurn first bytes = .ok (.close rest) ↔
      ∃ space, Blank space ∧ bytes = space ++ byte ']' :: rest := by
  rw [← skipSpace_cons_iff (by decide)]
  unfold itemTurn
  constructor
  · intro done
    split at done
    · simp at done
    · rename_i next others skipped
      split at done
      · rename_i isEnd
        simp only [Except.ok.injEq, Turn.close.injEq] at done
        rw [skipped, isEnd, done]
      · split at done
        · simp at done
        · split at done
          · split at done
            · simp at done
            · split at done <;> simp at done
          · simp at done
  · intro skipped
    rw [skipped]
    exact if_pos rfl

theorem itemTurn_item_sound {first : Bool} {bytes rest : Bytes}
    (done : itemTurn first bytes = .ok (.item rest)) :
    ∃ lead, Lead first lead ∧ bytes = lead ++ rest := by
  unfold itemTurn at done
  split at done
  · simp at done
  · rename_i next others skipped
    obtain ⟨before, beforeBlank, rfl⟩ := skipSpace_eq skipped
    split at done
    · simp at done
    · split at done
      · rename_i isFirst
        simp only [Except.ok.injEq, Turn.item.injEq] at done
        subst rest isFirst
        exact ⟨before, .first beforeBlank, rfl⟩
      · rename_i notFirst
        rw [Bool.not_eq_true] at notFirst
        subst notFirst
        split at done
        · rename_i isComma
          subst next
          split at done
          · simp at done
          · rename_i after more skippedAgain
            obtain ⟨between, betweenBlank, rfl⟩ := skipSpace_eq skippedAgain
            split at done
            · simp at done
            · simp only [Except.ok.injEq, Turn.item.injEq] at done
              subst rest
              exact ⟨_, .later beforeBlank betweenBlank, by simp⟩
        · simp at done

theorem itemTurn_item_complete {first : Bool} {lead rest : Bytes} {next : UInt8}
    (isLead : Lead first lead) (notSpace : isSpace next = false) (notEnd : next ≠ byte ']') :
    itemTurn first (lead ++ next :: rest) = .ok (.item (next :: rest)) := by
  unfold itemTurn
  cases isLead with
  | first blank =>
      rw [skipSpace_blank_cons blank notSpace]
      dsimp only
      rw [if_neg notEnd, if_pos rfl]
  | later beforeBlank betweenBlank =>
      rw [List.append_assoc, List.cons_append, skipSpace_blank_cons beforeBlank (by decide)]
      dsimp only
      rw [if_neg (by decide), if_neg (by decide), if_pos rfl,
        skipSpace_blank_cons betweenBlank notSpace]
      exact if_neg notEnd

theorem readName_iff {bytes rest : Bytes} {name : String} :
    readName bytes = .ok (.member name rest) ↔ readText bytes = .ok (name, rest) := by
  unfold readName
  split <;> simp_all

theorem memberTurn_close_iff {first : Bool} {bytes rest : Bytes} :
    memberTurn first bytes = .ok (.close rest) ↔
      ∃ space, Blank space ∧ bytes = space ++ byte '\x7d' :: rest := by
  rw [← skipSpace_cons_iff (by decide)]
  unfold memberTurn
  constructor
  · intro done
    split at done
    · simp at done
    · rename_i next others skipped
      split at done
      · rename_i isEnd
        simp only [Except.ok.injEq, MemberTurn.close.injEq] at done
        rw [skipped, isEnd, done]
      · split at done
        · split at done
          · exact absurd done readName_not_close
          · simp at done
        · split at done
          · split at done
            · simp at done
            · split at done
              · exact absurd done readName_not_close
              · split at done <;> simp at done
          · simp at done
  · intro skipped
    rw [skipped]
    exact if_pos rfl

theorem memberTurn_member_sound {first : Bool} {bytes rest : Bytes} {name : String}
    (done : memberTurn first bytes = .ok (.member name rest)) :
    ∃ lead token, Lead first lead ∧ KeptText token name ∧ bytes = lead ++ (token ++ rest) := by
  have named {others : Bytes} (read : readName others = .ok (.member name rest)) :
      ∃ token, KeptText token name ∧ byte '"' :: others = token ++ rest := by
    obtain ⟨content, spelled, rfl⟩ := readText_iff.mp (readName_iff.mp read)
    exact ⟨_, ⟨content, spelled, rfl⟩, by simp⟩
  unfold memberTurn at done
  split at done
  · simp at done
  · rename_i next others skipped
    obtain ⟨before, beforeBlank, rfl⟩ := skipSpace_eq skipped
    split at done
    · simp at done
    · split at done
      · rename_i isFirst
        split at done
        · rename_i isMark
          subst next isFirst
          obtain ⟨token, isName, whole⟩ := named done
          exact ⟨before, token, .first beforeBlank, isName, by rw [whole]⟩
        · simp at done
      · rename_i notFirst
        rw [Bool.not_eq_true] at notFirst
        subst notFirst
        split at done
        · rename_i isComma
          subst next
          split at done
          · simp at done
          · rename_i after more skippedAgain
            obtain ⟨between, betweenBlank, rfl⟩ := skipSpace_eq skippedAgain
            split at done
            · rename_i isMark
              subst after
              obtain ⟨token, isName, whole⟩ := named done
              exact ⟨_, token, .later beforeBlank betweenBlank, isName, by simp [whole]⟩
            · split at done <;> simp at done
        · simp at done

theorem memberTurn_member_complete {first : Bool} {lead token : Bytes} {name : String}
    (isLead : Lead first lead) (isName : KeptText token name) (rest : Bytes) :
    memberTurn first (lead ++ (token ++ rest)) = .ok (.member name rest) := by
  obtain ⟨content, spelled, rfl⟩ := isName
  have named : readName (content ++ byte '"' :: rest) = .ok (.member name rest) :=
    readName_iff.mpr (readText_iff.mpr ⟨content, spelled, rfl⟩)
  unfold memberTurn
  rw [List.cons_append, List.append_assoc, List.singleton_append]
  cases isLead with
  | first blank =>
      rw [skipSpace_blank_cons blank (by decide)]
      dsimp only
      rw [if_neg (by decide), if_pos rfl, if_pos rfl, named]
  | later beforeBlank betweenBlank =>
      rw [List.append_assoc, List.cons_append, skipSpace_blank_cons beforeBlank (by decide)]
      dsimp only
      rw [if_neg (by decide), if_neg (by decide), if_pos rfl,
        skipSpace_blank_cons betweenBlank (by decide)]
      dsimp only
      rw [if_pos rfl, named]

theorem readColon_iff {bytes rest : Bytes} :
    readColon bytes = .ok rest ↔ ∃ space, Blank space ∧ bytes = space ++ byte ':' :: rest := by
  rw [← skipSpace_cons_iff (by decide)]
  unfold readColon
  constructor
  · intro done
    split at done
    · simp at done
    · rename_i next others skipped
      split at done
      · rename_i isColon
        simp only [Except.ok.injEq] at done
        rw [skipped, isColon, done]
      · simp at done
  · intro skipped
    rw [skipped]
    exact if_pos rfl

theorem ColonText.ofColon {α : Type} {value : Bytes → α → Prop} {bytes space token rest : Bytes}
    {item : α} (colon : readColon bytes = .ok (space ++ (token ++ rest))) (blank : Blank space)
    (isValue : value token item) : ∃ text, ColonText value text item ∧ bytes = text ++ rest := by
  obtain ⟨before, beforeBlank, rfl⟩ := readColon_iff.mp colon
  exact ⟨_, .mk beforeBlank blank isValue, by simp⟩

theorem ColonText.readColon {α : Type} {value : Bytes → α → Prop} {text : Bytes} {item : α}
    (isText : ColonText value text item) :
    ∃ space token, Blank space ∧ value token item ∧
      ∀ rest, Json.readColon (text ++ rest) = .ok (space ++ (token ++ rest)) := by
  obtain ⟨beforeBlank, afterBlank, isValue⟩ := isText
  rename_i before after token
  refine ⟨after, token, afterBlank, isValue, fun rest => ?_⟩
  exact readColon_iff.mpr ⟨before, beforeBlank, by simp⟩

theorem Lead.ends {lead rest : Bytes} (isLead : Lead false lead) : Ends (lead ++ rest) := by
  cases isLead with
  | later beforeBlank _ =>
      rw [List.append_assoc, List.cons_append]
      exact Ends.blank_append beforeBlank (ends_cons (Or.inr (Or.inl rfl)))

theorem Sequence.ends {α : Type} {item : Bytes → α → Prop} {inner rest : Bytes} {values : List α}
    (sequence : Sequence item false inner values) (ends : Ends rest) : Ends (inner ++ rest) := by
  cases sequence with
  | nil blank => exact Ends.blank_append blank ends
  | cons isLead _ _ =>
      rw [List.append_assoc]
      exact isLead.ends

theorem ends_list (rest : Bytes) : Ends (byte ']' :: rest) :=
  ends_cons (Or.inr (Or.inr (Or.inr (Or.inl rfl))))

theorem ends_object (rest : Bytes) : Ends (byte '\x7d' :: rest) :=
  ends_cons (Or.inr (Or.inr (Or.inr (Or.inr rfl))))

section Lists

variable {α : Type}

/-- The reader takes items, with white space before them, off the front of the bytes, and takes
every item that is followed by something that ends it. -/
structure Reader.Follows (reader : Reader α) (item : Bytes → α → Prop) : Prop where
  sound : ∀ {bytes value rest}, reader.read bytes = .ok (value, rest) →
    ∃ space token, Blank space ∧ item token value ∧ bytes = space ++ (token ++ rest)
  complete : ∀ {space token value rest}, Blank space → item token value → Ends rest →
    reader.read (space ++ (token ++ rest)) = .ok (value, rest)

def Startable (item : Bytes → α → Prop) : Prop :=
  ∀ {token value}, item token value →
    ∃ next rest, token = next :: rest ∧ isSpace next = false ∧ next ≠ byte ']'

theorem Lead.append {first : Bool} {lead space : Bytes} (isLead : Lead first lead)
    (blank : Blank space) : Lead first (lead ++ space) := by
  cases isLead with
  | first before => exact .first (before.append blank)
  | later before after =>
      rw [List.append_assoc, List.cons_append]
      exact .later before (after.append blank)

variable {reader : Reader α} {item : Bytes → α → Prop}

theorem readItems_sound (follows : reader.Follows item) {first : Bool} {bytes rest : Bytes}
    {before values : List α} (done : readItems reader first bytes before = .ok (values, rest)) :
    ∃ inner more, Sequence item first inner more ∧ bytes = inner ++ byte ']' :: rest ∧
      values = before.reverse ++ more := by
  fun_induction readItems reader first bytes before with
  | case1 => simp at done
  | case2 first bytes before after turn =>
      simp only [Except.ok.injEq, Prod.mk.injEq] at done
      obtain ⟨rfl, rfl⟩ := done
      obtain ⟨space, blank, rfl⟩ := itemTurn_close_iff.mp turn
      exact ⟨space, [], .nil blank, rfl, (List.append_nil _).symm⟩
  | case3 => simp at done
  | case4 first bytes before middle turn value after read ih =>
      obtain ⟨lead, isLead, rfl⟩ := itemTurn_item_sound turn
      obtain ⟨space, token, blank, isItem, rfl⟩ := follows.sound read
      obtain ⟨inner, more, sequence, rfl, rfl⟩ := ih done
      exact ⟨_, _, .cons (isLead.append blank) isItem sequence, by simp, by simp⟩

theorem readItems_close {first : Bool} {bytes rest : Bytes}
    (turn : itemTurn first bytes = .ok (.close rest)) (before : List α) :
    readItems reader first bytes before = .ok (before.reverse, rest) := by
  rw [readItems]
  split
  · simp_all
  · rename_i after found
    obtain rfl := Turn.close.inj (Except.ok.inj (turn.symm.trans found))
    rfl
  · simp_all

theorem readItems_item {first : Bool} {bytes rest after : Bytes} {value : α}
    (turn : itemTurn first bytes = .ok (.item rest)) (read : reader.read rest = .ok (value, after))
    (before : List α) :
    readItems reader first bytes before = readItems reader false after (value :: before) := by
  rw [readItems]
  split
  · simp_all
  · simp_all
  · rename_i left found
    obtain rfl := Turn.item.inj (Except.ok.inj (turn.symm.trans found))
    split
    · simp_all
    · rename_i value' after' again
      obtain ⟨rfl, rfl⟩ := Prod.mk.inj (Except.ok.inj (read.symm.trans again))
      rfl

theorem readItems_complete (follows : reader.Follows item) (startable : Startable item)
    {first : Bool} {inner : Bytes} {values : List α} (sequence : Sequence item first inner values)
    (before : List α) (rest : Bytes) :
    readItems reader first (inner ++ byte ']' :: rest) before =
      .ok (before.reverse ++ values, rest) := by
  induction sequence generalizing before with
  | nil blank =>
      rw [List.append_nil]
      exact readItems_close (itemTurn_close_iff.mpr ⟨_, blank, rfl⟩) before
  | cons isLead isItem others ih =>
      rename_i first lead token inner value values
      obtain ⟨next, more, rfl, notSpace, notEnd⟩ := startable isItem
      have turn : itemTurn first (lead ++ ((next :: more) ++ (inner ++ byte ']' :: rest))) =
          .ok (.item ((next :: more) ++ (inner ++ byte ']' :: rest))) :=
        itemTurn_item_complete isLead notSpace notEnd
      have read := follows.complete blank_nil isItem (others.ends (ends_list rest))
      rw [List.append_assoc, List.append_assoc, readItems_item turn read, ih]
      simp

end Lists

section Objects

variable {σ α : Type}

structure Action.Follows (action : Action σ) (value : String → Bytes → α → Prop)
    (change : σ → String × α → σ) : Prop where
  sound : ∀ {name state bytes rest after}, action.act name state bytes = (.ok rest, after) →
    ∃ token item, ColonText (value name) token item ∧ bytes = token ++ rest ∧
      after = change state (name, item)
  complete : ∀ {name token item rest} (state : σ), ColonText (value name) token item → Ends rest →
    action.act name state (token ++ rest) = (.ok rest, change state (name, item))

variable {action : Action σ} {value : String → Bytes → α → Prop} {change : σ → String × α → σ}

theorem walk_sound (follows : action.Follows value change) {first : Bool} {state after : σ}
    {bytes rest : Bytes} (done : walk action first state bytes = (.ok rest, after)) :
    ∃ inner members, Sequence (MemberText KeptText value) first inner members ∧
      bytes = inner ++ byte '\x7d' :: rest ∧ after = members.foldl change state := by
  fun_induction walk action first state bytes with
  | case1 => simp at done
  | case2 first state bytes left turn =>
      simp only [Prod.mk.injEq, Except.ok.injEq] at done
      obtain ⟨rfl, rfl⟩ := done
      obtain ⟨space, blank, rfl⟩ := memberTurn_close_iff.mp turn
      exact ⟨space, [], .nil blank, rfl, rfl⟩
  | case3 => simp at done
  | case4 first state bytes name middle turn left acted ih =>
      obtain ⟨lead, nameToken, isLead, isName, rfl⟩ := memberTurn_member_sound turn
      have step : action.act name state middle =
          (.ok left, (action.act name state middle).2) := Prod.ext acted rfl
      obtain ⟨token, item, isValue, rfl, changed⟩ := follows.sound step
      obtain ⟨inner, members, sequence, rfl, rfl⟩ := ih done
      rw [changed]
      exact ⟨_, _, .cons isLead (.mk isName isValue) sequence, by simp, rfl⟩

theorem walk_close {first : Bool} {bytes rest : Bytes}
    (turn : memberTurn first bytes = .ok (.close rest)) (state : σ) :
    walk action first state bytes = (.ok rest, state) := by
  rw [walk]
  split
  · simp_all
  · rename_i after found
    obtain rfl := MemberTurn.close.inj (Except.ok.inj (turn.symm.trans found))
    rfl
  · simp_all

theorem walk_member {first : Bool} {bytes rest : Bytes} {name : String}
    (turn : memberTurn first bytes = .ok (.member name rest)) (state : σ) :
    walk action first state bytes =
      match action.act name state rest with
      | (.error fault, after) => (.error fault, after)
      | (.ok left, after) => walk action false after left := by
  rw [walk]
  split
  · simp_all
  · simp_all
  · rename_i name' rest' found
    obtain ⟨rfl, rfl⟩ := MemberTurn.member.inj (Except.ok.inj (turn.symm.trans found))
    generalize acted : action.act name state rest = result
    obtain ⟨result, after⟩ := result
    cases result with
    | error fault =>
        split
        · simp_all
        · simp_all
    | ok left =>
        split
        · simp_all
        · simp_all

theorem walk_complete (follows : action.Follows value change) {first : Bool} {inner : Bytes}
    {members : List (String × α)}
    (sequence : Sequence (MemberText KeptText value) first inner members) (state : σ)
    (rest : Bytes) :
    walk action first state (inner ++ byte '\x7d' :: rest) =
      (.ok rest, members.foldl change state) := by
  induction sequence generalizing state with
  | nil blank => exact walk_close (memberTurn_close_iff.mpr ⟨_, blank, rfl⟩) state
  | cons isLead isMember others ih =>
      obtain ⟨isName, isValue⟩ := isMember
      rename_i first lead inner values nameToken token name item
      have turn := memberTurn_member_complete isLead isName
        (token ++ (inner ++ byte '\x7d' :: rest))
      have acted := follows.complete state isValue (others.ends (ends_object rest))
      simp only [List.append_assoc]
      rw [walk_member turn, acted]
      exact ih (change state (name, item))

end Objects

end TaskQueue.Json
