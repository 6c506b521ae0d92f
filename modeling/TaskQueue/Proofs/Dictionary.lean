import TaskQueue.Dictionary

/-! Entries in order are known by what is found in them, and what is found after adding entries one
by one is the last that was added under the key. -/

namespace TaskQueue

def lastOf {β γ : Type} (choose : β → Option γ) (items : List β) : Option γ :=
  (items.filterMap choose).getLast?

theorem lastOf_cons {β γ : Type} (choose : β → Option γ) (item : β) (items : List β) :
    lastOf choose (item :: items) = (lastOf choose items).or (choose item) := by
  unfold lastOf
  cases chosen : choose item with
  | none => simp [chosen]
  | some value =>
      rw [List.filterMap_cons_some chosen, List.getLast?_cons]
      cases (items.filterMap choose).getLast? <;> rfl

theorem exists_of_lastOf {β γ : Type} {choose : β → Option γ} {items : List β} {value : γ}
    (last : lastOf choose items = some value) : ∃ item ∈ items, choose item = some value :=
  List.mem_filterMap.mp (List.mem_of_getLast? last)

theorem lastOf_filter {β γ : Type} {choose : β → Option γ} {keep : β → Bool} {items : List β}
    (nothing : ∀ item, keep item = false → choose item = none) :
    lastOf choose (items.filter keep) = lastOf choose items := by
  unfold lastOf
  rw [List.filterMap_filter]
  congr 2
  funext item
  cases kept : keep item with
  | false => exact (nothing item kept).symm
  | true => rfl

namespace Entries

variable {α : Type}

def valueAt (key : String) (entry : String × α) : Option α :=
  if entry.1 = key then some entry.2 else none

theorem get?_eq_none {key : String} {entries : List (String × α)}
    (missing : ∀ entry ∈ entries, entry.1 ≠ key) : get? key entries = none := by
  induction entries with
  | nil => rfl
  | cons head rest ih =>
      rw [get?, if_neg (missing head List.mem_cons_self)]
      exact ih fun entry inside => missing entry (List.mem_cons_of_mem head inside)

theorem get?_of_lt {key : String} {entries : List (String × α)}
    (before : ∀ entry ∈ entries, key < entry.1) : get? key entries = none := by
  apply get?_eq_none
  rintro entry inside rfl
  exact String.lt_irrefl _ (before entry inside)

theorem not_lt_head {key : String} {head : String × α} {rest : List (String × α)} {value : α}
    (sorted : KeysIncrease (head :: rest)) (found : get? key (head :: rest) = some value) :
    ¬key < head.1 := by
  intro before
  have missing : get? key (head :: rest) = none := get?_of_lt fun entry inside => by
    rcases List.mem_cons.mp inside with rfl | inRest
    · exact before
    · exact String.lt_trans before ((List.pairwise_cons.mp sorted).1 entry inRest)
  rw [missing] at found
  simp at found

theorem get?_head (head : String × α) (rest : List (String × α)) :
    get? head.1 (head :: rest) = some head.2 := by
  rw [get?, if_pos rfl]

theorem ext_get? {left right : List (String × α)} (leftSorted : KeysIncrease left)
    (rightSorted : KeysIncrease right) (same : ∀ key, get? key left = get? key right) :
    left = right := by
  induction left generalizing right with
  | nil =>
      cases right with
      | nil => rfl
      | cons head rest => simpa [get?] using same head.1
  | cons leftHead leftRest ih =>
      cases right with
      | nil => simpa [get?] using same leftHead.1
      | cons rightHead rightRest =>
          have inRight := (same leftHead.1).symm.trans (get?_head leftHead leftRest)
          have inLeft := (same rightHead.1).trans (get?_head rightHead rightRest)
          have sameKey : leftHead.1 = rightHead.1 := by
            by_cases equal : leftHead.1 = rightHead.1
            · exact equal
            · exact absurd (lt_of_not_lt_of_ne (not_lt_head rightSorted inRight) equal)
                (not_lt_head leftSorted inLeft)
          have sameValue : leftHead.2 = rightHead.2 := by
            rw [sameKey, get?_head] at inRight
            exact (Option.some.inj inRight).symm
          obtain rfl := Prod.ext sameKey sameValue
          obtain ⟨leftBelow, leftRestSorted⟩ := List.pairwise_cons.mp leftSorted
          obtain ⟨rightBelow, rightRestSorted⟩ := List.pairwise_cons.mp rightSorted
          congr 1
          refine ih leftRestSorted rightRestSorted fun key => ?_
          by_cases here : leftHead.1 = key
          · subst key
            rw [get?_of_lt leftBelow, get?_of_lt rightBelow]
          · simpa [get?, here] using same key

theorem get?_of_mem {key : String} {value : α} {entries : List (String × α)}
    (sorted : KeysIncrease entries) (inside : (key, value) ∈ entries) :
    get? key entries = some value := by
  induction entries with
  | nil => simp at inside
  | cons head rest ih =>
      obtain ⟨below, restSorted⟩ := List.pairwise_cons.mp sorted
      rcases List.mem_cons.mp inside with rfl | inRest
      · exact get?_head _ rest
      · have apart : head.1 ≠ key := by
          rintro rfl
          exact String.lt_irrefl head.1 (below (head.1, value) inRest)
        rw [get?, if_neg apart]
        exact ih restSorted inRest

theorem mem_of_get? {key : String} {value : α} {entries : List (String × α)}
    (found : get? key entries = some value) : (key, value) ∈ entries := by
  induction entries with
  | nil => simp [get?] at found
  | cons head rest ih =>
      rw [get?] at found
      split at found
      · rename_i same
        obtain rfl := Option.some.inj found
        exact same ▸ List.mem_cons_self
      · exact List.mem_cons_of_mem head (ih found)

theorem get?_foldl_put (key : String) (entries before : List (String × α)) :
    get? key (entries.foldl (fun sofar entry => put entry.1 entry.2 sofar) before) =
      (lastOf (valueAt key) entries).or (get? key before) := by
  induction entries generalizing before with
  | nil => rfl
  | cons entry rest ih =>
      rw [List.foldl_cons, ih, get?_put, lastOf_cons, valueAt]
      cases lastOf (valueAt key) rest <;> split <;> rfl

theorem foldl_put_sorted (entries : List (String × α)) {before : List (String × α)}
    (sorted : KeysIncrease before) :
    KeysIncrease (entries.foldl (fun sofar entry => put entry.1 entry.2 sofar) before) := by
  induction entries generalizing before with
  | nil => exact sorted
  | cons entry rest ih => exact ih (put_sorted entry.1 entry.2 before sorted)

theorem mem_of_mem_foldl_put {entries before : List (String × α)} {entry : String × α}
    (inside : entry ∈ entries.foldl (fun sofar entry => put entry.1 entry.2 sofar) before) :
    entry ∈ entries ∨ entry ∈ before := by
  induction entries generalizing before with
  | nil => exact Or.inr inside
  | cons first rest ih =>
      rcases ih inside with inRest | added
      · exact Or.inl (List.mem_cons_of_mem first inRest)
      · rcases mem_put first.1 first.2 before entry added with same | old
        · exact Or.inl (by rw [same]; exact List.mem_cons_self)
        · exact Or.inr old

theorem lastOf_sorted {key : String} {entries : List (String × α)}
    (sorted : KeysIncrease entries) : lastOf (valueAt key) entries = get? key entries := by
  induction entries with
  | nil => rfl
  | cons entry rest ih =>
      obtain ⟨below, sorted⟩ := List.pairwise_cons.mp sorted
      rw [lastOf_cons, ih sorted, valueAt, get?]
      by_cases here : entry.1 = key
      · subst key
        rw [if_pos rfl, if_pos rfl, get?_of_lt below]
        rfl
      · rw [if_neg here, if_neg here, Option.or_none]

theorem foldl_put_of_sorted {entries : List (String × α)} (sorted : KeysIncrease entries) :
    entries.foldl (fun sofar entry => put entry.1 entry.2 sofar) [] = entries := by
  refine ext_get? (foldl_put_sorted entries List.Pairwise.nil) sorted fun key => ?_
  rw [get?_foldl_put, lastOf_sorted sorted, get?, Option.or_none]

end Entries

namespace Dictionary

variable {α : Type}

theorem mem_keys_iff {dictionary : Dictionary α} {key : String} :
    key ∈ dictionary.keys ↔ ∃ value, dictionary.get? key = some value := by
  constructor
  · intro inside
    obtain ⟨entry, taken, rfl⟩ := List.mem_map.mp inside
    exact ⟨entry.2, Entries.get?_of_mem dictionary.sorted taken⟩
  · rintro ⟨value, found⟩
    exact List.mem_map.mpr ⟨(key, value), Entries.mem_of_get? found, rfl⟩

theorem keys_increase (dictionary : Dictionary α) : dictionary.keys.Pairwise (· < ·) :=
  List.pairwise_map.mpr dictionary.sorted

theorem ext_get? {left right : Dictionary α} (same : ∀ key, left.get? key = right.get? key) :
    left = right := by
  obtain ⟨leftEntries, leftSorted⟩ := left
  obtain ⟨rightEntries, rightSorted⟩ := right
  obtain rfl := Entries.ext_get? leftSorted rightSorted same
  rfl

theorem entries_foldl_insert (entries : List (String × α)) (before : Dictionary α) :
    (entries.foldl (fun sofar entry => sofar.insert entry.1 entry.2) before).entries =
      entries.foldl (fun sofar entry => Entries.put entry.1 entry.2 sofar) before.entries := by
  induction entries generalizing before with
  | nil => rfl
  | cons entry rest ih => exact ih (before.insert entry.1 entry.2)

theorem get?_ofList (entries : List (String × α)) (key : String) :
    (ofList entries).get? key = lastOf (Entries.valueAt key) entries := by
  rw [get?, ofList, entries_foldl_insert, Entries.get?_foldl_put]
  exact Option.or_none

theorem ofList_foldl_put (entries : List (String × α)) :
    ofList (entries.foldl (fun sofar entry => Entries.put entry.1 entry.2 sofar) []) =
      ofList entries := by
  refine ext_get? fun key => ?_
  have sorted := Entries.foldl_put_sorted entries List.Pairwise.nil
  rw [get?_ofList, get?_ofList, Entries.lastOf_sorted sorted, Entries.get?_foldl_put]
  exact Option.or_none

theorem ofList_perm {dictionary : Dictionary α} {order : List (String × α)}
    (perm : order.Perm dictionary.entries) : ofList order = dictionary := by
  refine ext_get? fun key => ?_
  rw [get?_ofList, get?]
  cases last : lastOf (Entries.valueAt key) order with
  | none =>
      rw [lastOf, List.getLast?_eq_none_iff, List.filterMap_eq_nil_iff] at last
      rw [Entries.get?_eq_none]
      rintro entry inside rfl
      simpa [Entries.valueAt] using last entry (perm.mem_iff.mpr inside)
  | some value =>
      obtain ⟨entry, inside, chosen⟩ := List.mem_filterMap.mp (List.mem_of_getLast? last)
      simp only [Entries.valueAt, Option.ite_none_right_eq_some, Option.some.injEq] at chosen
      obtain ⟨rfl, rfl⟩ := chosen
      exact (Entries.get?_of_mem dictionary.sorted (perm.mem_iff.mp inside)).symm

end Dictionary

end TaskQueue
