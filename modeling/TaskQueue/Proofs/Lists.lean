/-! Lists in which one element is changed: what becomes of the members, of counts, and of what is
picked from the elements. And lists by places: what is known of each place is known of the whole. -/

namespace TaskQueue

variable {α β : Type}

section Modify

variable {change : α → α} {values : List α} {index : Nat}

theorem mem_modify {value : α} (taken : value ∈ values.modify index change) :
    value ∈ values ∨ ∃ old, values[index]? = some old ∧ value = change old := by
  obtain ⟨place, found⟩ := List.mem_iff_getElem?.mp taken
  rw [List.getElem?_modify] at found
  by_cases same : index = place
  · subst place
    simp only [if_true, Option.map_eq_map, Option.map_eq_some_iff] at found
    obtain ⟨old, foundOld, changed⟩ := found
    exact Or.inr ⟨old, foundOld, changed.symm⟩
  · simp only [if_neg same, id_map'] at found
    exact Or.inl (List.mem_of_getElem? found)

theorem modify_perm (change : α → α) {old : α} (found : values[index]? = some old) :
    (old :: values.modify index change).Perm (change old :: values) := by
  obtain ⟨bound, equal⟩ := List.getElem?_eq_some_iff.mp found
  obtain ⟨before, value, behind, parts, place, modified⟩ := List.exists_of_modify change bound
  have same : value = old := by simp [← equal, parts, ← place]
  subst value
  rw [modified, parts]
  calc (old :: (before ++ change old :: behind)).Perm (old :: change old :: (before ++ behind)) :=
        .cons _ List.perm_middle
    _ |>.Perm (change old :: old :: (before ++ behind)) := .swap _ _ _
    _ |>.Perm (change old :: (before ++ old :: behind)) := .cons _ List.perm_middle.symm

theorem modify_concat (change : α → α) (values : List α) (last : α) :
    (values ++ [last]).modify values.length change = values ++ [change last] := by
  induction values with
  | nil => rfl
  | cons head rest ih => exact congrArg (head :: ·) ih

theorem countP_modify (change : α → α) {old : α} (counts : α → Bool)
    (found : values[index]? = some old) :
    (values.modify index change).countP counts + (counts old).toNat =
      values.countP counts + (counts (change old)).toNat := by
  have same := (modify_perm change found).countP_eq counts
  rw [List.countP_cons, List.countP_cons] at same
  cases isOld : counts old <;> cases isNew : counts (change old) <;> simpa [isOld, isNew] using same

theorem flatMap_modify_perm (change : α → α) {old : α} (pick : α → List β)
    (found : values[index]? = some old) :
    (pick old ++ (values.modify index change).flatMap pick).Perm
      (pick (change old) ++ values.flatMap pick) := by
  simpa using (modify_perm change found).flatMap_right pick

theorem filterMap_modify_perm (change : α → α) {old : α} (pick : α → Option β)
    (found : values[index]? = some old) :
    ((pick old).toList ++ (values.modify index change).filterMap pick).Perm
      ((pick (change old)).toList ++ values.filterMap pick) := by
  have same := (modify_perm change found).filterMap pick
  cases isOld : pick old <;> cases isNew : pick (change old) <;>
    simpa [List.filterMap_cons, isOld, isNew] using same

section Same

variable (values) (index)

theorem map_modify {pick : α → β} (same : ∀ value, pick (change value) = pick value) :
    (values.modify index change).map pick = values.map pick := by
  apply List.ext_getElem?
  intro other
  rw [List.getElem?_map, List.getElem?_map, List.getElem?_modify]
  split <;> cases values[other]? <;> simp [same]

theorem flatMap_modify {pick : α → List β} (same : ∀ value, pick (change value) = pick value) :
    (values.modify index change).flatMap pick = values.flatMap pick := by
  rw [List.flatMap_def, List.flatMap_def, map_modify values index same]

theorem filterMap_modify {pick : α → Option β}
    (same : ∀ value, pick (change value) = pick value) :
    (values.modify index change).filterMap pick = values.filterMap pick := by
  have kept := congrArg (List.filterMap id) (map_modify values index same)
  rwa [List.filterMap_map, List.filterMap_map] at kept

end Same

end Modify

theorem ne_of_filterMap_nodup {pick : α → Option β} {values : List α}
    (apart : (values.filterMap pick).Nodup) {index other : Nat} {left right : α}
    {leftPick rightPick : β} (different : index ≠ other) (foundLeft : values[index]? = some left)
    (foundRight : values[other]? = some right) (pickedLeft : pick left = some leftPick)
    (pickedRight : pick right = some rightPick) : leftPick ≠ rightPick := by
  rw [List.nodup_iff_pairwise_ne, List.pairwise_filterMap, List.pairwise_iff_getElem] at apart
  obtain ⟨leftBound, rfl⟩ := List.getElem?_eq_some_iff.mp foundLeft
  obtain ⟨rightBound, rfl⟩ := List.getElem?_eq_some_iff.mp foundRight
  rcases Nat.lt_or_gt_of_ne different with less | greater
  · exact apart index other leftBound rightBound less _ pickedLeft _ pickedRight
  · exact (apart other index rightBound leftBound greater _ pickedRight _ pickedLeft).symm

@[simp] theorem filterMap_toList (pick : α → Option β) (value? : Option α) :
    value?.toList.filterMap pick = (value?.bind pick).toList := by
  cases value? with
  | none => rfl
  | some value => cases picked : pick value <;> simp [picked]

theorem filterMap_concat (pick : α → Option β) (values : List α) (last : α) :
    (values ++ [last]).filterMap pick = values.filterMap pick ++ (pick last).toList := by
  rw [List.filterMap_append, ← Option.toList_some, filterMap_toList, Option.bind_some]

theorem getElem?_concat {values : List α} {index : Nat} {value : α} (last : α)
    (found : values[index]? = some value) : (values ++ [last])[index]? = some value := by
  rw [List.getElem?_append_left (List.getElem?_eq_some_iff.mp found).1]
  exact found

theorem concat_split {values before after : List α} {last value : α}
    (whole : values ++ [last] = before ++ value :: after) :
    values = before ∧ last = value ∧ after = [] ∨
      ∃ others, values = before ++ value :: others ∧ after = others ++ [last] := by
  rcases List.eq_nil_or_concat after with rfl | ⟨others, final, rfl⟩
  · obtain ⟨rfl, same⟩ := List.append_inj' whole rfl
    exact .inl ⟨rfl, (List.cons.inj same).1, rfl⟩
  · rw [List.concat_eq_append, ← List.cons_append, ← List.append_assoc] at whole
    obtain ⟨rfl, same⟩ := List.append_inj' whole rfl
    obtain ⟨rfl, _⟩ := List.cons.inj same
    exact .inr ⟨others, rfl, List.concat_eq_append⟩

theorem getElem?_concat_cases {values : List α} {index : Nat} {last value : α}
    (found : (values ++ [last])[index]? = some value) :
    values[index]? = some value ∨ index = values.length ∧ value = last := by
  by_cases bound : index < values.length
  · rw [List.getElem?_append_left bound] at found
    exact Or.inl found
  · have within := (List.getElem?_eq_some_iff.mp found).1
    rw [List.length_append, List.length_singleton] at within
    obtain rfl : index = values.length := by omega
    rw [List.getElem?_concat_length] at found
    exact Or.inr ⟨rfl, (Option.some.inj found).symm⟩

theorem map_range {values : List α} {pick : α → β} (pickAt : Nat → β)
    (same : ∀ index value, values[index]? = some value → pickAt index = pick value) :
    (List.range values.length).map pickAt = values.map pick := by
  apply List.ext_getElem?
  intro index
  rw [List.getElem?_map, List.getElem?_map]
  by_cases bound : index < values.length
  · rw [List.getElem?_range bound, List.getElem?_eq_getElem bound]
    exact congrArg some (same index _ (List.getElem?_eq_getElem bound))
  · have beyond := Nat.le_of_not_lt bound
    rw [List.getElem?_eq_none (by simpa using beyond), List.getElem?_eq_none beyond]
    rfl

theorem length_filter_range {values : List α} {has : α → Bool} {hasAt : Nat → Bool}
    (same : ∀ index value, values[index]? = some value → hasAt index = has value) :
    ((List.range values.length).filter hasAt).length = values.countP has := by
  have counted := congrArg (List.countP id) (map_range hasAt same)
  rw [List.countP_map, List.countP_map] at counted
  rw [← List.countP_eq_length_filter]
  exact counted

theorem perm_flatMap_range {values : List (Nat × β)} {bound : Nat}
    (below : ∀ value ∈ values, value.1 < bound) :
    (values.map Prod.snd).Perm ((List.range bound).flatMap fun index =>
      values.filterMap fun value => if value.1 = index then some value.2 else none) := by
  induction bound generalizing values with
  | zero =>
      cases values with
      | nil => exact .nil
      | cons value rest => exact absurd (below value List.mem_cons_self) (Nat.not_lt_zero _)
  | succ bound ih =>
      have last : values.filterMap (fun value => if value.1 = bound then some value.2 else none) =
          (values.filter fun value => value.1 == bound).map Prod.snd := by
        rw [← List.filterMap_eq_map, List.filterMap_filter]
        congr 1
        funext value
        by_cases here : value.1 = bound <;> simp [here]
      have earlier : ((List.range bound).flatMap fun index =>
            values.filterMap fun value => if value.1 = index then some value.2 else none) =
          (List.range bound).flatMap fun index =>
            (values.filter fun value => !(value.1 == bound)).filterMap fun value =>
              if value.1 = index then some value.2 else none := by
        rw [List.flatMap_def, List.flatMap_def]
        congr 1
        apply List.map_congr_left
        intro index taken
        have less := List.mem_range.mp taken
        rw [List.filterMap_filter]
        congr 1
        funext value
        by_cases here : value.1 = index
        · have notLast : ¬index = bound := by omega
          simp [here, notLast]
        · simp [here]
      have belowLast : ∀ value ∈ values.filter fun value => !(value.1 == bound),
          value.1 < bound := by
        intro value taken
        obtain ⟨old, notLast⟩ := List.mem_filter.mp taken
        have inBounds := below value old
        have different : ¬value.1 = bound := by simpa using notLast
        omega
      have others := ih belowLast
      rw [List.range_succ, List.flatMap_append, List.flatMap_singleton, last, earlier]
      have parts := (List.filter_append_perm (fun value => value.1 == bound) values).map Prod.snd
      rw [List.map_append] at parts
      exact parts.symm.trans (List.perm_append_comm.trans (others.append_right _))

end TaskQueue
