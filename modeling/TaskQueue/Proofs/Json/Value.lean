import TaskQueue.Json.Value
import TaskQueue.Proofs.Dictionary

/-! Induction on JSON values by what they hold, and the predicates on values in terms of what lists
and objects hold. -/

namespace TaskQueue

mutual

def Json.Floatless : Json → Prop
  | .number (.float _) => False
  | .list items => Json.FloatlessItems items
  | .object members => Json.FloatlessMembers members
  | _ => True

def Json.FloatlessItems : List Json → Prop
  | [] => True
  | item :: rest => item.Floatless ∧ Json.FloatlessItems rest

def Json.FloatlessMembers : List (String × Json) → Prop
  | [] => True
  | (_, item) :: rest => item.Floatless ∧ Json.FloatlessMembers rest

end

namespace Json

@[elab_as_elim]
theorem inductionOnParts {motive : Json → Prop} (value : Json) (null : motive .null)
    (bool : ∀ value, motive (.bool value)) (number : ∀ value, motive (.number value))
    (text : ∀ value, motive (.text value))
    (list : ∀ items, (∀ item ∈ items, motive item) → motive (.list items))
    (object : ∀ members, (∀ member ∈ members, motive member.2) → motive (.object members)) :
    motive value :=
  @Json.rec motive (fun items => ∀ item ∈ items, motive item)
    (fun members => ∀ member ∈ members, motive member.2) (fun member => motive member.2)
    null bool number text list object
    (fun _ inside => absurd inside List.not_mem_nil)
    (fun _ _ head rest item inside => by
      rcases List.mem_cons.mp inside with rfl | inRest
      · exact head
      · exact rest item inRest)
    (fun _ inside => absurd inside List.not_mem_nil)
    (fun _ _ head rest member inside => by
      rcases List.mem_cons.mp inside with rfl | inRest
      · exact head
      · exact rest member inRest)
    (fun _ _ held => held) value

theorem depth_list_le_iff {items : List Json} {levels : Nat} :
    (Json.list items).depth ≤ levels + 1 ↔ ∀ item ∈ items, item.depth ≤ levels := by
  rw [Json.depth, Nat.add_le_add_iff_right]
  induction items with
  | nil => simp [Json.depthOfItems]
  | cons item rest ih => rw [Json.depthOfItems, Nat.max_le, ih, List.forall_mem_cons]

theorem depth_object_le_iff {members : List (String × Json)} {levels : Nat} :
    (Json.object members).depth ≤ levels + 1 ↔ ∀ member ∈ members, member.2.depth ≤ levels := by
  rw [Json.depth, Nat.add_le_add_iff_right]
  induction members with
  | nil => simp [Json.depthOfMembers]
  | cons member rest ih => rw [Json.depthOfMembers, Nat.max_le, ih, List.forall_mem_cons]

theorem ordered_list_iff {items : List Json} :
    (Json.list items).Ordered ↔ ∀ item ∈ items, item.Ordered := by
  rw [Json.Ordered]
  induction items with
  | nil => simp [Json.OrderedItems]
  | cons item rest ih => rw [Json.OrderedItems, ih, List.forall_mem_cons]

theorem ordered_object_iff {members : List (String × Json)} :
    (Json.object members).Ordered ↔
      KeysIncrease members ∧ ∀ member ∈ members, member.2.Ordered := by
  have held : Json.OrderedMembers members ↔ ∀ member ∈ members, member.2.Ordered := by
    induction members with
    | nil => simp [Json.OrderedMembers]
    | cons member rest ih => rw [Json.OrderedMembers, ih, List.forall_mem_cons]
  rw [Json.Ordered, held]

theorem floatless_list_iff {items : List Json} :
    (Json.list items).Floatless ↔ ∀ item ∈ items, item.Floatless := by
  rw [Json.Floatless]
  induction items with
  | nil => simp [Json.FloatlessItems]
  | cons item rest ih => rw [Json.FloatlessItems, ih, List.forall_mem_cons]

theorem floatless_object_iff {members : List (String × Json)} :
    (Json.object members).Floatless ↔ ∀ member ∈ members, member.2.Floatless := by
  rw [Json.Floatless]
  induction members with
  | nil => simp [Json.FloatlessMembers]
  | cons member rest ih => rw [Json.FloatlessMembers, ih, List.forall_mem_cons]

theorem forall_ofMembers {holds : Json → Prop} {members : List (String × Json)}
    (each : ∀ member ∈ members, holds member.2) :
    ∀ member ∈ members.foldl (fun before entry => Entries.put entry.1 entry.2 before) [],
      holds member.2 := by
  intro member inside
  rcases Entries.mem_of_mem_foldl_put inside with given | absent
  · exact each member given
  · exact absurd absent List.not_mem_nil

theorem depth_ofMembers_le {members : List (String × Json)} {levels : Nat}
    (within : ∀ member ∈ members, member.2.depth ≤ levels) :
    (ofMembers members).depth ≤ levels + 1 :=
  depth_object_le_iff.mpr (@forall_ofMembers (fun item => item.depth ≤ levels) members within)

end Json

end TaskQueue
