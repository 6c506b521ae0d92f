/-!
Finite maps with text keys, kept as entries in increasing order of the keys. Text is ordered by its
code points, which is also the order of its UTF-8 bytes. Main statements: `put` and `erase` keep the
order, and each changes the value found under its own key only.
-/

namespace TaskQueue

def KeysIncrease {α : Type} (entries : List (String × α)) : Prop :=
  entries.Pairwise fun left right => left.1 < right.1

namespace Entries

variable {α : Type}

def put (key : String) (value : α) : List (String × α) → List (String × α)
  | [] => [(key, value)]
  | entry :: rest =>
      if key < entry.1 then (key, value) :: entry :: rest
      else if key = entry.1 then (key, value) :: rest
      else entry :: put key value rest

def erase (key : String) (entries : List (String × α)) : List (String × α) :=
  entries.filter fun entry => entry.1 ≠ key

def get? (key : String) : List (String × α) → Option α
  | [] => none
  | entry :: rest => if entry.1 = key then some entry.2 else get? key rest

theorem mem_put (key : String) (value : α) (entries : List (String × α)) (entry : String × α)
    (member : entry ∈ put key value entries) : entry = (key, value) ∨ entry ∈ entries := by
  fun_induction put key value entries with
  | case1 => exact .inl (List.mem_singleton.mp member)
  | case2 head rest before => exact List.mem_cons.mp member
  | case3 head rest notBefore same =>
      rcases List.mem_cons.mp member with first | inside
      · exact .inl first
      · exact .inr (List.mem_cons_of_mem _ inside)
  | case4 head rest notBefore different ih =>
      rcases List.mem_cons.mp member with first | inside
      · exact .inr (first ▸ List.mem_cons_self)
      · rcases ih inside with new | old
        · exact .inl new
        · exact .inr (List.mem_cons_of_mem _ old)

theorem lt_of_not_lt_of_ne {left right : String} (notBefore : ¬ left < right)
    (different : left ≠ right) : right < left := by
  rcases Std.lt_trichotomy left right with before | same | after
  · exact absurd before notBefore
  · exact absurd same different
  · exact after

theorem put_sorted (key : String) (value : α) (entries : List (String × α))
    (sorted : KeysIncrease entries) : KeysIncrease (put key value entries) := by
  unfold KeysIncrease at *
  fun_induction put key value entries with
  | case1 => simp
  | case2 head rest before =>
      rw [List.pairwise_cons] at sorted
      refine List.pairwise_cons.mpr ⟨?_, List.pairwise_cons.mpr sorted⟩
      intro entry member
      rcases List.mem_cons.mp member with rfl | inside
      · exact before
      · exact String.lt_trans before (sorted.1 entry inside)
  | case3 head rest notBefore same =>
      rw [List.pairwise_cons] at sorted
      exact List.pairwise_cons.mpr ⟨fun entry inside => same ▸ sorted.1 entry inside, sorted.2⟩
  | case4 head rest notBefore different ih =>
      rw [List.pairwise_cons] at sorted
      refine List.pairwise_cons.mpr ⟨?_, ih sorted.2⟩
      intro entry member
      rcases mem_put key value rest entry member with rfl | inside
      · exact lt_of_not_lt_of_ne notBefore different
      · exact sorted.1 entry inside

theorem get?_put (key : String) (value : α) (entries : List (String × α)) (other : String) :
    get? other (put key value entries) =
      if key = other then some value else get? other entries := by
  fun_induction put key value entries with
  | case1 => simp [get?]
  | case2 head rest before => simp [get?]
  | case3 head rest notBefore same => by_cases found : key = other <;> simp_all [get?]
  | case4 head rest notBefore different ih =>
      by_cases found : head.1 = other
      · have apart : key ≠ other := fun equal => different (equal.trans found.symm)
        simp [get?, found, apart]
      · simp only [get?, found, if_false]
        exact ih

@[simp] theorem get?_erase (key : String) (entries : List (String × α)) (other : String) :
    get? other (erase key entries) = if key = other then none else get? other entries := by
  induction entries with
  | nil => simp [erase, get?]
  | cons head rest ih =>
      unfold erase at ih ⊢
      by_cases removed : head.1 = key
      · by_cases found : key = other
        · simp_all
        · have apart : head.1 ≠ other := fun equal => found (removed.symm.trans equal)
          simp_all [get?]
      · by_cases found : head.1 = other
        · have apart : key ≠ other := fun equal => removed (found.trans equal.symm)
          simp_all [get?]
        · simp_all [get?]

end Entries

structure Dictionary (α : Type) where
  entries : List (String × α)
  sorted : KeysIncrease entries := by exact List.Pairwise.nil

namespace Dictionary

variable {α : Type}

instance [DecidableEq α] : DecidableEq (Dictionary α) := fun left right =>
  if same : left.entries = right.entries then
    .isTrue (by cases left; cases right; cases same; rfl)
  else .isFalse fun equal => same (congrArg entries equal)

def empty : Dictionary α := ⟨[], List.Pairwise.nil⟩

instance : Inhabited (Dictionary α) := ⟨empty⟩

def insert (dictionary : Dictionary α) (key : String) (value : α) : Dictionary α :=
  ⟨Entries.put key value dictionary.entries,
    Entries.put_sorted key value dictionary.entries dictionary.sorted⟩

def erase (dictionary : Dictionary α) (key : String) : Dictionary α :=
  ⟨Entries.erase key dictionary.entries, dictionary.sorted.filter _⟩

def get? (dictionary : Dictionary α) (key : String) : Option α :=
  Entries.get? key dictionary.entries

def contains (dictionary : Dictionary α) (key : String) : Bool := (dictionary.get? key).isSome

def keys (dictionary : Dictionary α) : List String := dictionary.entries.map Prod.fst

def size (dictionary : Dictionary α) : Nat := dictionary.entries.length

def ofList (entries : List (String × α)) : Dictionary α :=
  entries.foldl (fun dictionary entry => dictionary.insert entry.1 entry.2) empty

@[simp] theorem get?_empty (key : String) : (empty : Dictionary α).get? key = none := rfl

@[simp] theorem get?_insert (dictionary : Dictionary α) (key : String) (value : α)
    (other : String) :
    (dictionary.insert key value).get? other =
      if key = other then some value else dictionary.get? other :=
  Entries.get?_put key value dictionary.entries other

@[simp] theorem get?_erase (dictionary : Dictionary α) (key other : String) :
    (dictionary.erase key).get? other = if key = other then none else dictionary.get? other :=
  Entries.get?_erase key dictionary.entries other

end Dictionary

end TaskQueue
