import TaskQueue.Dictionary
import TaskQueue.Decimal.Shortest

/-!
JSON values. A number is a natural number of 64 bits, a negative integer of 64 bits, or a double;
the three are never equal to each other. The members of an object stand in increasing order of
their names, each name once (`Json.Ordered`).
-/

namespace TaskQueue

inductive Number
  | natural (value : UInt64)
  | negative (predecessor : Fin 0x8000000000000000)
  /-- A finite double, by its bits. -/
  | float (bits : UInt64)
deriving DecidableEq, Repr

inductive Json
  | null
  | bool (value : Bool)
  | number (value : Number)
  | text (value : String)
  | list (items : List Json)
  | object (members : List (String × Json))
deriving Inhabited

def Number.same : Number → Number → Bool
  | .float left, .float right => left == right || (left <<< 1 == 0 && right <<< 1 == 0)
  | left, right => left == right

mutual

def Json.same : Json → Json → Bool
  | .null, .null => true
  | .bool left, .bool right => left == right
  | .number left, .number right => left.same right
  | .text left, .text right => left == right
  | .list left, .list right => Json.sameItems left right
  | .object left, .object right => Json.sameMembers left right
  | _, _ => false

def Json.sameItems : List Json → List Json → Bool
  | [], [] => true
  | left :: lefts, right :: rights => left.same right && Json.sameItems lefts rights
  | _, _ => false

def Json.sameMembers : List (String × Json) → List (String × Json) → Bool
  | [], [] => true
  | (name, left) :: lefts, (other, right) :: rights =>
      name == other && left.same right && Json.sameMembers lefts rights
  | _, _ => false

end

mutual

def Json.depth : Json → Nat
  | .list items => Json.depthOfItems items + 1
  | .object members => Json.depthOfMembers members + 1
  | _ => 0

def Json.depthOfItems : List Json → Nat
  | [] => 0
  | item :: rest => max item.depth (Json.depthOfItems rest)

def Json.depthOfMembers : List (String × Json) → Nat
  | [] => 0
  | (_, item) :: rest => max item.depth (Json.depthOfMembers rest)

end

mutual

def Json.Ordered : Json → Prop
  | .list items => Json.OrderedItems items
  | .object members => KeysIncrease members ∧ Json.OrderedMembers members
  | _ => True

def Json.OrderedItems : List Json → Prop
  | [] => True
  | item :: rest => item.Ordered ∧ Json.OrderedItems rest

def Json.OrderedMembers : List (String × Json) → Prop
  | [] => True
  | (_, item) :: rest => item.Ordered ∧ Json.OrderedMembers rest

end

namespace Json

def member? (value : Json) (name : String) : Option Json :=
  match value with
  | .object members => Entries.get? name members
  | _ => none

/-- An object from members in any order; of several with one name the last counts. -/
def ofMembers (members : List (String × Json)) : Json :=
  .object (members.foldl (fun before entry => Entries.put entry.1 entry.2 before) [])

def ofNat (value : Nat) : Json := .number (.natural value.toUInt64)

def ofInt : Int → Json
  | .ofNat value => ofNat value
  | .negSucc predecessor => .number (.negative (Fin.ofNat 0x8000000000000000 predecessor))

end Json

end TaskQueue
