import TaskQueue.Dictionary

/-!
The handlers of tasks by the tasks' names. The last registration of a name counts.
-/

namespace TaskQueue

structure Registry (α : Type) where
  handlers : Dictionary α

namespace Registry

variable {α : Type}

def empty : Registry α := ⟨Dictionary.empty⟩

def register (registry : Registry α) (name : String) (handler : α) : Option α × Registry α :=
  (registry.handlers.get? name, ⟨registry.handlers.insert name handler⟩)

def unregister (registry : Registry α) (name : String) : Bool × Registry α :=
  (registry.handlers.contains name, ⟨registry.handlers.erase name⟩)

def lookup (registry : Registry α) (name : String) : Option α := registry.handlers.get? name

def contains (registry : Registry α) (name : String) : Bool := registry.handlers.contains name

def names (registry : Registry α) : List String := registry.handlers.keys

def size (registry : Registry α) : Nat := registry.handlers.size

end Registry

end TaskQueue
