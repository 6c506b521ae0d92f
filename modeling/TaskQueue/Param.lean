import TaskQueue.Json.Value

/-!
Task parameters: the name of a task, what it is to work on, and texts that go along with it.
-/

namespace TaskQueue

structure TaskParam where
  taskName : String
  params : Json
  metadata : Dictionary String
deriving Inhabited

namespace TaskParam

def empty : TaskParam := ⟨"", .null, Dictionary.empty⟩

def ofName (taskName : String) (params : Json) : TaskParam := ⟨taskName, params, Dictionary.empty⟩

def withMetadata (param : TaskParam) (key value : String) : TaskParam :=
  { param with metadata := param.metadata.insert key value }

def same (left right : TaskParam) : Bool :=
  left.taskName == right.taskName && left.params.same right.params &&
    left.metadata.entries == right.metadata.entries

end TaskParam

end TaskQueue
