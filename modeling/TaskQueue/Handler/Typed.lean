import TaskQueue.Handler
import TaskQueue.Json.Printer
import TaskQueue.Json.Record

/-!
Handlers of tasks with a known form: the params are taken as a record before the handler sees them.
-/

namespace TaskQueue

structure TaskType (α : Type) where
  name : String
  layout : Json.Layout α

namespace TaskType

variable {α σ ν : Type}

def take (type : TaskType α) (params : Json) : Except TaskError α :=
  match type.layout.fit params with
  | .ok task => .ok task
  | .error cause => .error (.decode ("params of " ++ type.name ++ ": " ++ cause.message))

def handler (type : TaskType α) (handle : Context → α → Work σ ν) : Handler σ ν :=
  fun context param =>
    match type.take param.params with
    | .ok task => handle context task
    | .error error => Work.fail error

end TaskType

structure Hello where
  name : String
deriving DecidableEq, Repr

def Hello.type : TaskType Hello where
  name := "demo.hello.v1"
  layout := {
    name := "Hello"
    fields := [
      { name := "name", needed := true, neededInList := true,
        shape := Json.Shape.text.map fun value task => { task with name := value } }]
    blank := ⟨""⟩ }

structure Sum where
  values : List Int32
  label : Option String
  strict : Bool
deriving DecidableEq, Repr

namespace Sum

def total (task : Sum) : Int := task.values.foldl (fun total value => total + value.toInt) 0

/-- The label may be left out of an object, but not of a list. -/
def type : TaskType Sum where
  name := "math.sum.v1"
  layout := {
    name := "Sum"
    fields := [
      { name := "values", needed := true, neededInList := true,
        shape := (Json.Shape.list Json.Shape.int32).map fun values task => { task with values } },
      { name := "label", needed := false, neededInList := true,
        shape := (Json.Shape.optional (Json.Shape.fitText "a string")).map fun label task =>
          { task with label } },
      { name := "strict", needed := false, neededInList := false,
        shape := Json.Shape.bool.map fun strict task => { task with strict } }]
    blank := ⟨[], none, false⟩ }

end Sum

end TaskQueue
