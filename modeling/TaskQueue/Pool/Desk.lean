import TaskQueue.Payload
import TaskQueue.Pool

/-!
A pool together with the objects that are out, each under a name. An object that is taken under a
name in use takes the place of the one before it, which goes back afterwards.
-/

namespace TaskQueue.Pool

structure Desk where
  pool : Pool
  held : Dictionary Lease

namespace Desk

def ofCapacity (capacity : Nat) : Desk := ⟨Pool.ofCapacity capacity, Dictionary.empty⟩

def get? (desk : Desk) (name : String) : Option TaskParam := (desk.held.get? name).map Lease.param

def acquire (desk : Desk) (name : String) : Desk :=
  let taken := desk.pool.acquire
  let pool :=
    match desk.held.get? name with
    | some before => taken.2.release before
    | none => taken.2
  ⟨pool, desk.held.insert name taken.1⟩

def release (desk : Desk) (name : String) : Bool × Desk :=
  match desk.held.get? name with
  | some lease => (true, ⟨desk.pool.release lease, desk.held.erase name⟩)
  | none => (false, desk)

def releaseAll (desk : Desk) : Desk :=
  ⟨desk.held.entries.foldl (fun pool entry => pool.release entry.2) desk.pool, Dictionary.empty⟩

def change (desk : Desk) (name : String) (param : TaskParam) : Desk :=
  match desk.held.get? name with
  | some lease => { desk with held := desk.held.insert name { lease with param } }
  | none => desk

def decode (desk : Desk) (name : String) (body : Bytes) :
    Option (Except TaskError Unit × Desk) :=
  match desk.held.get? name with
  | some lease =>
      let decoded := Payload.decodeTask body lease.param
      some (decoded.1, desk.change name decoded.2)
  | none => none

end Desk

end TaskQueue.Pool
