import TaskQueue.Error
import TaskQueue.Param

/-!
A pool of parameter objects that are used again and again. Every object has an identity, its slot. A
lease takes the object that came back last, or a new one; what comes back is emptied, and kept if
there is room.
-/

namespace TaskQueue

structure Lease where
  slot : Nat
  param : TaskParam

structure Pool where
  capacity : Nat
  /-- The objects at hand, the last returned first. -/
  free : List Lease
  made : Nat

namespace Pool

def ofCapacity (capacity : Nat) : Pool := ⟨capacity, [], 0⟩

def idle (pool : Pool) : Nat := pool.free.length

def acquire (pool : Pool) : Lease × Pool :=
  match pool.free with
  | [] => (⟨pool.made, TaskParam.empty⟩, { pool with made := pool.made + 1 })
  | lease :: rest => (lease, { pool with free := rest })

def release (pool : Pool) (lease : Lease) : Pool :=
  if pool.idle < pool.capacity then
    { pool with free := { lease with param := TaskParam.empty } :: pool.free }
  else pool

/-- The bytes that one object takes in the storage that a pool sets aside. -/
def objectSize : Nat := 104

def canHold (capacity : UInt64) : Bool := capacity.toNat * objectSize < 0x8000000000000000

def tooMuchStorage : Panic := ⟨some "capacity overflow"⟩

end Pool

end TaskQueue
