import TaskQueue.Error
import TaskQueue.Log

/-!
What is done about a breakdown. A recovery is told the message of the breakdown and whether the
consumer is cancelled. It reports the message to the log or keeps a record of it, and may break down
itself.
-/

namespace TaskQueue

structure Recovered (σ : Type) where
  state : σ
  /-- What is recorded; without a record the message goes to the log. -/
  record? : Option String
  panic? : Option Panic

abbrev Recovery (σ : Type) := Bool → String → σ → Recovered σ

def Recovery.Returns {σ : Type} (recovery : Recovery σ) : Prop :=
  ∀ cancelled message state, (recovery cancelled message state).panic? = none

def Recovery.report {σ : Type} : Recovery σ := fun _ _ state => ⟨state, none, none⟩

inductive Entry (ν : Type)
  | line (line : Log.Line)
  | note (span : Option Log.Span) (note : ν)
  | recovered (record : String)

def Recovered.entry {σ ν : Type} (recovered : Recovered σ) (message : String)
    (span : Option Log.Span) : Entry ν :=
  match recovered.record? with
  | some record => .recovered record
  | none => .line ⟨.error, "courier_core::worker", "recover", [("panic", message)], span⟩

end TaskQueue
