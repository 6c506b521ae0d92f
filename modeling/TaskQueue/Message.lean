import TaskQueue.Error
import TaskQueue.Json.Shape
import TaskQueue.Text.Blank

/-!
Messages on their way: what a broker hands out, what is taken from it, and what is sent. A message
has an identity, which is any text, and a payload.
-/

namespace TaskQueue

structure MessageId where
  text : String
deriving DecidableEq, Repr

namespace MessageId

def lt (left right : MessageId) : Prop := left.text < right.text

def parse (text : Bytes) : Except Json.Fault MessageId :=
  match Json.Shape.text.reader.read text with
  | .error fault => .error fault
  | .ok (value, rest) =>
      match Json.finish rest with
      | .error fault => .error fault
      | .ok () => .ok ⟨value⟩

def padded (id : MessageId) (maxLength width : Nat) : String :=
  let kept := id.text.toList.take maxLength
  String.ofList (List.replicate (width - kept.length) ' ' ++ kept)

end MessageId

structure Envelope where
  id : MessageId
  payload : Bytes
deriving DecidableEq, Repr

structure Delivery where
  tag : UInt64
  messageId : Option String
  body : Bytes
deriving DecidableEq, Repr

structure Outbound where
  messageId : String
  contentType : String
  body : Bytes
deriving DecidableEq, Repr

namespace Envelope

def contentType : String := "application/json"

def toOutbound (envelope : Envelope) : Outbound :=
  ⟨envelope.id.text, contentType, envelope.payload⟩

end Envelope

namespace Delivery

def missingId (tag : UInt64) : TaskError :=
  .decode ("delivery " ++ toString tag.toNat ++ " has no message id")

def emptyBody (id : String) : TaskError := .decode ("message " ++ id ++ " has an empty body")

/-- The message, if it has an identity that is not blank and a body that is not empty. -/
def envelope (delivery : Delivery) : Except TaskError Envelope :=
  match delivery.messageId with
  | none => .error (missingId delivery.tag)
  | some id =>
      if Text.allBlank id then .error (missingId delivery.tag)
      else if delivery.body.isEmpty then .error (emptyBody id)
      else .ok ⟨⟨id⟩, delivery.body⟩

end Delivery

/-- How messages are taken from what a broker hands out; it may fail without an error. -/
abbrev Unpacking := Delivery → Outcome Envelope

namespace Unpacking

def ofExcept : Except TaskError Envelope → Outcome Envelope
  | .ok envelope => .done envelope
  | .error error => .failed error

def byId : Unpacking := fun delivery => ofExcept delivery.envelope

/-- Breaks down on the body `!`, and names a message without an identity for its tag. -/
def byTag : Unpacking := fun delivery =>
  if delivery.body = [byte '!'] then .panicked ⟨some "marshal crashed"⟩
  else
    match delivery.messageId with
    | none => .done ⟨⟨"tag-" ++ toString delivery.tag.toNat⟩, delivery.body⟩
    | some _ => ofExcept delivery.envelope

end Unpacking

end TaskQueue
