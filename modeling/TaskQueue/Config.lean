import TaskQueue.Error
import TaskQueue.Decimal.Digits
import TaskQueue.Text.Blank
import TaskQueue.Json.Printer
import TaskQueue.Json.Record

/-!
Settings of a consumer: their defaults, the documents and the environment variables they are read
from, and what of them is refused.
-/

namespace TaskQueue

structure ConsumerConfig where
  tagPrefix : String
  maxConcurrency : Option UInt64
  messageTimeoutMs : Option UInt64
  reconnectBackoffMs : UInt64
  payloadPoolCapacity : UInt64
deriving DecidableEq, Repr

namespace ConsumerConfig

def default : ConsumerConfig := ⟨"consumer.", none, none, 0, 64⟩

def consumerTag (config : ConsumerConfig) (queue : String) : String := config.tagPrefix ++ queue

def messageTimeout (config : ConsumerConfig) : Option Duration :=
  config.messageTimeoutMs.map Duration.ofMilliseconds

def reconnectBackoff (config : ConsumerConfig) : Duration :=
  Duration.ofMilliseconds config.reconnectBackoffMs

def withTagPrefix (config : ConsumerConfig) (tagPrefix : String) : ConsumerConfig :=
  { config with tagPrefix }

def withMaxConcurrency (config : ConsumerConfig) (limit : UInt64) : ConsumerConfig :=
  { config with maxConcurrency := some limit }

def withMessageTimeout (config : ConsumerConfig) (timeout : Duration) : ConsumerConfig :=
  { config with messageTimeoutMs := some timeout.millisecondsUp }

def withReconnectBackoff (config : ConsumerConfig) (backoff : Duration) : ConsumerConfig :=
  { config with reconnectBackoffMs := backoff.millisecondsUp }

def withPayloadPoolCapacity (config : ConsumerConfig) (capacity : UInt64) : ConsumerConfig :=
  { config with payloadPoolCapacity := capacity }

def validate (config : ConsumerConfig) : Except BuildError Unit :=
  if config.maxConcurrency = some 0 then .error .invalidConcurrency
  else if config.messageTimeoutMs = some 0 then .error .invalidTimeout
  else .ok ()

namespace Variable

def tagPrefix : String := "COURIER_CONSUMER_TAG_PREFIX"
def maxConcurrency : String := "COURIER_MAX_CONCURRENCY"
def messageTimeout : String := "COURIER_MESSAGE_TIMEOUT_MS"
def reconnectBackoff : String := "COURIER_RECONNECT_BACKOFF_MS"
def payloadPoolCapacity : String := "COURIER_PAYLOAD_POOL_CAPACITY"

end Variable

def readVariable (lookup : String → Option String) (key : String) :
    Except BuildError (Option UInt64) :=
  match lookup key with
  | none => .ok none
  | some value =>
      match Decimal.word? (Text.trim value.toList) with
      | some number => .ok (some number)
      | none => .error (.invalidVariable key value)

def ofVariables (lookup : String → Option String) : Except BuildError ConsumerConfig := do
  let maxConcurrency ← readVariable lookup Variable.maxConcurrency
  let messageTimeoutMs ← readVariable lookup Variable.messageTimeout
  let reconnectBackoffMs ← readVariable lookup Variable.reconnectBackoff
  let payloadPoolCapacity ← readVariable lookup Variable.payloadPoolCapacity
  return {
    tagPrefix := (lookup Variable.tagPrefix).getD default.tagPrefix
    maxConcurrency
    messageTimeoutMs
    reconnectBackoffMs := reconnectBackoffMs.getD default.reconnectBackoffMs
    payloadPoolCapacity := payloadPoolCapacity.getD default.payloadPoolCapacity }

def field {α : Type} (name : String) (shape : Json.Shape α)
    (set : α → ConsumerConfig → ConsumerConfig) : Json.Field ConsumerConfig where
  name := name
  needed := false
  neededInList := false
  shape := shape.map set

def layout : Json.Layout ConsumerConfig where
  name := "ConsumerConfig"
  fields := [
    field "consumer_tag_prefix" Json.Shape.text
      fun value config => { config with tagPrefix := value },
    field "max_concurrency" (Json.Shape.optional (Json.Shape.fitNatural "usize"))
      fun value config => { config with maxConcurrency := value },
    field "message_timeout_ms" (Json.Shape.optional (Json.Shape.fitNatural "u64"))
      fun value config => { config with messageTimeoutMs := value },
    field "reconnect_backoff_ms" (Json.Shape.natural "u64")
      fun value config => { config with reconnectBackoffMs := value },
    field "payload_pool_capacity" (Json.Shape.natural "usize")
      fun value config => { config with payloadPoolCapacity := value }]
  blank := default

def optionalNumber : Option UInt64 → Json
  | some value => .number (.natural value)
  | none => .null

def toJson (config : ConsumerConfig) : Json :=
  .object [("consumer_tag_prefix", .text config.tagPrefix),
    ("max_concurrency", optionalNumber config.maxConcurrency),
    ("message_timeout_ms", optionalNumber config.messageTimeoutMs),
    ("reconnect_backoff_ms", .number (.natural config.reconnectBackoffMs)),
    ("payload_pool_capacity", .number (.natural config.payloadPoolCapacity))]

end ConsumerConfig

end TaskQueue
