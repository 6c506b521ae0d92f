import TaskQueue.Decimal.Digits
import TaskQueue.Log
import TaskQueue.Text.Blank

/-!
Which log lines are written. A filter is made of directives; each lets lines through up to a level:
those of a part of the program, those that have a field, or those of the work on a message. The text
of a directive is `target[span{field=value}]=level`, where parts can be left out; directives are
separated by commas. Of the directives about targets and fields only the most specific one counts
for a line. A directive about the work on messages can only let further lines through. Main
statement: with one directive about everything, the level of a line decides.
-/

namespace TaskQueue.Log

structure FieldPattern where
  name : String
  value : Option String
deriving DecidableEq, Repr

structure Directive where
  target : Option String
  span : Option String
  field : Option FieldPattern
  threshold : Threshold
deriving DecidableEq, Repr

namespace Threshold

def ofName? (name : String) : Option Threshold :=
  match name.toLower with
  | "off" => some none
  | "error" => some (some .error)
  | "warn" => some (some .warn)
  | "info" => some (some .info)
  | "debug" => some (some .debug)
  | "trace" => some (some .trace)
  | _ => none

def ofNumber? : Nat → Option Threshold
  | 0 => some none
  | 1 => some (some .error)
  | 2 => some (some .warn)
  | 3 => some (some .info)
  | 4 => some (some .debug)
  | 5 => some (some .trace)
  | _ => none

def parse? (text : List Char) : Option Threshold :=
  match (Decimal.word? text).bind fun number => ofNumber? number.toNat with
  | some threshold => some threshold
  | none => ofName? (String.ofList text)

end Threshold

namespace Directive

def symbolBlocks : List (Nat × Nat) :=
  [(0x80, 0xA9), (0xAB, 0xB1), (0xB4, 0xB4), (0xB6, 0xB8), (0xBB, 0xBB), (0xBF, 0xBF),
    (0xD7, 0xD7), (0xF7, 0xF7), (0x2000, 0x206F), (0x20A0, 0x20FF), (0x2190, 0x245F),
    (0x249C, 0x24B5), (0x2500, 0x2775), (0x2794, 0x2BFF), (0x2E00, 0x2E7F), (0x3000, 0x3004),
    (0x3008, 0x3020), (0xE000, 0xF8FF), (0xFE00, 0xFE6F), (0xFF01, 0xFF0F), (0xFF1A, 0xFF20),
    (0x1F10D, 0x1F12F), (0x1F18A, 0x1FBEF)]

def isNameStart (character : Char) : Bool :=
  if character.toNat < 128 then
    character.isAlphanum || character == '-' || character == ':' || character == '_'
  else symbolBlocks.all fun block => character.toNat < block.1 || block.2 < character.toNat

/-- A directive is read along its text without the blanks around it, but what is taken over from it
comes from the same places of the whole text. -/
abbrev Tape := List (Char × Char)

def shown (tape : Tape) : List Char := tape.map Prod.snd

def cut (stops : List Char) (tape : Tape) : Tape × Tape :=
  tape.span fun place => !stops.contains place.1

/-- The level that ends a directive. Without a level everything is let through. -/
def readLevel (directive : Directive) (text : List Char) : Option Directive :=
  if text.isEmpty then some directive
  else (Threshold.parse? text).map fun threshold => { directive with threshold }

def readEnd (directive : Directive) (tail : List Char) : Tape → Option Directive
  | [] => some directive
  | ('=', _) :: rest => directive.readLevel (shown rest ++ tail)
  | _ => none

def fieldPattern (text : List Char) : FieldPattern :=
  match (String.ofList text).splitOn "=" with
  | name :: value :: _ => ⟨name, some value⟩
  | _ => ⟨String.ofList text, none⟩

def readField (directive : Directive) (tail : List Char) (tape : Tape) : Option Directive :=
  match cut ['}'] tape with
  | ([], _) => none
  | (field, _ :: (']', _) :: rest) =>
      { directive with field := some (fieldPattern (shown field)) }.readEnd tail rest
  | _ => none

def readSpan (directive : Directive) (tail : List Char) (tape : Tape) : Option Directive :=
  match cut [']', '{'] tape with
  | (name, (']', _) :: rest) =>
      { directive with span := some (String.ofList (shown name)) }.readEnd tail rest
  | ([], _ :: rest) => directive.readField tail rest
  | (name, _ :: rest) =>
      { directive with span := some (String.ofList (shown name)) }.readField tail rest
  | (_, []) => none

def everything : Directive := ⟨none, none, none, some .trace⟩

/-- A name alone is a level, or else a target of which everything is let through. -/
def readName (tail : List Char) (tape : Tape) : Option Directive :=
  match cut ['=', '['] tape with
  | (name, []) =>
      let text := shown name ++ tail
      match Threshold.parse? text with
      | some threshold => some { everything with threshold }
      | none => some { everything with target := some (String.ofList text) }
  | (name, (stop, _) :: rest) =>
      let targeted := { everything with target := some (String.ofList (shown name)) }
      if stop = '=' then targeted.readLevel (shown rest ++ tail) else targeted.readSpan tail rest

def parse? (text : List Char) : Option Directive :=
  let shape := Text.trim text
  let tape := shape.zip text
  let tail := text.drop shape.length
  match tape with
  | [] => none
  | (first, _) :: rest =>
      if first = '[' then everything.readSpan tail rest
      else if isNameStart first then readName tail tape
      else none

def hasValue (directive : Directive) : Bool :=
  (directive.field.bind FieldPattern.value).isSome

def isStatic (directive : Directive) : Bool := directive.span.isNone && !directive.hasValue

def isDynamic (directive : Directive) : Bool := directive.span.isSome || directive.field.isSome

/-- Directives for the same lines; the later one takes the place of the earlier one. -/
def agrees (left right : Directive) : Bool :=
  left.target == right.target && left.span == right.span && left.field == right.field

def isMoreSpecific (left right : Directive) : Bool :=
  let length := fun (directive : Directive) =>
    (directive.target.map fun target => target.utf8ByteSize + 1).getD 0
  let name := fun (directive : Directive) => (directive.field.map FieldPattern.name).toList
  if length left ≠ length right then length right < length left
  else decide (name right < name left)

def covers (directive : Directive) (target : String) : Bool :=
  (directive.target.map fun start => start.isPrefixOf target).getD true

def coversLine (directive : Directive) (line : Line) : Bool :=
  directive.covers line.target &&
    (directive.field.map fun field =>
      field.name == "message" || line.fields.any fun entry => entry.1 == field.name).getD true

def spanFields : List String := ["uuid", "queue", "task_name"]

def coversSpan (directive : Directive) : Bool :=
  directive.covers Span.target &&
    (directive.span.map fun name => name == Span.name).getD true &&
    (directive.field.map fun field => spanFields.contains field.name).getD true

def isNumber (pattern : String) : Bool :=
  pattern.any Char.isDigit &&
    pattern.all fun character => character.isDigit || ['+', '-', '.', 'e', 'E'].contains character

/-- Whether the work on the message is what the directive is about. The name of the task is not
known when that is decided. -/
def matchesSpan (directive : Directive) (span : Span) : Bool :=
  directive.coversSpan &&
    match directive.field with
    | some ⟨name, some pattern⟩ =>
        let value :=
          match name with
          | "uuid" => some span.id
          | "queue" => some span.queue
          | _ => none
        !isNumber pattern && (value.map fun known => known.endsWith pattern).getD false
    | _ => true

end Directive

structure Filter where
  directives : List Directive
  verbosity : Nat
deriving Repr

namespace Filter

def add (filter : Filter) (directive : Directive) : Filter where
  directives := filter.directives.filter (fun other => !other.agrees directive) ++ [directive]
  verbosity := max filter.verbosity directive.threshold.verbosity

def ofDirectives (directives : List Directive) : Filter := directives.foldl add ⟨[], 0⟩

def ofThreshold (threshold : Threshold) : Filter :=
  ofDirectives [{ Directive.everything with threshold }]

/-- Without any directive only errors are written. -/
def parse? (text : String) : Option Filter := do
  let parts := (text.splitOn ",").filter fun part => !part.isEmpty
  let directives ← parts.mapM fun part => Directive.parse? part.toList
  return if directives.isEmpty then ofThreshold (some .error) else ofDirectives directives

def threshold (directives : List Directive) : Threshold :=
  match directives.mergeSort fun left right => !right.isMoreSpecific left with
  | first :: _ => first.threshold
  | [] => none

def showsSpans (filter : Filter) : Bool :=
  let dynamic := filter.directives.filter Directive.isDynamic
  let static := filter.directives.filter fun directive =>
    directive.isStatic && directive.covers Span.target
  (dynamic.any Directive.coversSpan || (threshold static).admits Span.level) &&
    (dynamic.any Directive.hasValue || decide (Span.level.verbosity ≤ filter.verbosity))

def admitsWork (filter : Filter) (line : Line) : Bool :=
  filter.showsSpans &&
    match line.span with
    | some span =>
        filter.directives.any fun directive =>
          directive.isDynamic && directive.matchesSpan span &&
            directive.threshold.admits line.level
    | none => false

def admits (filter : Filter) (line : Line) : Bool :=
  filter.admitsWork line ||
    (threshold (filter.directives.filter fun directive =>
      directive.isStatic && directive.coversLine line)).admits line.level

def apply (filter : Filter) (lines : List Line) : List Line :=
  (lines.filter filter.admits).map fun line =>
    if filter.showsSpans then line else { line with span := none }

end Filter

end TaskQueue.Log
