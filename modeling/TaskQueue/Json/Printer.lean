import TaskQueue.Json.Number
import TaskQueue.Text.Hex

/-!
Compact JSON texts: no white space, members in the order they have. Controls, the quotation mark and
the backslash are escaped; every other byte stands for itself.
-/

namespace TaskQueue.Json

def escaped (next : UInt8) : Bytes :=
  if next = byte '"' ∨ next = byte '\\' then [byte '\\', next]
  else if next = 0x08 then [byte '\\', byte 'b']
  else if next = 0x0C then [byte '\\', byte 'f']
  else if next = 0x0A then [byte '\\', byte 'n']
  else if next = 0x0D then [byte '\\', byte 'r']
  else if next = 0x09 then [byte '\\', byte 't']
  else if next < 0x20 then byte '\\' :: byte 'u' :: byte '0' :: byte '0' :: Text.hexPair next
  else [next]

def encodeText (value : String) : Bytes :=
  byte '"' :: ((Bytes.ofText value).flatMap escaped ++ [byte '"'])

def encodeWord (word : List Char) : Bytes := word.map byte

mutual

def encode : Json → Bytes
  | .null => encodeWord ['n', 'u', 'l', 'l']
  | .bool true => encodeWord ['t', 'r', 'u', 'e']
  | .bool false => encodeWord ['f', 'a', 'l', 's', 'e']
  | .number value => encodeWord value.characters
  | .text value => encodeText value
  | .list [] => [byte '[', byte ']']
  | .list (item :: rest) => byte '[' :: (encode item ++ encodeItems rest)
  | .object [] => [byte '\x7b', byte '\x7d']
  | .object ((name, member) :: rest) =>
      byte '\x7b' :: (encodeText name ++ byte ':' :: (encode member ++ encodeMembers rest))

def encodeItems : List Json → Bytes
  | [] => [byte ']']
  | item :: rest => byte ',' :: (encode item ++ encodeItems rest)

def encodeMembers : List (String × Json) → Bytes
  | [] => [byte '\x7d']
  | (name, member) :: rest =>
      byte ',' :: (encodeText name ++ byte ':' :: (encode member ++ encodeMembers rest))

end

def compact (value : Json) : String := (encode value).toText?.getD ""

end TaskQueue.Json
