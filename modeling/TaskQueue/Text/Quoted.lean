import TaskQueue.Text.Printable

/-!
Quoted texts and characters, as error messages show them: the mark around, a backslash before the
mark and before a backslash, short escapes for the common controls, and the code point of every
other character that has no printed form.
-/

namespace TaskQueue.Text

def hexDigits (code : Nat) : List Char := Nat.toDigits 16 code

def quotedCharacter (mark character : Char) : List Char :=
  if character = mark || character = '\\' then ['\\', character]
  else if character = '\n' then ['\\', 'n']
  else if character = '\r' then ['\\', 'r']
  else if character = '\t' then ['\\', 't']
  else if character = Char.ofNat 0 then ['\\', '0']
  else if isPrintable character then [character]
  else ['\\', 'u', '{'] ++ hexDigits character.toNat ++ ['}']

def quoted (text : String) : String :=
  String.ofList ('"' :: text.toList.flatMap (quotedCharacter '"') ++ ['"'])

def quotedSymbol (character : Char) : String :=
  let mark := Char.ofNat 0x27
  String.ofList (mark :: quotedCharacter mark character ++ [mark])

def quotedList (texts : List String) : String :=
  "[" ++ ", ".intercalate (texts.map quoted) ++ "]"

end TaskQueue.Text
