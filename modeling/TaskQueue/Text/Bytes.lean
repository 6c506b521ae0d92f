/-!
Byte strings and the text they hold. A text is written as its UTF-8 bytes; bytes that are not
UTF-8 hold no text, and can only be shown with a replacement mark for each damaged part.
-/

namespace TaskQueue

abbrev Bytes := List UInt8

@[inline] def byte (character : Char) : UInt8 := character.toNat.toUInt8

namespace Bytes

def ofText (text : String) : Bytes := text.toByteArray.data.toList

def toText? (bytes : Bytes) : Option String := String.fromUTF8? ⟨bytes.toArray⟩

theorem toText?_ofText (text : String) : toText? (ofText text) = some text := by
  have valid : (⟨text.toByteArray.data⟩ : ByteArray).IsValidUTF8 := text.isValidUTF8
  simp [toText?, ofText, String.fromUTF8?, valid, String.fromUTF8]

def continuation? (lead : UInt8) : Option (Nat × UInt8 × UInt8) :=
  if 0xC2 ≤ lead ∧ lead ≤ 0xDF then some (1, 0x80, 0xBF)
  else if lead = 0xE0 then some (2, 0xA0, 0xBF)
  else if lead = 0xED then some (2, 0x80, 0x9F)
  else if 0xE1 ≤ lead ∧ lead ≤ 0xEF then some (2, 0x80, 0xBF)
  else if lead = 0xF0 then some (3, 0x90, 0xBF)
  else if 0xF1 ≤ lead ∧ lead ≤ 0xF3 then some (3, 0x80, 0xBF)
  else if lead = 0xF4 then some (3, 0x80, 0x8F)
  else none

def takeContinuation : Nat → UInt8 → UInt8 → Bytes → Nat → Bool × Nat × Bytes
  | 0, _, _, rest, code => (true, code, rest)
  | _ + 1, _, _, [], code => (false, code, [])
  | count + 1, low, high, next :: rest, code =>
      if low ≤ next ∧ next ≤ high then
        takeContinuation count 0x80 0xBF rest (code * 64 + (next &&& 0x3F).toNat)
      else (false, code, next :: rest)

theorem takeContinuation_length (count : Nat) (low high : UInt8) (bytes : Bytes) (code : Nat) :
    (takeContinuation count low high bytes code).2.2.length ≤ bytes.length := by
  fun_induction takeContinuation count low high bytes code with
  | case1 => simp
  | case2 => simp
  | case3 count low high next rest code inside ih =>
      simp only [List.length_cons]
      omega
  | case4 => simp

/-- The character that `lead` opens, if the bytes after it finish it, and the bytes after that
character; else the bytes after its longest part that is there. -/
def takeCharacter (lead : UInt8) (rest : Bytes) : Option Char × Bytes :=
  if lead < 0x80 then (some (Char.ofNat lead.toNat), rest)
  else
    match continuation? lead with
    | none => (none, rest)
    | some (count, low, high) =>
        let bits := if count = 1 then lead &&& 0x1F else if count = 2 then lead &&& 0x0F
          else lead &&& 0x07
        let taken := takeContinuation count low high rest bits.toNat
        (if taken.1 then some (Char.ofNat taken.2.1) else none, taken.2.2)

theorem takeCharacter_length (lead : UInt8) (rest : Bytes) :
    (takeCharacter lead rest).2.length ≤ rest.length := by
  unfold takeCharacter
  split
  · exact Nat.le_refl _
  · split
    · exact Nat.le_refl _
    · exact takeContinuation_length _ _ _ _ _

def shownCharacters : Bytes → List Char
  | [] => []
  | lead :: rest =>
      (takeCharacter lead rest).1.getD (Char.ofNat 0xFFFD) ::
        shownCharacters (takeCharacter lead rest).2
termination_by bytes => bytes.length
decreasing_by
  have shorter := takeCharacter_length lead rest
  simp only [List.length_cons]
  omega

def shown (bytes : Bytes) : String := String.ofList (shownCharacters bytes)

def damaged : Bytes → Bytes
  | [] => []
  | lead :: rest =>
      match (takeCharacter lead rest).1 with
      | some _ => damaged (takeCharacter lead rest).2
      | none => lead :: rest
termination_by bytes => bytes.length
decreasing_by
  have shorter := takeCharacter_length lead rest
  simp only [List.length_cons]
  omega

end Bytes

end TaskQueue
