import TaskQueue.Json.Fault
import TaskQueue.Text.Hex

/-!
The smallest parts of a JSON text: white space, words, numerals and texts. Each function reads from
the front of the bytes and returns what is left. Texts and numerals come in two kinds: those whose
value is wanted, and those that are only passed over, which are checked less.
-/

namespace TaskQueue.Json

abbrev Reading (α : Type) := Except Fault (α × Bytes)

def isSpace (next : UInt8) : Bool :=
  next == byte ' ' || next == byte '\n' || next == byte '\t' || next == byte '\r'

def skipSpace (bytes : Bytes) : Bytes := bytes.dropWhile isSpace

theorem skipSpace_length (bytes : Bytes) : (skipSpace bytes).length ≤ bytes.length :=
  (List.dropWhile_sublist isSpace).length_le

def isDigit (next : UInt8) : Bool := byte '0' ≤ next && next ≤ byte '9'

def digitValue (digit : UInt8) : Nat := (digit - byte '0').toNat

def readWord : List Char → Bytes → Except Fault Bytes
  | [], bytes => .ok bytes
  | _ :: _, [] => .error (.before .endInValue [])
  | letter :: letters, next :: rest =>
      if next = byte letter then readWord letters rest else .error (.before .expectedWord rest)

theorem readWord_length (letters : List Char) (bytes rest : Bytes)
    (done : readWord letters bytes = .ok rest) : rest.length ≤ bytes.length := by
  fun_induction readWord letters bytes with
  | case1 => simp_all
  | case2 => simp at done
  | case3 letter letters rest' ih =>
      have shorter := ih done
      simp only [List.length_cons]
      omega
  | case4 => simp at done

def digitRun (bytes : Bytes) : List Nat × Bytes :=
  ((bytes.takeWhile isDigit).map digitValue, bytes.dropWhile isDigit)

theorem digitRun_length (bytes : Bytes) : (digitRun bytes).2.length ≤ bytes.length :=
  (List.dropWhile_sublist isDigit).length_le

def wholeDigits (atEnd : Cause) : Bytes → Reading (List Nat)
  | [] => .error (.before atEnd [])
  | next :: rest =>
      if next = byte '0' then
        match rest with
        | after :: _ =>
            if isDigit after then .error (.within .invalidNumber rest) else .ok ([0], rest)
        | [] => .ok ([0], [])
      else if isDigit next then .ok (digitRun (next :: rest))
      else .error (.before .invalidNumber rest)

def fractionDigits (atEnd : Cause) : Bytes → Reading (List Nat)
  | [] => .ok ([], [])
  | next :: rest =>
      if next = byte '.' then
        let run := digitRun rest
        if run.1.isEmpty then
          .error (.within (if rest.isEmpty then atEnd else .invalidNumber) rest)
        else .ok run
      else .ok ([], next :: rest)

def exponentSign : Bytes → Bool × Bytes
  | [] => (false, [])
  | next :: rest =>
      if next = byte '+' then (false, rest)
      else if next = byte '-' then (true, rest)
      else (false, next :: rest)

def exponentDigits (atEnd : Cause) : Bytes → Reading (Option (Bool × List Nat))
  | [] => .ok (none, [])
  | next :: rest =>
      if next = byte 'e' ∨ next = byte 'E' then
        let signed := exponentSign rest
        match signed.2 with
        | [] => .error (.before atEnd [])
        | digit :: after =>
            if isDigit digit then
              let run := digitRun (digit :: after)
              .ok (some (signed.1, run.1), run.2)
            else .error (.before .invalidNumber after)
      else .ok (none, next :: rest)

def minus : Bytes → Bool × Bytes
  | [] => (false, [])
  | next :: rest => if next = byte '-' then (true, rest) else (false, next :: rest)

/-- A numeral; `atEnd` is the cause if the text ends inside it. -/
def readNumeral (atEnd : Cause) (bytes : Bytes) : Reading Numeral :=
  match wholeDigits atEnd (minus bytes).2 with
  | .error fault => .error fault
  | .ok (whole, afterWhole) =>
      match fractionDigits atEnd afterWhole with
      | .error fault => .error fault
      | .ok (fraction, afterFraction) =>
          match exponentDigits atEnd afterFraction with
          | .error fault => .error fault
          | .ok (exponent, rest) => .ok (⟨(minus bytes).1, whole, fraction, exponent⟩, rest)

def readNumber (bytes : Bytes) : Reading Number :=
  match readNumeral .endInValue bytes with
  | .error fault => .error fault
  | .ok (parts, rest) =>
      match parts.value with
      | .ok value => .ok (value, rest)
      | .error unread => .error ⟨.numberOutOfRange, rest.length + unread⟩

def skipNumber (bytes : Bytes) : Except Fault Bytes :=
  match readNumeral .invalidNumber bytes with
  | .error fault => .error fault
  | .ok (_, rest) => .ok rest

def hexQuad : Bytes → Reading Nat
  | first :: second :: third :: fourth :: rest =>
      match Text.hexValue? first, Text.hexValue? second, Text.hexValue? third,
          Text.hexValue? fourth with
      | some a, some b, some c, some d => .ok (((a * 16 + b) * 16 + c) * 16 + d, rest)
      | _, _, _, _ => .error (.before .invalidEscape rest)
  | _ => .error (.before .endInText [])

def scalarBytes (code : Nat) : Bytes := String.utf8EncodeChar (Char.ofNat code)

def isLeadingSurrogate (code : Nat) : Bool := 0xD800 ≤ code && code ≤ 0xDBFF

def isTrailingSurrogate (code : Nat) : Bool := 0xDC00 ≤ code && code ≤ 0xDFFF

def pairByte (expected : UInt8) : Bytes → Except Fault Bytes
  | [] => .error (.before .endInText [])
  | next :: rest =>
      if next = expected then .ok rest else .error (.before .unfinishedPair rest)

def trailingHalf (leading : Nat) (bytes : Bytes) : Reading Bytes :=
  match pairByte (byte '\\') bytes with
  | .error fault => .error fault
  | .ok afterSlash =>
      match pairByte (byte 'u') afterSlash with
      | .error fault => .error fault
      | .ok afterLetter =>
          match hexQuad afterLetter with
          | .error fault => .error fault
          | .ok (trailing, rest) =>
              if isTrailingSurrogate trailing then
                .ok (scalarBytes (0x10000 + (leading - 0xD800) * 0x400 + (trailing - 0xDC00)), rest)
              else .error (.before .loneSurrogate rest)

def unicodeEscape (bytes : Bytes) : Reading Bytes :=
  match hexQuad bytes with
  | .error fault => .error fault
  | .ok (code, rest) =>
      if isTrailingSurrogate code then .error (.before .loneSurrogate rest)
      else if isLeadingSurrogate code then trailingHalf code rest
      else .ok (scalarBytes code, rest)

def shortEscape? (letter : UInt8) : Option UInt8 :=
  if letter = byte '"' ∨ letter = byte '\\' ∨ letter = byte '/' then some letter
  else if letter = byte 'b' then some 0x08
  else if letter = byte 'f' then some 0x0C
  else if letter = byte 'n' then some 0x0A
  else if letter = byte 'r' then some 0x0D
  else if letter = byte 't' then some 0x09
  else none

def readEscape : Bytes → Reading Bytes
  | [] => .error (.before .endInText [])
  | letter :: rest =>
      match shortEscape? letter with
      | some meant => .ok ([meant], rest)
      | none =>
          if letter = byte 'u' then unicodeEscape rest else .error (.before .invalidEscape rest)

def skipEscape : Bytes → Except Fault Bytes
  | [] => .error (.before .endInText [])
  | letter :: rest =>
      match shortEscape? letter with
      | some _ => .ok rest
      | none =>
          if letter = byte 'u' then
            match hexQuad rest with
            | .error fault => .error fault
            | .ok (_, after) => .ok after
          else .error (.before .invalidEscape rest)

theorem hexQuad_length {bytes rest : Bytes} {code : Nat} (done : hexQuad bytes = .ok (code, rest)) :
    rest.length < bytes.length := by
  unfold hexQuad at done
  split at done
  · split at done
    · simp only [Except.ok.injEq, Prod.mk.injEq] at done
      simp only [List.length_cons, ← done.2]
      omega
    · simp at done
  · simp at done

theorem pairByte_length {expected : UInt8} {bytes rest : Bytes}
    (done : pairByte expected bytes = .ok rest) : rest.length < bytes.length := by
  unfold pairByte at done
  split at done
  · simp at done
  · split at done
    · simp only [Except.ok.injEq] at done
      simp [done]
    · simp at done

theorem trailingHalf_length {leading : Nat} {bytes rest meant : Bytes}
    (done : trailingHalf leading bytes = .ok (meant, rest)) : rest.length < bytes.length := by
  unfold trailingHalf at done
  split at done
  · simp at done
  · rename_i afterSlash slash
    split at done
    · simp at done
    · rename_i afterLetter letter
      split at done
      · simp at done
      · rename_i trailing after quad
        split at done
        · simp only [Except.ok.injEq, Prod.mk.injEq] at done
          have first := pairByte_length slash
          have second := pairByte_length letter
          have third := hexQuad_length quad
          rw [← done.2]
          omega
        · simp at done

theorem unicodeEscape_length {bytes rest meant : Bytes}
    (done : unicodeEscape bytes = .ok (meant, rest)) : rest.length < bytes.length := by
  unfold unicodeEscape at done
  split at done
  · simp at done
  · rename_i code after quad
    have first := hexQuad_length quad
    split at done
    · simp at done
    · split at done
      · have second := trailingHalf_length done
        omega
      · simp only [Except.ok.injEq, Prod.mk.injEq] at done
        rw [← done.2]
        exact first

theorem readEscape_length {bytes rest meant : Bytes} (done : readEscape bytes = .ok (meant, rest)) :
    rest.length < bytes.length := by
  unfold readEscape at done
  split at done
  · simp at done
  · split at done
    · simp only [Except.ok.injEq, Prod.mk.injEq] at done
      simp [← done.2]
    · split at done
      · have shorter := unicodeEscape_length done
        simp only [List.length_cons]
        omega
      · simp at done

theorem skipEscape_length {bytes rest : Bytes} (done : skipEscape bytes = .ok rest) :
    rest.length < bytes.length := by
  unfold skipEscape at done
  split at done
  · simp at done
  · split at done
    · simp only [Except.ok.injEq] at done
      simp [← done]
    · split at done
      · split at done
        · simp at done
        · rename_i after quad
          simp only [Except.ok.injEq] at done
          have shorter := hexQuad_length quad
          simp only [List.length_cons, ← done]
          omega
      · simp at done

def readTextBytes (bytes before : Bytes) : Reading Bytes :=
  match bytes with
  | [] => .error (.before .endInText [])
  | next :: rest =>
      if next = byte '"' then .ok (before.reverse, rest)
      else if next = byte '\\' then
        match _escaped : readEscape rest with
        | .error fault => .error fault
        | .ok (meant, after) => readTextBytes after (meant.reverse ++ before)
      else if next < 0x20 then .error (.before .controlCharacter rest)
      else readTextBytes rest (next :: before)
termination_by bytes.length
decreasing_by
  · have shorter := readEscape_length _escaped
    simp only [List.length_cons]
    omega
  · simp

/-- A text after its opening mark. Damage is reported as many bytes before the end of the text as
are left of its content from the first damaged one on. -/
def readText (bytes : Bytes) : Reading String :=
  match readTextBytes bytes [] with
  | .error fault => .error fault
  | .ok (content, rest) =>
      match content.toText? with
      | some value => .ok (value, rest)
      | none => .error ⟨.invalidText, rest.length + content.damaged.length⟩

def skipText (bytes : Bytes) : Except Fault Bytes :=
  match bytes with
  | [] => .error (.before .endInText [])
  | next :: rest =>
      if next = byte '"' then .ok rest
      else if next = byte '\\' then
        match _escaped : skipEscape rest with
        | .error fault => .error fault
        | .ok after => skipText after
      else if next < 0x20 then .error (.before .controlCharacter (next :: rest))
      else skipText rest
termination_by bytes.length
decreasing_by
  · have shorter := skipEscape_length _escaped
    simp only [List.length_cons]
    omega
  · simp

theorem readTextBytes_length {bytes before content rest : Bytes}
    (done : readTextBytes bytes before = .ok (content, rest)) : rest.length < bytes.length := by
  fun_induction readTextBytes bytes before with
  | case1 => simp at done
  | case2 before rest' =>
      simp only [Except.ok.injEq, Prod.mk.injEq] at done
      simp [← done.2]
  | case3 => simp at done
  | case4 before rest' meant after escaped notEnd ih =>
      have shorter := ih done
      have escapeShorter := readEscape_length escaped
      simp only [List.length_cons]
      omega
  | case5 => simp at done
  | case6 before next rest' notEnd notEscape printable ih =>
      have shorter := ih done
      simp only [List.length_cons]
      omega

theorem readText_length {bytes rest : Bytes} {value : String}
    (done : readText bytes = .ok (value, rest)) :
    rest.length < bytes.length := by
  unfold readText at done
  split at done
  · simp at done
  · rename_i content after found
    split at done
    · simp only [Except.ok.injEq, Prod.mk.injEq] at done
      rw [← done.2]
      exact readTextBytes_length found
    · simp at done

theorem skipText_length {bytes rest : Bytes} (done : skipText bytes = .ok rest) :
    rest.length < bytes.length := by
  fun_induction skipText bytes with
  | case1 => simp at done
  | case2 rest' =>
      simp only [Except.ok.injEq] at done
      simp [done]
  | case3 => simp at done
  | case4 rest' after escaped notEnd ih =>
      have shorter := ih done
      have escapeShorter := skipEscape_length escaped
      simp only [List.length_cons]
      omega
  | case5 => simp at done
  | case6 next rest' notEnd notEscape printable ih =>
      have shorter := ih done
      simp only [List.length_cons]
      omega

theorem minus_length (bytes : Bytes) : (minus bytes).2.length ≤ bytes.length := by
  unfold minus
  split
  · simp
  · split <;> simp

theorem wholeDigits_length {atEnd : Cause} {bytes rest : Bytes} {digits : List Nat}
    (done : wholeDigits atEnd bytes = .ok (digits, rest)) : rest.length < bytes.length := by
  unfold wholeDigits at done
  split at done
  · simp at done
  · rename_i next after
    split at done
    · split at done
      · split at done
        · simp at done
        · simp only [Except.ok.injEq, Prod.mk.injEq] at done
          simp [← done.2]
      · simp only [Except.ok.injEq, Prod.mk.injEq] at done
        simp [← done.2]
    · split at done
      · rename_i digit
        simp only [Except.ok.injEq, digitRun, Prod.mk.injEq, List.dropWhile_cons, digit,
          if_true] at done
        have shorter := (List.dropWhile_sublist (l := after) isDigit).length_le
        simp only [List.length_cons, ← done.2]
        omega
      · simp at done

theorem fractionDigits_length {atEnd : Cause} {bytes rest : Bytes} {digits : List Nat}
    (done : fractionDigits atEnd bytes = .ok (digits, rest)) : rest.length ≤ bytes.length := by
  unfold fractionDigits at done
  split at done
  · simp only [Except.ok.injEq, Prod.mk.injEq] at done
    simp [← done.2]
  · rename_i next after
    split at done
    · dsimp only at done
      split at done
      · simp at done
      · have shorter := digitRun_length after
        simp only [Except.ok.injEq] at done
        simp only [done] at shorter
        simp only [List.length_cons]
        omega
    · simp only [Except.ok.injEq, Prod.mk.injEq] at done
      simp [← done.2]

theorem exponentSign_length (bytes : Bytes) : (exponentSign bytes).2.length ≤ bytes.length := by
  unfold exponentSign
  split
  · simp
  · split
    · simp
    · split <;> simp

theorem exponentDigits_length {atEnd : Cause} {bytes rest : Bytes}
    {exponent : Option (Bool × List Nat)}
    (done : exponentDigits atEnd bytes = .ok (exponent, rest)) :
    rest.length ≤ bytes.length := by
  unfold exponentDigits at done
  split at done
  · simp only [Except.ok.injEq, Prod.mk.injEq] at done
    simp [← done.2]
  · rename_i next after
    split at done
    · dsimp only at done
      have sign := exponentSign_length after
      split at done
      · simp at done
      · rename_i digit others signed
        rw [signed] at sign
        split at done
        · simp only [Except.ok.injEq, Prod.mk.injEq] at done
          have shorter := digitRun_length (digit :: others)
          rw [done.2] at shorter
          simp only [List.length_cons] at *
          omega
        · simp at done
    · simp only [Except.ok.injEq, Prod.mk.injEq] at done
      simp [← done.2]

theorem readNumeral_length {atEnd : Cause} {bytes rest : Bytes} {parts : Numeral}
    (done : readNumeral atEnd bytes = .ok (parts, rest)) : rest.length < bytes.length := by
  unfold readNumeral at done
  split at done
  · simp at done
  · rename_i whole afterWhole wholeDone
    split at done
    · simp at done
    · rename_i fraction afterFraction fractionDone
      split at done
      · simp at done
      · rename_i exponent afterExponent exponentDone
        simp only [Except.ok.injEq, Prod.mk.injEq] at done
        have first := minus_length bytes
        have second := wholeDigits_length wholeDone
        have third := fractionDigits_length fractionDone
        have fourth := exponentDigits_length exponentDone
        rw [← done.2]
        omega

theorem readNumber_length {bytes rest : Bytes} {value : Number}
    (done : readNumber bytes = .ok (value, rest)) : rest.length < bytes.length := by
  unfold readNumber at done
  split at done
  · simp at done
  · rename_i parts after found
    split at done
    · simp only [Except.ok.injEq, Prod.mk.injEq] at done
      rw [← done.2]
      exact readNumeral_length found
    · simp at done

theorem skipNumber_length {bytes rest : Bytes} (done : skipNumber bytes = .ok rest) :
    rest.length < bytes.length := by
  unfold skipNumber at done
  split at done
  · simp at done
  · rename_i parts after found
    simp only [Except.ok.injEq] at done
    rw [← done]
    exact readNumeral_length found

end TaskQueue.Json
