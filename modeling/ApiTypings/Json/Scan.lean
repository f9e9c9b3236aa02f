import ApiTypings.Json.Fault

/-!
# Tokens of a JSON text

Readers of the tokens of a JSON text: blanks, words, numbers and texts within quotes. A
reader sees the characters that have not been read, and answers with a value and what is
left of them (`Step`), which is less than what there was. That bound is part of the
answer, so every loop over a text ends because the text does.
-/

namespace ApiTypings.Json

/-- A value that was read and the unread text, shorter than a bound. -/
structure Step (α : Type) (bound : Nat) where
  value : α
  unread : List Char
  shorter : unread.length < bound

/-- Reads a value off the front of a text, or says what is wrong. -/
abbrev Reader (α : Type) := (text : List Char) → Except Fault (Step α text.length)

namespace Step

/-- The same step with another value. -/
def map {α β : Type} {bound : Nat} (f : α → β) (step : Step α bound) : Step β bound :=
  ⟨f step.value, step.unread, step.shorter⟩

/-- The same step under a wider bound. -/
def widen {α : Type} {bound wider : Nat} (step : Step α bound) (h : bound ≤ wider) :
    Step α wider :=
  ⟨step.value, step.unread, Nat.lt_of_lt_of_le step.shorter h⟩

end Step

/-- Applies a function to what a reader reads. -/
def Reader.map {α β : Type} (f : α → β) (reader : Reader α) : Reader β :=
  fun text => (reader text).map (Step.map f)

/-! ### Lengths -/

theorem length_lt_succ (text : List Char) : text.length < text.length + 1 :=
  Nat.lt_succ_self _

theorem length_le_succ (text : List Char) : text.length ≤ text.length + 1 :=
  Nat.le_succ _

theorem length_lt_cons (c : Char) (text : List Char) : text.length < (c :: text).length :=
  Nat.lt_succ_self _

theorem length_le_cons (c : Char) (text : List Char) : text.length ≤ (c :: text).length :=
  Nat.le_succ _

theorem length_lt_of_cons_lt {c : Char} {text : List Char} {bound : Nat}
    (h : (c :: text).length < bound) : text.length < bound :=
  Nat.lt_trans (length_lt_cons c text) h

/-! ### Blanks and words -/

/-- Whether a character may stand between tokens. -/
def isSpace (c : Char) : Bool := c = ' ' || c = '\t' || c = '\n' || c = '\r'

/-- The text from its next token on. -/
def skipSpace (text : List Char) : List Char := text.dropWhile isSpace

theorem length_skipSpace (text : List Char) : (skipSpace text).length ≤ text.length :=
  (List.dropWhile_sublist isSpace).length_le

theorem length_of_skipSpace {text unread : List Char} {c : Char}
    (h : skipSpace text = c :: unread) : unread.length < text.length := by
  have := length_skipSpace text
  simp only [h, List.length_cons] at this
  omega

/-- Reads the given letters, the rest of a word. -/
def spell {bound : Nat} (letters text : List Char) (h : text.length < bound) :
    Except Fault (Step Unit bound) :=
  match letters, text with
  | [], text => .ok ⟨(), text, h⟩
  | _ :: _, [] => .error (.before (.unfinished .value) [])
  | letter :: letters, c :: unread =>
    if c = letter then spell letters unread (length_lt_of_cons_lt h)
    else .error (.within .expectedWord (c :: unread))

/-! ### Numbers -/

/-- The number that decimal digits spell. -/
def natOfDigits (digits : List Char) : Nat :=
  digits.foldl (fun n c => 10 * n + (c.toNat - '0'.toNat)) 0

/-- The digits at the front of a text. -/
def leadingDigits (text : List Char) : List Char := text.takeWhile Char.isDigit

/-- The text after the digits at its front. -/
def afterDigits (text : List Char) : List Char := text.dropWhile Char.isDigit

theorem length_afterDigits (text : List Char) : (afterDigits text).length ≤ text.length :=
  (List.dropWhile_sublist Char.isDigit).length_le

/-- A fault in the next character, the end of the text being one of its own kind. -/
def invalidNumberAt (text : List Char) : Fault :=
  .within (if text.isEmpty then .unfinished .value else .invalidNumber) text

/-- Reads the digits before the point: no zero stands before another digit. -/
def wholeDigits : Reader (List Char)
  | [] => .error (.before (.unfinished .value) [])
  | c :: unread =>
    if c = '0' then
      if (leadingDigits unread).isEmpty then .ok ⟨[c], unread, length_lt_cons c unread⟩
      else .error (.within .invalidNumber unread)
    else if c.isDigit then
      .ok ⟨c :: leadingDigits unread, afterDigits unread,
        Nat.lt_of_le_of_lt (length_afterDigits unread) (length_lt_cons c unread)⟩
    else .error (.within .invalidNumber (c :: unread))

/-- Reads a point and the digits after it, if there is a point. -/
def fractionDigits (text : List Char) :
    Except Fault (Step (Option (List Char)) (text.length + 1)) :=
  match text with
  | '.' :: unread =>
    if (leadingDigits unread).isEmpty then .error (invalidNumberAt unread)
    else .ok ⟨some (leadingDigits unread), afterDigits unread, by
      have := length_afterDigits unread
      simp only [List.length_cons]
      omega⟩
  | text => .ok ⟨none, text, by omega⟩

/-- The largest exponent that is taken as it is: `2 ^ 31 - 1`. -/
def greatestExponent : Nat := 0x7FFFFFFF

/-- Reads the digits of an exponent after those that spell `spelt`, until it would pass the
greatest exponent: no number is then left. -/
def exponentDigits {bound : Nat} (spelt : Nat) (text : List Char) (h : text.length < bound) :
    Step (Option Nat) bound :=
  match text with
  | [] => ⟨some spelt, [], h⟩
  | c :: unread =>
    if c.isDigit then
      let next := 10 * spelt + (c.toNat - '0'.toNat)
      have shorter := length_lt_of_cons_lt h
      if greatestExponent < next then ⟨none, unread, shorter⟩
      else exponentDigits next unread shorter
    else ⟨some spelt, c :: unread, h⟩

/-- An exponent as it is written: its sign, and its digits unless they are too many. -/
structure WrittenExponent where
  negative : Bool
  size : Option Nat

/-- Reads a sign, if there is one. -/
def exponentSign (text : List Char) : Step Bool (text.length + 1) :=
  match text with
  | '+' :: unread => ⟨false, unread, by simp only [List.length_cons]; omega⟩
  | '-' :: unread => ⟨true, unread, by simp only [List.length_cons]; omega⟩
  | text => ⟨false, text, by omega⟩

/-- Reads an exponent with the letter before it, if there is one. -/
def exponentPart (text : List Char) :
    Except Fault (Step (Option WrittenExponent) (text.length + 1)) :=
  match text with
  | [] => .ok ⟨none, [], by simp⟩
  | letter :: unread =>
    if letter = 'e' ∨ letter = 'E' then
      let sign := exponentSign unread
      match h : sign.unread with
      | [] => .error (.before (.unfinished .value) [])
      | c :: digits =>
        if c.isDigit then
          let size := exponentDigits (c.toNat - '0'.toNat) digits (length_lt_succ digits)
          .ok ⟨some ⟨sign.value, size.value⟩, size.unread, by
            have := size.shorter
            have := sign.shorter
            simp only [h, List.length_cons] at this ⊢
            omega⟩
        else .error (.within .invalidNumber (c :: digits))
    else .ok ⟨none, letter :: unread, by omega⟩

/-- The number that digits and an exponent spell, if it is not too large. Without a point
and an exponent it is a whole number, but for minus zero, which is a double. -/
def numberOf? (negative : Bool) (whole : List Char) (fraction : Option (List Char))
    (exponent : Option WrittenExponent) : Option Number :=
  let digits := natOfDigits (whole ++ fraction.getD [])
  let double (power : Int) : Option Number :=
    (Binary64.ofDecimal? negative ⟨digits, power⟩).map .double
  let places : Int := (fraction.getD []).length
  match fraction, exponent with
  | none, none =>
    if negative && digits == 0 then double 0
    else Number.ofInt? (if negative then -digits else digits)
  | _, none => double (-places)
  | _, some ⟨minus, some size⟩ => double ((if minus then -(size : Int) else size) - places)
  | _, some ⟨minus, none⟩ =>
    if minus || digits == 0 then some (.double (.zero negative)) else none

/-- Reads a number without its sign. -/
def unsigned (negative : Bool) : Reader Number := fun text => do
  let whole ← wholeDigits text
  let fraction ← fractionDigits whole.unread
  let exponent ← exponentPart fraction.unread
  have shorter : exponent.unread.length < text.length := by
    have := whole.shorter
    have := fraction.shorter
    have := exponent.shorter
    omega
  match numberOf? negative whole.value fraction.value exponent.value with
  | none => .error (.before .numberOutOfRange exponent.unread)
  | some number =>
    match exponent.value with
    | some ⟨_, none⟩ =>
      .ok ⟨number, afterDigits exponent.unread,
        Nat.lt_of_le_of_lt (length_afterDigits _) shorter⟩
    | _ => .ok ⟨number, exponent.unread, shorter⟩

/-- Reads a number. -/
def number : Reader Number
  | '-' :: unread => do
    let step ← unsigned true unread
    pure (step.widen (length_le_cons '-' unread))
  | text => unsigned false text

/-! ### Texts within quotes -/

/-- The number that a hexadecimal digit stands for. -/
def hexValue? (c : Char) : Option Nat :=
  if c.isDigit then some (c.toNat - '0'.toNat)
  else if 'a' ≤ c ∧ c ≤ 'f' then some (c.toNat - 'a'.toNat + 10)
  else if 'A' ≤ c ∧ c ≤ 'F' then some (c.toNat - 'A'.toNat + 10)
  else none

/-- The number that four hexadecimal digits spell. -/
def hexNumber? (a b c d : Char) : Option Nat := do
  return (((← hexValue? a) * 16 + (← hexValue? b)) * 16 + (← hexValue? c)) * 16 + (← hexValue? d)

/-- What is wrong with a text that does not begin with four hexadecimal digits: the next
four bytes are no digits, or there are not as many. -/
def hexFault (text : List Char) : Fault :=
  if byteCount text < 4 then .before (.unfinished .string) []
  else ⟨.invalidEscape, byteCount text - 4⟩

/-- Reads four hexadecimal digits. -/
def hexDigits : Reader Nat
  | a :: b :: c :: d :: unread =>
    match hexNumber? a b c d with
    | some n => .ok ⟨n, unread, by simp only [List.length_cons]; omega⟩
    | none => .error (hexFault (a :: b :: c :: d :: unread))
  | text => .error (hexFault text)

/-- Whether a number is the first half of a surrogate pair. -/
def isHighSurrogate (n : Nat) : Bool := 0xD800 ≤ n && n ≤ 0xDBFF

/-- Whether a number is the second half of a surrogate pair. -/
def isLowSurrogate (n : Nat) : Bool := 0xDC00 ≤ n && n ≤ 0xDFFF

/-- The character that a surrogate pair stands for. -/
def ofSurrogates (high low : Nat) : Char :=
  Char.ofNat (0x10000 + (high - 0xD800) * 0x400 + (low - 0xDC00))

/-- Reads a given character after the first half of a surrogate pair. -/
def pairMark (mark : Char) : Reader Unit
  | [] => .error (.before (.unfinished .string) [])
  | c :: unread =>
    if c = mark then .ok ⟨(), unread, length_lt_cons c unread⟩
    else .error (.within .brokenSurrogate (c :: unread))

/-- Reads what follows the `u` of an escape: a character, or both halves of a pair. -/
def unicodeEscape : Reader Char := fun text => do
  let first ← hexDigits text
  if isLowSurrogate first.value then .error (.before .loneSurrogate first.unread)
  else if isHighSurrogate first.value then
    let backslash ← pairMark '\\' first.unread
    let letter ← pairMark 'u' backslash.unread
    let second ← hexDigits letter.unread
    if isLowSurrogate second.value then
      .ok ⟨ofSurrogates first.value second.value, second.unread, by
        have := first.shorter
        have := backslash.shorter
        have := letter.shorter
        have := second.shorter
        omega⟩
    else .error (.before .loneSurrogate second.unread)
  else .ok (first.map Char.ofNat)

/-- The character that an escape of one letter stands for. -/
def letterEscape? (c : Char) : Option Char :=
  if c = '"' ∨ c = '\\' ∨ c = '/' then some c
  else if c = 'b' then some '\x08'
  else if c = 'f' then some '\x0c'
  else if c = 'n' then some '\n'
  else if c = 'r' then some '\r'
  else if c = 't' then some '\t'
  else none

/-- Reads what follows a backslash. -/
def escape : Reader Char
  | [] => .error (.before (.unfinished .string) [])
  | c :: unread =>
    match letterEscape? c with
    | some e => .ok ⟨e, unread, length_lt_cons c unread⟩
    | none =>
      if c = 'u' then do
        let step ← unicodeEscape unread
        pure (step.widen (length_le_cons c unread))
      else .error (.within .invalidEscape (c :: unread))

/-- Reads the characters up to the closing quote, and the quote. Those read before are in
`read`, the last one first. -/
def quotedChars {bound : Nat} (read text : List Char) (h : text.length < bound) :
    Except Fault (Step (List Char) bound) :=
  match text with
  | [] => .error (.before (.unfinished .string) [])
  | c :: unread =>
    have shorter := length_lt_of_cons_lt h
    if c = '"' then .ok ⟨read.reverse, unread, shorter⟩
    else if c = '\\' then
      match escape unread with
      | .error fault => .error fault
      | .ok step =>
        have := step.shorter
        quotedChars (step.value :: read) step.unread (by omega)
    else if c.toNat < 0x20 then .error (.before .controlCharacter unread)
    else quotedChars (c :: read) unread shorter
termination_by text.length
decreasing_by all_goals simp only [List.length_cons]; omega

/-- Reads a text after its opening quote. -/
def afterQuote (text : List Char) : Except Fault (Step String (text.length + 1)) :=
  (quotedChars [] text (length_lt_succ _)).map (Step.map String.ofList)

end ApiTypings.Json
