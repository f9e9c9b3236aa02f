import ApiTypings.Json.Scan

/-!
# Values that nobody reads

A reader that passes over one value (`skipValue`). It checks the shape of the value but
keeps nothing of it: numbers may be of any size, the halves of surrogate pairs may
stand alone, and brackets may nest to any depth.
-/

namespace ApiTypings.Json

/-- The two kinds of brackets. -/
inductive Bracket
  | square
  | curly
  deriving DecidableEq, Repr

namespace Bracket

/-- The character that closes a bracket. -/
def closing : Bracket → Char
  | .square => ']'
  | .curly => '\x7d'

/-- What a text breaks off that ends within a bracket. -/
def unfinished : Bracket → Unfinished
  | .square => .list
  | .curly => .object

/-- What is wrong if neither a comma nor the closing bracket follows an item. -/
def expectedEnd : Bracket → Cause
  | .square => .expectedItemEnd
  | .curly => .expectedEntryEnd

end Bracket

/-- Passes over digits. -/
def skipDigits {bound : Nat} (text : List Char) (h : text.length < bound) : Step Unit bound :=
  ⟨(), afterDigits text, Nat.lt_of_le_of_lt (length_afterDigits text) h⟩

/-- Passes over an exponent, if there is one. -/
def skipExponent {bound : Nat} (text : List Char) (h : text.length < bound) :
    Except Fault (Step Unit bound) :=
  match text with
  | [] => .ok ⟨(), [], h⟩
  | letter :: unread =>
    if letter = 'e' ∨ letter = 'E' then
      let sign := exponentSign unread
      if (leadingDigits sign.unread).isEmpty then .error (.within .invalidNumber sign.unread)
      else .ok (skipDigits sign.unread (Nat.lt_trans sign.shorter h))
    else .ok ⟨(), letter :: unread, h⟩

/-- Passes over a point and the digits after it, if there is a point, and over an exponent. -/
def skipFraction {bound : Nat} (text : List Char) (h : text.length < bound) :
    Except Fault (Step Unit bound) :=
  match text with
  | '.' :: unread =>
    if (leadingDigits unread).isEmpty then .error (.within .invalidNumber unread)
    else
      have shorter := length_lt_of_cons_lt h
      let step := skipDigits unread shorter
      skipExponent step.unread step.shorter
  | text => skipExponent text h

/-- Passes over a number without its sign. -/
def skipNumber {bound : Nat} (text : List Char) (h : text.length ≤ bound) :
    Except Fault (Step Unit bound) :=
  match text with
  | [] => .error (.before .invalidNumber [])
  | c :: unread =>
    have shorter := Nat.lt_of_lt_of_le (length_lt_cons c unread) h
    if c = '0' then
      if (leadingDigits unread).isEmpty then skipFraction unread shorter
      else .error (.within .invalidNumber unread)
    else if c.isDigit then
      let step := skipDigits unread shorter
      skipFraction step.unread step.shorter
    else .error (.within .invalidNumber (c :: unread))

/-- Passes over what follows a backslash. -/
def skipEscape : Reader Unit
  | [] => .error (.before (.unfinished .string) [])
  | c :: unread =>
    if (letterEscape? c).isSome then .ok ⟨(), unread, length_lt_cons c unread⟩
    else if c = 'u' then do
      let step ← hexDigits unread
      pure ((step.map fun _ => ()).widen (length_le_cons c unread))
    else .error (.within .invalidEscape (c :: unread))

/-- Passes over the characters up to the closing quote, and over the quote. -/
def skipQuoted {bound : Nat} (text : List Char) (h : text.length < bound) :
    Except Fault (Step Unit bound) :=
  match text with
  | [] => .error (.before (.unfinished .string) [])
  | c :: unread =>
    have shorter := length_lt_of_cons_lt h
    if c = '"' then .ok ⟨(), unread, shorter⟩
    else if c = '\\' then
      match skipEscape unread with
      | .error fault => .error fault
      | .ok step =>
        have := step.shorter
        skipQuoted step.unread (by omega)
    else if c.toNat < 0x20 then .error (.before .controlCharacter (c :: unread))
    else skipQuoted unread shorter
termination_by text.length
decreasing_by all_goals simp only [List.length_cons]; omega

/-- Passes over a value that is neither a list nor an object. -/
def skipScalar (c : Char) (unread : List Char) :
    Except Fault (Step Unit (unread.length + 1)) :=
  if c = 'n' then spell ['u', 'l', 'l'] unread (length_lt_succ _)
  else if c = 't' then spell ['r', 'u', 'e'] unread (length_lt_succ _)
  else if c = 'f' then spell ['a', 'l', 's', 'e'] unread (length_lt_succ _)
  else if c = '-' then skipNumber unread (length_le_succ _)
  else if c.isDigit then skipNumber (c :: unread) (Nat.le_refl _)
  else if c = '"' then skipQuoted unread (length_lt_succ _)
  else .error (.within .expectedValue (c :: unread))

/-- Passes over a key after its opening quote, and over the colon. -/
def skipKey (text : List Char) : Except Fault (Step Unit (text.length + 1)) := do
  let key ← skipQuoted text (length_lt_succ _)
  match h : skipSpace key.unread with
  | [] => .error (.within (.unfinished .object) [])
  | c :: unread =>
    if c = ':' then
      .ok ⟨(), unread, Nat.lt_trans (length_of_skipSpace h) key.shorter⟩
    else .error (.within .expectedColon (c :: unread))

/-- What a text that is passed over must go on with. -/
inductive Next
  | value
  | key
  /-- A comma or the end of the innermost bracket. -/
  | separator
  deriving DecidableEq, Repr

/-- Passes over the rest of a value, given the brackets open in it, the innermost first. -/
def skipRest {bound : Nat} (next : Next) (brackets : List Bracket) (text : List Char)
    (h : text.length < bound) : Except Fault (Step Unit bound) :=
  match next with
  | .value =>
    match hs : skipSpace text with
    | [] => .error (.within (.unfinished .value) [])
    | c :: unread =>
      have lt := length_of_skipSpace hs
      if c = '[' ∨ c = '\x7b' then
        let bracket : Bracket := if c = '[' then .square else .curly
        match ho : skipSpace unread with
        | [] => .error (.within (.unfinished bracket.unfinished) [])
        | d :: after =>
          have := length_of_skipSpace ho
          if d = bracket.closing then skipRest .separator brackets after (by omega)
          else
            skipRest (if c = '[' then .value else .key) (bracket :: brackets) unread (by omega)
      else
        match skipScalar c unread with
        | .error fault => .error fault
        | .ok step =>
          have := step.shorter
          skipRest .separator brackets step.unread (by omega)
  | .key =>
    match hs : skipSpace text with
    | [] => .error (.within (.unfinished .object) [])
    | c :: unread =>
      have lt := length_of_skipSpace hs
      if c = '"' then
        match skipKey unread with
        | .error fault => .error fault
        | .ok step =>
          have := step.shorter
          skipRest .value brackets step.unread (by omega)
      else .error (.within .keyNotString (c :: unread))
  | .separator =>
    match brackets with
    | [] => .ok ⟨(), text, h⟩
    | bracket :: outer =>
      match hs : skipSpace text with
      | [] => .error (.within (.unfinished bracket.unfinished) [])
      | c :: unread =>
        have lt := length_of_skipSpace hs
        if c = ',' then
          skipRest (match bracket with | .square => .value | .curly => .key)
            (bracket :: outer) unread (by omega)
        else if c = bracket.closing then skipRest .separator outer unread (by omega)
        else .error (.within bracket.expectedEnd (c :: unread))
termination_by text.length

end ApiTypings.Json
