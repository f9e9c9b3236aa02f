import ApiTypings.Json.Text
import ApiTypings.Text.Shown

/-!
# Faults of a JSON text

What can be wrong with a JSON text (`Cause`), how a message says it (`Cause.message`),
and where it is wrong (`Fault`). A fault knows how many bytes of the text were left, so
that a reader needs to see only what it has not read yet; `Fault.position` finds the line
and the column from that.
-/

namespace ApiTypings.Json

/-- What was begun when the text ended. -/
inductive Unfinished
  | value
  | list
  | object
  | string
  deriving DecidableEq, Repr

/-- What stands where something else is wanted. -/
inductive Found
  | null
  | bool (b : Bool)
  | number (n : Number)
  | string (s : String)
  | map
  | sequence
  deriving DecidableEq

/-- What is wrong with a text. -/
inductive Cause
  /-- The text ends too early. -/
  | unfinished (what : Unfinished)
  /-- No value begins here. -/
  | expectedValue
  /-- A word is none of the three that JSON has. -/
  | expectedWord
  | expectedColon
  /-- An item of a list is followed by neither a comma nor the end. -/
  | expectedItemEnd
  /-- An entry of an object is followed by neither a comma nor the end. -/
  | expectedEntryEnd
  | keyNotString
  | trailingComma
  | trailingCharacters
  | invalidNumber
  /-- A number is larger than every double. -/
  | numberOutOfRange
  | invalidEscape
  /-- A character below the space stands within quotes. -/
  | controlCharacter
  /-- An escape for the second half of a pair has no first half before it, or one for a
  first half is followed by an escape that is no second half. -/
  | loneSurrogate
  /-- An escape for the first half of a pair is followed by no such escape. -/
  | brokenSurrogate
  /-- Too many brackets are open. -/
  | tooDeep
  /-- A value is of another kind than wanted. -/
  | wrongType (found : Found) (wanted : String)
  /-- A record ends without one of its fields. -/
  | missingField (name : String)
  /-- A record has a field twice. -/
  | duplicateField (name : String)
  /-- A record that is written as a list ends before a field without a default. -/
  | wrongLength (length : Nat) (record : String) (fields : Nat)
  deriving DecidableEq

/-- The three sorts of faults. -/
inductive Category
  /-- The text is no JSON. -/
  | syntactic
  /-- The text is JSON, but not of the wanted shape. -/
  | data
  /-- The text ends too early. -/
  | ending
  deriving DecidableEq, Repr

namespace Unfinished

/-- The word for it in a message. -/
def noun : Unfinished → String
  | .value => "a value"
  | .list => "a list"
  | .object => "an object"
  | .string => "a string"

end Unfinished

namespace Found

/-- How a message names what was found. -/
def describe : Found → String
  | .null => "null"
  | .bool b => "boolean `" ++ (if b then "true" else "false") ++ "`"
  | .number (.whole i h) => "integer `" ++ (Number.whole i h).text ++ "`"
  | .number (.double x) => "floating point `" ++ (Number.double x).text ++ "`"
  | .string s => "string " ++ Text.shown s
  | .map => "map"
  | .sequence => "sequence"

end Found

namespace Cause

/-- The sort of fault. -/
def category : Cause → Category
  | .unfinished _ => .ending
  | .wrongType _ _ | .missingField _ | .duplicateField _ | .wrongLength _ _ _ => .data
  | _ => .syntactic

/-- The message for a fault, without its position. -/
def message : Cause → String
  | .unfinished what => "EOF while parsing " ++ what.noun
  | .expectedValue => "expected value"
  | .expectedWord => "expected ident"
  | .expectedColon => "expected `:`"
  | .expectedItemEnd => "expected `,` or `]`"
  | .expectedEntryEnd => "expected `,` or `\x7d`"
  | .keyNotString => "key must be a string"
  | .trailingComma => "trailing comma"
  | .trailingCharacters => "trailing characters"
  | .invalidNumber => "invalid number"
  | .numberOutOfRange => "number out of range"
  | .invalidEscape => "invalid escape"
  | .controlCharacter => "control character (\\u0000-\\u001F) found while parsing a string"
  | .loneSurrogate => "lone leading surrogate in hex escape"
  | .brokenSurrogate => "unexpected end of hex escape"
  | .tooDeep => "recursion limit exceeded"
  | .wrongType found wanted => "invalid type: " ++ found.describe ++ ", expected " ++ wanted
  | .missingField name => "missing field `" ++ name ++ "`"
  | .duplicateField name => "duplicate field `" ++ name ++ "`"
  | .wrongLength length record fields =>
    "invalid length " ++ toString length ++ ", expected struct " ++ record ++ " with " ++
      toString fields ++ " element" ++ (if fields = 1 then "" else "s")

end Cause

/-- How many bytes characters take in UTF-8. -/
def byteCount (cs : List Char) : Nat := cs.foldr (fun c count => c.utf8Size + count) 0

/-- What is wrong with a text, and how many of its bytes follow the place where it shows. -/
structure Fault where
  cause : Cause
  left : Nat
  deriving DecidableEq

namespace Fault

/-- A fault that shows before the unread text. -/
def before (cause : Cause) (unread : List Char) : Fault := ⟨cause, byteCount unread⟩

/-- A fault that shows in the first byte of the unread text, or at the end of the text if
nothing is unread. -/
def within (cause : Cause) (unread : List Char) : Fault := ⟨cause, byteCount unread - 1⟩

/-- A line and a column, the line counted from one and the column in bytes. -/
structure Position where
  line : Nat
  column : Nat
  deriving DecidableEq, Repr

/-- The position after `count` bytes of a text, given the position of its beginning. A
place within a character counts the bytes of it that come before. -/
def advance (position : Position) (count : Nat) : List Char → Position
  | [] => position
  | c :: cs =>
    if count = 0 then position
    else if count < c.utf8Size then ⟨position.line, position.column + count⟩
    else if c = '\n' then advance ⟨position.line + 1, 0⟩ (count - 1) cs
    else advance ⟨position.line, position.column + c.utf8Size⟩ (count - c.utf8Size) cs

/-- Where in a text the fault shows. -/
def position (fault : Fault) (text : String) : Position :=
  advance ⟨1, 0⟩ (byteCount text.toList - fault.left) text.toList

/-- The message with the position at its end. -/
def report (fault : Fault) (text : String) : String :=
  let place := fault.position text
  fault.cause.message ++ " at line " ++ toString place.line ++ " column " ++
    toString place.column

end Fault

end ApiTypings.Json
