import ApiTypings.Json.Value

/-!
# JSON texts

The compact text of a JSON value (`Json.text`): no blanks, the entries of an object
in their order, and of all characters only quotes, backslashes and control
characters escaped. Whole numbers are written plainly, and a double with the fewest
digits that read back, in positional notation unless it is very large or very small.
-/

namespace ApiTypings

namespace Decimal

/-- The least place of a leading digit that is written in positional notation. -/
def leastPlace : Int := -5

/-- The greatest place of a leading digit that is written in positional notation. -/
def greatestPlace : Int := 15

/-- The digits of a decimal, with a point and at least one digit on each side of it, or
with the first digit before the point and a signed power of ten after an `e`. -/
def layout (d : Decimal) : List Char :=
  let digits := Nat.toDigits 10 d.digits
  let place := digits.length + d.exponent - 1
  if place < leastPlace ∨ greatestPlace < place then
    let fraction := digits.drop 1
    digits.take 1 ++ (if fraction.isEmpty then [] else '.' :: fraction) ++
      ['e', if place < 0 then '-' else '+'] ++ Nat.toDigits 10 place.natAbs
  else if place < 0 then
    '0' :: '.' :: List.replicate (place.natAbs - 1) '0' ++ digits
  else if d.exponent < 0 then
    digits.take (place.toNat + 1) ++ '.' :: digits.drop (place.toNat + 1)
  else digits ++ List.replicate d.exponent.toNat '0' ++ ['.', '0']

end Decimal

namespace Number

/-- The digits of a number, after a minus if it has one. -/
def chars : Number → List Char
  | .whole i _ => (if i < 0 then ['-'] else []) ++ Nat.toDigits 10 i.natAbs
  | .double x => (if x.negative then ['-'] else []) ++ x.shortest.layout

/-- The text of a number. -/
def text (n : Number) : String := String.ofList n.chars

end Number

namespace Json

/-- The hexadecimal digit of a number below sixteen, in lower case. -/
def hexDigit (n : Nat) : Char := Nat.digitChar n

/-- How a character is written within quotes. -/
def escaped (c : Char) : List Char :=
  if c = '"' then ['\\', '"']
  else if c = '\\' then ['\\', '\\']
  else if c = '\x08' then ['\\', 'b']
  else if c = '\t' then ['\\', 't']
  else if c = '\n' then ['\\', 'n']
  else if c = '\x0c' then ['\\', 'f']
  else if c = '\r' then ['\\', 'r']
  else if c.toNat < 0x20 then
    ['\\', 'u', '0', '0', hexDigit (c.toNat / 16), hexDigit (c.toNat % 16)]
  else [c]

/-- A text within quotes. -/
def quoted (s : String) : List Char := '"' :: s.toList.flatMap escaped ++ ['"']

/-- The comma before every item but the first. -/
def separator (first : Bool) : List Char := if first then [] else [',']

mutual

/-- The compact text of a value. -/
def chars : Json → List Char
  | .null => ['n', 'u', 'l', 'l']
  | .bool true => ['t', 'r', 'u', 'e']
  | .bool false => ['f', 'a', 'l', 's', 'e']
  | .num n => n.chars
  | .str s => quoted s
  | .arr items => '[' :: itemChars true items
  | .obj entries => '\x7b' :: entryChars true entries

/-- The items of an array, and the bracket that closes it. -/
def itemChars (first : Bool) : List Json → List Char
  | [] => [']']
  | x :: xs => separator first ++ chars x ++ itemChars false xs

/-- The entries of an object, and the brace that closes it. -/
def entryChars (first : Bool) : List (String × Json) → List Char
  | [] => ['\x7d']
  | (key, x) :: xs => separator first ++ quoted key ++ ':' :: chars x ++ entryChars false xs

end

/-- The compact text of a value. -/
def text (v : Json) : String := String.ofList v.chars

end Json

end ApiTypings
