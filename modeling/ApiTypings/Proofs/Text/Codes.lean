import ApiTypings.Text.Palette

/-!
# Codes in a text

A scan from left to right tells the codes in a text from its characters (`glyphs`), and so which
codes there are (`codes`) and what is left of the text without them (`withoutCodes`). Codes begin
with an escape, so a text that holds none is all characters (**`glyphs_append`**).

Codes that set an accent and codes that reset it may take turns (`takeTurns`). Then no accent is
set where there is one already, and none is left at the end.
-/

namespace ApiTypings.Text

/-- The character that a code begins with. -/
def escape : Char := '\x1b'

/-- Characters that a code may hold before its end. -/
def isParameter (c : Char) : Bool := c.isDigit || c == ';'

/-- The code that a text begins with: an escape, a bracket, parameters and an `m`. -/
def code? : List Char → Option (List Char)
  | '\x1b' :: '[' :: cs =>
    let parameters := cs.takeWhile isParameter
    if (cs.drop parameters.length).head? = some 'm' then
      some ('\x1b' :: '[' :: parameters ++ ['m'])
    else none
  | _ => none

/-- What a text is made of. -/
inductive Glyph
  | char (c : Char)
  | code (s : String)
  deriving DecidableEq, Repr

namespace Glyph

/-- The character, if it is one. -/
def char? : Glyph → Option Char
  | .char c => some c
  | .code _ => none

/-- The code, if it is one. -/
def code? : Glyph → Option String
  | .char _ => none
  | .code s => some s

end Glyph

/-- What a text is made of after its first characters, of which as many are skipped as given. -/
def glyphs : Nat → List Char → List Glyph
  | _, [] => []
  | skipped + 1, _ :: cs => glyphs skipped cs
  | 0, c :: cs =>
    match code? (c :: cs) with
    | none => .char c :: glyphs 0 cs
    | some code => .code (String.ofList code) :: glyphs (code.length - 1) cs

/-- A text without its codes. -/
def withoutCodes (text : String) : String :=
  String.ofList ((glyphs 0 text.toList).filterMap Glyph.char?)

/-- The codes in a text. -/
def codes (text : String) : List String := (glyphs 0 text.toList).filterMap Glyph.code?

/-- The codes take turns, given whether an accent is set before them: where one is, the next
code resets it, and where none is, the next code sets one or there is no other code. -/
def takeTurns : Bool → List String → Bool
  | accented, [] => !accented
  | false, code :: codes => code != Palette.coded.reset && takeTurns true codes
  | true, code :: codes => code == Palette.coded.reset && takeTurns false codes

/-! ### What texts are made of -/

theorem glyphs_cons {c : Char} (hc : c ≠ escape) (cs : List Char) :
    glyphs 0 (c :: cs) = .char c :: glyphs 0 cs := by
  have hnone : code? (c :: cs) = none := by
    rw [code?]
    exact fun _ h => hc (List.cons.inj h).1
  rw [glyphs, hnone]

/-- A text without an escape is all characters. -/
theorem glyphs_append {xs : List Char} (h : escape ∉ xs) (rest : List Char) :
    glyphs 0 (xs ++ rest) = xs.map .char ++ glyphs 0 rest := by
  induction xs with
  | nil => rfl
  | cons c xs ih =>
    obtain ⟨hc, hxs⟩ := List.ne_and_not_mem_of_not_mem_cons h
    rw [List.cons_append, glyphs_cons hc.symm, ih hxs, List.map_cons, List.cons_append]

namespace Palette

/-- The code of an accent is one code. -/
theorem glyphs_code (a : Accent) (rest : List Char) :
    glyphs 0 ((coded.code a).toList ++ rest) = .code (coded.code a) :: glyphs 0 rest := by
  cases a <;> rfl

theorem glyphs_reset (rest : List Char) :
    glyphs 0 (coded.reset.toList ++ rest) = .code coded.reset :: glyphs 0 rest := rfl

theorem code_ne_reset (a : Accent) : coded.code a ≠ coded.reset := by
  cases a <;> decide

end Palette

end ApiTypings.Text
