/-!
# Terminal accents

A palette holds the escape codes with which a text is accented on a terminal. There
are two of them, the coded one and the plain one, in which every code is empty.
-/

namespace ApiTypings.Text

/-- The ways to set a stretch of text off from its surroundings. -/
inductive Accent
  /-- Declared names, type references and pointers to a location. -/
  | blue
  /-- Errors. -/
  | red
  /-- Warnings. -/
  | yellow
  /-- Keywords and comments. -/
  | dim
  deriving DecidableEq, Repr

/-- The code of every accent, and the code that ends each of them. -/
structure Palette where
  blue : String
  red : String
  yellow : String
  dim : String
  reset : String
  deriving DecidableEq, Repr

namespace Palette

/-- The codes of a terminal with sixteen colours. -/
def coded : Palette where
  blue := "\x1b[34m"
  red := "\x1b[31m"
  yellow := "\x1b[33m"
  dim := "\x1b[2m"
  reset := "\x1b[0m"

/-- No codes at all. -/
def plain : Palette := ⟨"", "", "", "", ""⟩

/-- The coded palette if accents are wanted. -/
def ofBool (accented : Bool) : Palette := if accented then coded else plain

instance : Inhabited Palette := ⟨plain⟩

/-- The code that begins an accent. -/
def code (p : Palette) : Accent → String
  | .blue => p.blue
  | .red => p.red
  | .yellow => p.yellow
  | .dim => p.dim

/-- Whether the palette has codes. -/
def isCoded (p : Palette) : Bool := !p.reset.isEmpty

/-- A text between a code and the code that ends it; an empty code adds neither. -/
def paint (p : Palette) (code text : String) : String :=
  if code.isEmpty then text else code ++ text ++ p.reset

@[simp] theorem paint_empty (p : Palette) (text : String) : p.paint "" text = text := rfl

end Palette

end ApiTypings.Text
