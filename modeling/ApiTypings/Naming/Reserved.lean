/-!
# Reserved words

The words that a declaration cannot have as a name (`isReserved`), in whatever case they
are written, and the name that a parameter gets instead of the one of them that
documentation uses (`parameterName`).
-/

namespace ApiTypings.Naming

/-- The reserved words, in lower case. -/
def reservedWords : List String :=
  ["break", "case", "catch", "class", "const", "continue", "debugger", "default", "delete", "do",
    "else", "enum", "export", "extends", "false", "finally", "for", "function", "if", "import",
    "in", "instanceof", "new", "null", "return", "super", "switch", "this", "throw", "true",
    "try", "typeof", "var", "void", "while", "with", "as", "implements", "interface", "let",
    "package", "private", "protected", "public", "static", "yield"]

/-- The lower case of a character, where that is an ASCII letter: of the ASCII capitals and
of the Kelvin sign. Every other character stands for itself. -/
def foldCase (c : Char) : Char := if c.toNat = 0x212A then 'k' else c.toLower

/-- Whether a name is a reserved word, in whatever case. The words are all of ASCII
letters, so no other character than those of `foldCase` matters. -/
def isReserved (name : String) : Bool :=
  reservedWords.contains (String.ofList (name.toList.map foldCase))

/-- The name of a documented parameter: `function` becomes `func`. -/
def parameterName (name : String) : String := if name = "function" then "func" else name

theorem parameterName_ne (name : String) : parameterName name ≠ "function" := by
  unfold parameterName
  split
  · decide
  · assumption

end ApiTypings.Naming
