import ApiTypings.Layout.Piece

/-!
# Diagnostics

What is reported about documentation while declarations are made of it (`Diagnostic`).
Nothing that is reported stops the work. A diagnostic has a kind, which fixes its
severity, its wording and its hint, and the place of what it is about.
-/

namespace ApiTypings

open Layout Piece

/-- How bad something is. -/
inductive Severity
  | error
  | warning
  deriving DecidableEq, Repr

namespace Severity

/-- The word for a severity. -/
def word : Severity → String
  | error => "error"
  | warning => "warning"

/-- The accent of a severity. -/
def accent : Severity → Text.Accent
  | error => .red
  | warning => .yellow

end Severity

/-- What a diagnostic is about. -/
inductive DiagnosticKind
  /-- A method has not as many results as lists of parameters. -/
  | overloadMismatch
  /-- The parent of a class is not documented. -/
  | unresolvedParent
  /-- A class is among its own ancestors. -/
  | parentCycle
  /-- A type is neither documented nor otherwise known. -/
  | unknownType
  /-- A name is a reserved word. -/
  | reservedIdentifier
  deriving DecidableEq, Repr

namespace DiagnosticKind

/-- All kinds, errors first. -/
def all : List DiagnosticKind :=
  [overloadMismatch, unresolvedParent, parentCycle, unknownType, reservedIdentifier]

theorem mem_all (k : DiagnosticKind) : k ∈ all := by cases k <;> decide

/-- The severity of a kind. -/
def severity : DiagnosticKind → Severity
  | overloadMismatch => .error
  | unresolvedParent | parentCycle | unknownType | reservedIdentifier => .warning

/-- The stable name of a kind. -/
def code : DiagnosticKind → String
  | overloadMismatch => "overload-mismatch"
  | unresolvedParent => "unresolved-parent"
  | parentCycle => "parent-cycle"
  | unknownType => "unknown-type"
  | reservedIdentifier => "reserved-identifier"

/-- The hint that every diagnostic of a kind has. -/
def hint? : DiagnosticKind → Option String
  | overloadMismatch => some "only the positionally matched overloads are emitted"
  | unresolvedParent => some "the class is emitted without an `extends` clause"
  | parentCycle => some "the chain is cut where it repeats"
  | unknownType => some "emitted as a plain type reference"
  | reservedIdentifier => none

/-- The message without any detail. -/
def fallback : DiagnosticKind → String
  | overloadMismatch => "overload count does not match return count"
  | unresolvedParent => "parent class not found"
  | parentCycle => "cyclic parent chain"
  | unknownType => "unknown type"
  | reservedIdentifier => "reserved word used as identifier"

/-- What stands before and after the detail in a message that has one. -/
def frame : DiagnosticKind → String × String
  | overloadMismatch => (overloadMismatch.fallback ++ ": ", "")
  | unresolvedParent => ("parent `", "` is not a documented class")
  | parentCycle => ("cyclic parent chain through `", "`")
  | unknownType => ("unknown type `", "`")
  | reservedIdentifier => ("`", "` is a reserved word")

/-- The message, with a detail if one is given. -/
def message (k : DiagnosticKind) : Option String → String
  | none => k.fallback
  | some detail => k.frame.1 ++ detail ++ k.frame.2

/-- The message with braces in the place of the detail. -/
def template (k : DiagnosticKind) : String := k.message (some "\x7b\x7d")

end DiagnosticKind

/-- Something that is reported. -/
structure Diagnostic where
  kind : DiagnosticKind
  /-- The dotted path of the declaration that it is about. -/
  location : String
  message : String
  hints : List String
  deriving DecidableEq, Repr

namespace Diagnostic

/-- The diagnostic of a kind without any detail. -/
def plain (kind : DiagnosticKind) (location : String) : Diagnostic :=
  ⟨kind, location, kind.message none, kind.hint?.toList⟩

/-- The diagnostic with the message for a detail. -/
def withDetail (d : Diagnostic) (detail : String) : Diagnostic :=
  { d with message := d.kind.message (some detail) }

/-- The diagnostic with one more hint. -/
def withHint (d : Diagnostic) (hint : String) : Diagnostic := { d with hints := d.hints ++ [hint] }

/-- The severity of the kind. -/
def severity (d : Diagnostic) : Severity := d.kind.severity

/-- Whether the diagnostic is an error. -/
def isError (d : Diagnostic) : Bool := d.severity == .error

/-- Whether the diagnostic is a warning. -/
def isWarning (d : Diagnostic) : Bool := d.severity == .warning

/-- The diagnostic on one line. -/
def summary (d : Diagnostic) : String :=
  d.severity.word ++ ": " ++ d.message ++
    (if d.location.isEmpty then "" else " at " ++ d.location) ++
    String.join (d.hints.map fun hint => " (hint: " ++ hint ++ ")")

/-- The lines of the diagnostic: a headline, the location if there is one, and the hints. -/
def lines (d : Diagnostic) : List Line :=
  [⟨0, accented d.severity.accent d.severity.word ++ [text (": " ++ d.message)]⟩] ++
    (if d.location.isEmpty then []
      else [⟨0, [text "  "] ++ accented .blue "-->" ++ [text (" " ++ d.location)]⟩]) ++
    d.hints.map fun hint => ⟨0, [text "  "] ++ accented .blue "=" ++ [text (" hint: " ++ hint)]⟩

end Diagnostic

/-- What is reported, in the order in which it is. -/
abbrev Diagnostics := List Diagnostic

namespace Diagnostics

/-- How many errors there are. -/
def errorCount (ds : Diagnostics) : Nat := ds.countP (·.isError)

/-- How many warnings there are. -/
def warningCount (ds : Diagnostics) : Nat := ds.countP (·.isWarning)

/-- Whether there is an error. -/
def hasErrors (ds : Diagnostics) : Bool := ds.any (·.isError)

/-- Whether there is a warning. -/
def hasWarnings (ds : Diagnostics) : Bool := ds.any (·.isWarning)

/-- How many diagnostics are of a kind. -/
def countOf (ds : Diagnostics) (kind : DiagnosticKind) : Nat := ds.countP (·.kind == kind)

/-- The kinds of the diagnostics in the order of all kinds. -/
def sortedKinds (ds : Diagnostics) : List DiagnosticKind :=
  DiagnosticKind.all.flatMap fun kind => (ds.map (·.kind)).filter (· == kind)

/-- The lines of the diagnostics, with an empty one between neighbours. -/
def lines : Diagnostics → List Line
  | [] => []
  | [d] => d.lines
  | d :: ds => d.lines ++ ⟨0, []⟩ :: lines ds

/-- The diagnostics as a text. -/
def render (palette : Text.Palette) (ds : Diagnostics) : String :=
  Line.renderAll palette 0 ds.lines

end Diagnostics

end ApiTypings
