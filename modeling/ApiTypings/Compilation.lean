import ApiTypings.Docs.Read
import ApiTypings.Emission.Hierarchy
import ApiTypings.Emission.Namespace
import ApiTypings.Layout.Statement
import ApiTypings.Rules.Builtin

/-!
# Compilation

Documentation becomes a declaration file (`Docs.compile`): the interfaces of all classes,
then the blocks of the two namespaces. What is wrong with the documentation is reported
along with it, and the file is made all the same.
-/

namespace ApiTypings

/-- The types that are known besides the documented classes, unless others are named. -/
def extraTypes : List String := ["ModelPartAPI", "ModelPartIndex", "T"]

/-- How documentation is compiled. -/
structure Config where
  /-- The types that are known besides the documented classes. -/
  known : List String := extraTypes
  /-- The rules for types. -/
  rules : RuleTable := .builtin
  /-- How the declarations are printed. -/
  style : Layout.Style := {}

/-- A declaration file, and what was reported while it was made. -/
structure Compilation where
  statements : List Statement
  diagnostics : Diagnostics

namespace Docs

/-- The context in which documentation is compiled. -/
def context (d : Docs) (config : Config) : Context :=
  { known := d.classes.map (·.name) ++ config.known }

/-- Makes the declarations of a declaration file. -/
def emit (d : Docs) (rules : RuleTable) : Checked (List Statement) := do
  let interfaces ← Hierarchy.emit ⟨d.classes⟩ rules
  let blocks ← Checked.gather (fun c => (c.blockEmission rules).emit) d.namespaces
  return interfaces ++ blocks

/-- The declaration file for documentation. -/
def compile (d : Docs) (config : Config) : Compilation :=
  let result := (d.emit config.rules).run (d.context config)
  ⟨result.value, result.diagnostics⟩

/-- The declaration file for the documentation that a text holds. -/
def compileText (text : String) (config : Config) : Except Json.Fault Compilation :=
  (ofText text).map (·.compile config)

end Docs

namespace Compilation

/-- Whether nothing that was reported is an error. -/
def isValid (c : Compilation) : Bool := !c.diagnostics.hasErrors

/-- The declaration file as a text, if its lines fit. -/
def render? (c : Compilation) (style : Layout.Style) : Option String :=
  Statement.printAll? style c.statements

end Compilation

end ApiTypings
