import ApiTypings.Emission.Basic
import ApiTypings.Emission.Overload

/-!
# Namespaces as blocks

A namespace becomes a block that declares its fields as constants and then its methods as
functions (`ClassDoc.blockEmission`). What the global namespace declares is visible
everywhere.
-/

namespace ApiTypings

open Checked

namespace MethodDoc

/-- What a method of a namespace becomes: what the rule for its name declares, or else a
function for each name and overload. -/
def functionEmission (m : MethodDoc) (rules : RuleTable) (owner : String) :
    Emission Statement where
  name := m.name
  description := m.description
  primary :=
    match rules.signature? m.name with
    | some rule => rule m.name
    | none => do
      m.expand (fun name o => function name o.params o.result) (← m.overloadsOf rules owner)

end MethodDoc

namespace FieldDoc

/-- What a field of a namespace becomes: a constant. -/
def constantEmission (f : FieldDoc) (rules : RuleTable) (owner : String) :
    Emission Statement where
  name := f.name
  description := f.description
  primary := do return [← constant f.name (← rules.resolve (.constant owner f))]

end FieldDoc

namespace ClassDoc

/-- What documentation calls the global namespace. -/
def globals : String := "globals"

/-- The kind of block that a namespace becomes. -/
def blockKind (c : ClassDoc) : BlockKind := if c.name = globals then .everywhere else .named

/-- The name of the block that a namespace becomes. -/
def blockName (c : ClassDoc) : String :=
  match c.blockKind with
  | .everywhere => "global"
  | .named => c.name

/-- The declarations in the block that a namespace becomes. -/
def blockBody (c : ClassDoc) (rules : RuleTable) : Checked (List Statement) := do
  let constants ← gather (fun f => (f.constantEmission rules c.name).emit) c.fields
  let functions ← gather (fun m => (m.functionEmission rules c.name).emit) c.methods
  return constants ++ functions

/-- What a namespace becomes. -/
def blockEmission (c : ClassDoc) (rules : RuleTable) : Emission Statement where
  name := c.blockName
  description := c.description
  primary := do return [← block c.blockName (← c.blockBody rules) [.declared] c.blockKind]

end ClassDoc

end ApiTypings
