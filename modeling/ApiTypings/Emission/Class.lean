import ApiTypings.Emission.Basic
import ApiTypings.Emission.Overload

/-!
# Classes as interfaces

A class becomes an interface that declares its methods and then its fields
(`ClassDoc.emission`).

A `ModelPart` is special: its parts are found under their names. An interface cannot declare
that besides its members, so these move to an interface of their own, which the interface of
the class extends.
-/

namespace ApiTypings

open Checked

namespace MethodDoc

/-- What a method of a class becomes: a method for each name and overload. -/
def emission (m : MethodDoc) (rules : RuleTable) (owner : String) : Emission Member where
  name := m.name
  description := m.description
  tags := if m.isStatic then .ofList [("static", "")] else .empty
  primary := do
    m.expand (fun name o => method name o.params o.result) (← m.overloadsOf rules owner)

end MethodDoc

namespace FieldDoc

/-- What a field of a class becomes: a property. -/
def emission (f : FieldDoc) (rules : RuleTable) (owner : String) : Emission Member where
  name := f.name
  description := f.description
  primary := do return [← property f.name (← rules.resolve (.field owner f))]

end FieldDoc

namespace ClassDoc

/-- The members of the interface that declares a class. -/
def members (c : ClassDoc) (rules : RuleTable) : Checked (List Member) := do
  let methods ← gather (fun m => (m.emission rules c.name).emit) c.methods
  let fields ← gather (fun f => (f.emission rules c.name).emit) c.fields
  return methods ++ fields

/-- An interface with the members of a class, which extends its parent if it has one. -/
def interfaceNamed (c : ClassDoc) (rules : RuleTable) (parent? : Option String) (name : String)
    (modifiers : List Modifier) : Checked Statement := do
  let parents ← each heritage parent?.toList
  let members ← c.members rules
  interface name members modifiers parents

/-- The name of the class whose parts are found under their names. -/
def modelPart : String := "ModelPart"

/-- The name of the interface that has the members of that class. -/
def modelPartMembers : String := "ModelPartAPI"

/-- The interface of the class whose parts are found under their names. -/
def modelPartInterface : Checked Statement := do
  let member ← index (← param "key" Keyword.string) modelPart
  let parent ← heritage modelPartMembers
  interface modelPart [member] [.declared] [parent]

/-- What a class becomes, with its parent if that is documented. -/
def emission (c : ClassDoc) (rules : RuleTable) (parent? : Option String) : Emission Statement :=
  if c.name = modelPart then
    { name := c.name
      description := c.description
      primary := do return [← modelPartInterface]
      preceding := do return [← c.interfaceNamed rules parent? modelPartMembers []] }
  else
    { name := c.name
      description := c.description
      primary := do return [← c.interfaceNamed rules parent? c.name [.declared]] }

end ClassDoc

end ApiTypings
