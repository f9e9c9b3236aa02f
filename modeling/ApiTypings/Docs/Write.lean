import ApiTypings.Docs.Basic
import ApiTypings.Json.Text

/-!
# Documentation as JSON

The JSON value of documentation (`Docs.toJson`) and of each of its parts: an object
with every field in the order of its declaration, but without a parent for a class that
has none.
-/

namespace ApiTypings

/-- A list of texts as a JSON value. -/
def Json.ofStrings (texts : List String) : Json := .arr (texts.map .str)

namespace ParameterDoc

/-- A parameter as a JSON value. -/
def toJson (p : ParameterDoc) : Json := .obj [("name", .str p.name), ("type", .str p.type)]

end ParameterDoc

namespace MethodDoc

/-- A method as a JSON value. -/
def toJson (m : MethodDoc) : Json :=
  .obj [
    ("name", .str m.name),
    ("description", .str m.description),
    ("aliases", .ofStrings m.aliases),
    ("parameters", .arr (m.parameters.map fun overload => .arr (overload.map (·.toJson)))),
    ("returns", .ofStrings m.returns),
    ("children", .arr m.children),
    ("static", .bool m.isStatic)]

end MethodDoc

mutual

/-- A class as a JSON value. -/
def ClassDoc.toJson : ClassDoc → Json
  | ⟨name, description, parent, methods, fields⟩ =>
    .obj ([("name", .str name), ("description", .str description)] ++
      (parent.map fun p => ("parent", .str p)).toList ++
      [("methods", .arr (methods.map (·.toJson))), ("fields", .arr (FieldDoc.listToJson fields))])

/-- A field as a JSON value. -/
def FieldDoc.toJson : FieldDoc → Json
  | ⟨name, description, type, editable, children⟩ =>
    .obj [
      ("name", .str name),
      ("description", .str description),
      ("type", .str type),
      ("editable", .bool editable),
      ("children", .arr (ClassDoc.listToJson children))]

/-- Fields as JSON values. -/
def FieldDoc.listToJson : List FieldDoc → List Json
  | [] => []
  | f :: fs => f.toJson :: FieldDoc.listToJson fs

/-- Classes as JSON values. -/
def ClassDoc.listToJson : List ClassDoc → List Json
  | [] => []
  | c :: cs => c.toJson :: ClassDoc.listToJson cs

end

namespace ListDoc

/-- A list of names as a JSON value. -/
def toJson (l : ListDoc) : Json :=
  .obj [("name", .str l.name), ("description", .str l.description),
    ("entries", .ofStrings l.entries)]

end ListDoc

namespace Docs

/-- Documentation as a JSON value. -/
def toJson (d : Docs) : Json :=
  .obj [("globals", d.globals.toJson), ("math", d.math.toJson),
    ("lists", .arr (d.lists.map (·.toJson)))]

/-- The compact JSON text of documentation. -/
def text (d : Docs) : String := d.toJson.text

end Docs

end ApiTypings
