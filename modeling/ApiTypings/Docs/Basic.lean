import ApiTypings.Json.Value

/-!
# Documentation

What the documentation of a scripting API holds (`Docs`): two namespaces, written as
classes, and lists of names that are carried along. The documented classes hang on the
fields of the global namespace (`Docs.classes`).

A method lists its overloads twice, once as parameters and once as results; the two
lists are paired by position (`MethodDoc.overloads`), and nothing but a mistake makes
their lengths differ.
-/

namespace ApiTypings

/-- A documented parameter of a method. -/
structure ParameterDoc where
  name : String := ""
  type : String := ""
  deriving DecidableEq, Repr, Inhabited

/-- A documented method. -/
structure MethodDoc where
  name : String := ""
  description : String := ""
  /-- Other names of the same method. -/
  aliases : List String := []
  /-- The parameters of each overload. -/
  parameters : List (List ParameterDoc) := []
  /-- The type that each overload returns. -/
  returns : List String := []
  /-- Values of any shape that are carried along. -/
  children : List Json := []
  isStatic : Bool := false
  deriving Inhabited

mutual

/-- A documented field. On a namespace, its children are the classes of a part of the API. -/
structure FieldDoc where
  name : String := ""
  description : String := ""
  type : String := ""
  editable : Bool := false
  children : List ClassDoc := []

/-- A documented class, or a namespace that is written like one. -/
structure ClassDoc where
  name : String := ""
  description : String := ""
  /-- The name of the class that this one extends; the empty name stands for none. -/
  parent : Option String := none
  methods : List MethodDoc := []
  fields : List FieldDoc := []

end

instance : Inhabited FieldDoc := ⟨{}⟩

instance : Inhabited ClassDoc := ⟨{}⟩

/-- A documented list of names. -/
structure ListDoc where
  name : String := ""
  description : String := ""
  entries : List String := []
  deriving DecidableEq, Repr, Inhabited

/-- The documentation of an API. -/
structure Docs where
  /-- The namespace whose members are visible everywhere. -/
  globals : ClassDoc := {}
  /-- The namespace of mathematical functions. -/
  math : ClassDoc := {}
  lists : List ListDoc := []
  deriving Inhabited

namespace MethodDoc

/-- The name of a method and then its other names. -/
def names (m : MethodDoc) : List String := m.name :: m.aliases

/-- The parameters and the result of each overload that has both. -/
def overloads (m : MethodDoc) : List (List ParameterDoc × String) := m.parameters.zip m.returns

/-- Whether every overload has parameters and a result. -/
def isPaired (m : MethodDoc) : Bool := m.parameters.length == m.returns.length

theorem length_overloads (m : MethodDoc) :
    m.overloads.length = min m.parameters.length m.returns.length :=
  List.length_zip

/-- Whether two methods are the same: every part equal, and the carried values the same. -/
def same (m n : MethodDoc) : Bool :=
  m.name == n.name && m.description == n.description && m.aliases == n.aliases &&
    m.parameters == n.parameters && m.returns == n.returns &&
    Json.sameItems m.children n.children && m.isStatic == n.isStatic

theorem same_refl (m : MethodDoc) : m.same m = true := by simp [same, Json.sameItems_refl]

end MethodDoc

namespace ClassDoc

/-- The name of the parent, if the class has one. -/
def parentName? (c : ClassDoc) : Option String := c.parent.filter (!·.isEmpty)

theorem parentName?_eq_none_iff {c : ClassDoc} :
    c.parentName? = none ↔ c.parent = none ∨ c.parent = some "" := by
  rw [parentName?]
  cases c.parent <;> simp

theorem parentName?_eq_some_iff {c : ClassDoc} {p : String} :
    c.parentName? = some p ↔ c.parent = some p ∧ p ≠ "" := by
  rw [parentName?, Option.filter_eq_some_iff]
  simp

end ClassDoc

namespace Docs

/-- The documented classes, in the order of the text. -/
def classes (d : Docs) : List ClassDoc := d.globals.fields.flatMap (·.children)

/-- The two namespaces, the global one first. -/
def namespaces (d : Docs) : List ClassDoc := [d.globals, d.math]

end Docs

end ApiTypings
