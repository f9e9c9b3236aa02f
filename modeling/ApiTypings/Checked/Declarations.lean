import ApiTypings.Checked.Types
import ApiTypings.Declaration.Statement

/-!
# Checked declarations

The members and declarations of a declaration file, with their names and types checked:
first the name, then the types in the order in which they stand. What a declaration is made
of has been checked when it was made.
-/

namespace ApiTypings.Checked

/-- A type that is extended or implemented. -/
def heritage (name : String) (args : List TypeExpr := []) : Checked Heritage := do
  return ⟨← checkedName name, args⟩

/-- A type parameter. -/
def typeParam (name : String) (constraint fallback : Option TypeExpr := none) :
    Checked TypeParam := do
  return ⟨← checkedName name, constraint, fallback⟩

/-! ### Members -/

/-- A method of an interface. -/
def method (name : String) (params : List Param) (result : TypeSpec) : Checked Member := do
  return { signature := .method (← checkedName name) params (← typeOf result) }

/-- A property of an interface. -/
def property (name : String) (type : TypeSpec) : Checked Member := do
  return { signature := .property (← checkedName name) (← typeOf type) }

/-- The type of what every key of an interface leads to. -/
def index (key : Param) (type : TypeSpec) : Checked Member := do
  return { signature := .index key (← typeOf type) }

/-! ### Declarations -/

/-- An interface. -/
def interface (name : String) (members : List Member) (modifiers : List Modifier := [])
    (parents contracts : List Heritage := []) : Checked Statement := do
  return .interface { modifiers, name := ← checkedName name } parents contracts members

/-- A constant. -/
def constant (name : String) (type : TypeSpec) (modifiers : List Modifier := []) :
    Checked Statement := do
  return .constant { modifiers, name := ← checkedName name } (← typeOf type)

/-- A function. -/
def function (name : String) (params : List Param) (result : TypeSpec)
    (modifiers : List Modifier := []) (typeParams : List TypeParam := []) :
    Checked Statement := do
  return .function { modifiers, name := ← checkedName name } typeParams params (← typeOf result)

/-- A block of declarations. -/
def block (name : String) (body : List Statement) (modifiers : List Modifier := [])
    (kind : BlockKind := .named) : Checked Statement := do
  return .block { modifiers, name := ← checkedName name } kind body

end ApiTypings.Checked
