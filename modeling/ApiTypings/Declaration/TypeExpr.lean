/-!
# Type expressions

The types that declarations speak of (`TypeExpr`): keywords, references by name, unions,
intersections, tuples and functions.
-/

namespace ApiTypings

/-- The types that have a keyword. -/
inductive Keyword
  | any
  | boolean
  | never
  | number
  | string
  | undefined
  | unknown
  | void
  deriving DecidableEq, Repr

namespace Keyword

/-- All keywords. -/
def all : List Keyword := [any, boolean, never, number, string, undefined, unknown, void]

/-- How a keyword is written. -/
def word : Keyword → String
  | any => "any"
  | boolean => "boolean"
  | never => "never"
  | number => "number"
  | string => "string"
  | undefined => "undefined"
  | unknown => "unknown"
  | void => "void"

theorem mem_all (k : Keyword) : k ∈ all := by cases k <;> decide

theorem word_injective {j k : Keyword} (h : j.word = k.word) : j = k := by
  cases j <;> cases k <;> first | rfl | exact absurd h (by decide)

end Keyword

/-- A name with a type. -/
structure Binding (τ : Type) where
  name : String
  type : τ
  deriving DecidableEq, Repr, Inhabited

/-- An item of a tuple: a type that may have a name. -/
structure TupleItem (τ : Type) where
  label : Option String
  type : τ
  deriving DecidableEq, Repr, Inhabited

/-- A type expression. -/
inductive TypeExpr
  | keyword (k : Keyword)
  /-- A type by its name, with arguments if it is generic. -/
  | reference (name : String) (args : List TypeExpr)
  | union (parts : List TypeExpr)
  | intersection (parts : List TypeExpr)
  | tuple (items : List (TupleItem TypeExpr))
  | function (params : List (Binding TypeExpr)) (result : TypeExpr)

/-- A parameter of a function or method. -/
abbrev Param := Binding TypeExpr

namespace TypeExpr

instance : Inhabited TypeExpr := ⟨.keyword .any⟩

instance : Coe Keyword TypeExpr := ⟨.keyword⟩

/-- Whether the type is a given keyword. -/
def isKeyword (t : TypeExpr) (k : Keyword) : Bool :=
  match t with
  | .keyword j => j == k
  | _ => false

/-- The name that the type refers to, if it is a reference. -/
def referenceName? : TypeExpr → Option String
  | .reference name _ => some name
  | _ => none

/-- Whether the type needs parentheses as a part of a union or an intersection. -/
def isCompound : TypeExpr → Bool
  | .union _ | .intersection _ | .function _ _ => true
  | _ => false

end TypeExpr

end ApiTypings
