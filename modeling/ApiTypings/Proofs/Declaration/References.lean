import ApiTypings.Checked.Types
import ApiTypings.Declaration.Statement

/-!
# References

The names of the types that a declaration refers to (`references`), wherever a type stands in it:
in members, parameters, results and constants, among the arguments of another type, in the
constraint of a type parameter and in the type of a function. What an interface extends is no type
expression but a name, and only its arguments count.

References are asked of everything that declarations are put together from (`Refers`), down to
plain names, which refer to nothing.
-/

namespace ApiTypings

/-- What may refer to types. -/
class Refers (α : Type) where
  /-- The names of the types that it refers to. -/
  references : α → List String

export Refers (references)

instance : Refers Unit := ⟨fun _ => []⟩

instance : Refers String := ⟨fun _ => []⟩

instance {α : Type} [Refers α] : Refers (List α) := ⟨fun as => as.flatMap references⟩

instance {α : Type} [Refers α] : Refers (Option α) := ⟨fun a => a.toList.flatMap references⟩

@[simp] theorem references_string (name : String) : references name = [] := rfl

section Lists

variable {α : Type} [Refers α]

@[simp] theorem references_nil : references ([] : List α) = [] := rfl

@[simp] theorem references_cons (a : α) (as : List α) :
    references (a :: as) = references a ++ references as := List.flatMap_cons

theorem references_singleton (a : α) : references [a] = references a := by
  rw [references_cons, references_nil, List.append_nil]

@[simp] theorem references_append (as bs : List α) :
    references (as ++ bs) = references as ++ references bs := List.flatMap_append

@[simp] theorem references_flatten (ass : List (List α)) :
    references ass.flatten = references ass := by
  induction ass with
  | nil => rfl
  | cons as ass ih => rw [List.flatten_cons, references_append, references_cons, ih]

@[simp] theorem references_none : references (none : Option α) = [] := rfl

@[simp] theorem references_some (a : α) : references (some a) = references a :=
  List.flatMap_singleton references a

end Lists

/-! ### Types -/

namespace TypeExpr

mutual

/-- The names of the types in a type, its own included. -/
def referenced : TypeExpr → List String
  | .keyword _ => []
  | .reference name args => name :: listReferenced args
  | .union parts => listReferenced parts
  | .intersection parts => listReferenced parts
  | .tuple items => itemsReferenced items
  | .function params result => paramsReferenced params ++ referenced result

/-- The names of the types in types. -/
def listReferenced : List TypeExpr → List String
  | [] => []
  | t :: ts => referenced t ++ listReferenced ts

/-- The names of the types in the items of a tuple. -/
def itemsReferenced : List (TupleItem TypeExpr) → List String
  | [] => []
  | ⟨_, t⟩ :: items => referenced t ++ itemsReferenced items

/-- The names of the types of parameters. -/
def paramsReferenced : List (Binding TypeExpr) → List String
  | [] => []
  | ⟨_, t⟩ :: params => referenced t ++ paramsReferenced params

end

end TypeExpr

instance : Refers TypeExpr := ⟨TypeExpr.referenced⟩

instance : Refers (TupleItem TypeExpr) := ⟨fun item => references item.type⟩

instance : Refers Param := ⟨fun p => references p.type⟩

/-- What the documentation names has still to be found; a type that is made brings its own
references. -/
instance : Refers TypeSpec where
  references
    | .documented _ => []
    | .made t => references t

@[simp] theorem references_documented (name : String) :
    references (TypeSpec.documented name) = [] := rfl

@[simp] theorem references_made (t : TypeExpr) : references (TypeSpec.made t) = references t := rfl

namespace TypeExpr

theorem listReferenced_eq (ts : List TypeExpr) : listReferenced ts = references ts := by
  induction ts with
  | nil => rfl
  | cons t ts ih =>
    rw [listReferenced, ih, references_cons]
    rfl

theorem itemsReferenced_eq (items : List (TupleItem TypeExpr)) :
    itemsReferenced items = references items := by
  induction items with
  | nil => rfl
  | cons item items ih =>
    rw [itemsReferenced, ih, references_cons]
    rfl

theorem paramsReferenced_eq (params : List Param) :
    paramsReferenced params = references params := by
  induction params with
  | nil => rfl
  | cons p params ih =>
    rw [paramsReferenced, ih, references_cons]
    rfl

@[simp] theorem references_keyword (k : Keyword) : references (keyword k) = [] := rfl

@[simp] theorem references_reference (name : String) (args : List TypeExpr) :
    references (reference name args) = name :: references args :=
  congrArg (name :: ·) (listReferenced_eq args)

@[simp] theorem references_union (parts : List TypeExpr) :
    references (union parts) = references parts := listReferenced_eq parts

@[simp] theorem references_intersection (parts : List TypeExpr) :
    references (intersection parts) = references parts := listReferenced_eq parts

@[simp] theorem references_tuple (items : List (TupleItem TypeExpr)) :
    references (tuple items) = references items := itemsReferenced_eq items

@[simp] theorem references_function (params : List Param) (result : TypeExpr) :
    references (function params result) = references params ++ references result :=
  congrArg (· ++ references result) (paramsReferenced_eq params)

end TypeExpr

/-! ### Members and declarations -/

instance : Refers Heritage := ⟨fun h => references h.args⟩

instance : Refers TypeParam := ⟨fun p => references p.constraint ++ references p.fallback⟩

instance : Refers Signature where
  references
    | .method _ params result => references params ++ references result
    | .property _ type => references type
    | .index key type => references key ++ references type

instance : Refers Member := ⟨fun m => references m.signature⟩

namespace Statement

mutual

/-- The names of the types that a declaration refers to. -/
def referenced : Statement → List String
  | .interface _ parents contracts members =>
    references parents ++ references contracts ++ references members
  | .function _ typeParams params result =>
    references typeParams ++ references params ++ references result
  | .constant _ type => references type
  | .block _ _ body => listReferenced body

/-- The names of the types that declarations refer to. -/
def listReferenced : List Statement → List String
  | [] => []
  | s :: ss => referenced s ++ listReferenced ss

end

instance : Refers Statement := ⟨referenced⟩

theorem listReferenced_eq (ss : List Statement) : listReferenced ss = references ss := by
  induction ss with
  | nil => rfl
  | cons s ss ih =>
    rw [listReferenced, ih, references_cons]
    rfl

@[simp] theorem references_block (head : Head) (kind : BlockKind) (body : List Statement) :
    references (block head kind body) = references body := listReferenced_eq body

/-- A comment refers to no type. -/
@[simp] theorem references_withComment (s : Statement) (comment : Option Comment) :
    references (s.withComment comment) = references s := by
  cases comment <;> cases s <;> rfl

end Statement

@[simp] theorem Member.references_withComment (m : Member) (comment : Option Comment) :
    references (m.withComment comment) = references m := by
  cases comment <;> rfl

end ApiTypings
