import ApiTypings.Checked.Types
import ApiTypings.Declaration.Statement

/-!
# Declared names

The names that a declaration declares (`Statement.declared`): its own, those of what an interface
extends and implements, of members, of type parameters and of parameters, wherever these stand,
also in the type of a function within another type. A type that is only referred to is not
declared, and the label of an item of a tuple is no name either.

Of every name it is kept whether it is that of a parameter, because these are chosen in another
way than all others.
-/

namespace ApiTypings

/-- A name that something is declared with. -/
structure DeclaredName where
  name : String
  /-- Whether it is the name of a parameter. -/
  isParameter : Bool := false
  deriving DecidableEq, Repr

/-! ### Types -/

namespace TypeExpr

mutual

/-- The names that are declared in a type, which are those of the parameters of functions. -/
def declared : TypeExpr → List DeclaredName
  | .keyword _ => []
  | .reference _ args => listDeclared args
  | .union parts => listDeclared parts
  | .intersection parts => listDeclared parts
  | .tuple items => itemsDeclared items
  | .function params result => paramsDeclared params ++ declared result

/-- The names that are declared in types. -/
def listDeclared : List TypeExpr → List DeclaredName
  | [] => []
  | t :: ts => declared t ++ listDeclared ts

/-- The names that are declared in the items of a tuple. -/
def itemsDeclared : List (TupleItem TypeExpr) → List DeclaredName
  | [] => []
  | ⟨_, t⟩ :: items => declared t ++ itemsDeclared items

/-- The names that parameters declare. -/
def paramsDeclared : List (Binding TypeExpr) → List DeclaredName
  | [] => []
  | ⟨name, t⟩ :: params => ⟨name, true⟩ :: (declared t ++ paramsDeclared params)

end

/-- The names that are declared in a type, if there is one. -/
def optionDeclared (t? : Option TypeExpr) : List DeclaredName := t?.toList.flatMap declared

end TypeExpr

/-- The names that are declared in an item of a tuple. -/
def TupleItem.declared (item : TupleItem TypeExpr) : List DeclaredName := item.type.declared

/-- The names that a parameter declares. -/
def Binding.declared (p : Param) : List DeclaredName := ⟨p.name, true⟩ :: p.type.declared

/-- The names that are declared in a type that is made; one that is named declares nothing. -/
def TypeSpec.declared : TypeSpec → List DeclaredName
  | .documented _ => []
  | .made t => t.declared

@[simp] theorem TypeSpec.declared_documented (name : String) : (documented name).declared = [] := rfl

@[simp] theorem TypeSpec.declared_made (t : TypeExpr) : (made t).declared = t.declared := rfl

namespace TypeExpr

theorem listDeclared_eq (ts : List TypeExpr) : listDeclared ts = ts.flatMap declared := by
  induction ts with
  | nil => rfl
  | cons t ts ih => rw [listDeclared, ih, List.flatMap_cons]

theorem itemsDeclared_eq (items : List (TupleItem TypeExpr)) :
    itemsDeclared items = items.flatMap TupleItem.declared := by
  induction items with
  | nil => rfl
  | cons item items ih =>
    rw [itemsDeclared, ih, List.flatMap_cons]
    rfl

theorem paramsDeclared_eq (params : List Param) :
    paramsDeclared params = params.flatMap Binding.declared := by
  induction params with
  | nil => rfl
  | cons p params ih =>
    rw [paramsDeclared, ih, List.flatMap_cons]
    rfl

@[simp] theorem declared_keyword (k : Keyword) : (keyword k).declared = [] := rfl

@[simp] theorem declared_reference (name : String) (args : List TypeExpr) :
    (reference name args).declared = args.flatMap declared := listDeclared_eq args

@[simp] theorem declared_union (parts : List TypeExpr) :
    (union parts).declared = parts.flatMap declared := listDeclared_eq parts

@[simp] theorem declared_intersection (parts : List TypeExpr) :
    (intersection parts).declared = parts.flatMap declared := listDeclared_eq parts

@[simp] theorem declared_tuple (items : List (TupleItem TypeExpr)) :
    (tuple items).declared = items.flatMap TupleItem.declared := itemsDeclared_eq items

@[simp] theorem declared_function (params : List Param) (result : TypeExpr) :
    (function params result).declared = params.flatMap Binding.declared ++ result.declared :=
  congrArg (· ++ result.declared) (paramsDeclared_eq params)

@[simp] theorem optionDeclared_none : optionDeclared none = [] := rfl

@[simp] theorem optionDeclared_some (t : TypeExpr) : optionDeclared (some t) = t.declared :=
  List.flatMap_singleton declared t

end TypeExpr

/-! ### Members and declarations -/

/-- The names that a clause of an interface declares. -/
def Heritage.declared (h : Heritage) : List DeclaredName :=
  ⟨h.name, false⟩ :: h.args.flatMap TypeExpr.declared

/-- The names that a type parameter declares. -/
def TypeParam.declared (p : TypeParam) : List DeclaredName :=
  ⟨p.name, false⟩ :: (TypeExpr.optionDeclared p.constraint ++ TypeExpr.optionDeclared p.fallback)

/-- The names that a member declares; what every key leads to has none but its key. -/
def Signature.declared : Signature → List DeclaredName
  | .method name params result =>
    ⟨name, false⟩ :: (params.flatMap Binding.declared ++ result.declared)
  | .property name type => ⟨name, false⟩ :: type.declared
  | .index key type => key.declared ++ type.declared

/-- The names that a member declares. -/
def Member.declared (m : Member) : List DeclaredName := m.signature.declared

namespace Statement

mutual

/-- The names that a declaration declares. -/
def declared : Statement → List DeclaredName
  | .interface head parents contracts members =>
    ⟨head.name, false⟩ :: (parents.flatMap Heritage.declared ++
      contracts.flatMap Heritage.declared ++ members.flatMap Member.declared)
  | .function head typeParams params result =>
    ⟨head.name, false⟩ :: (typeParams.flatMap TypeParam.declared ++
      params.flatMap Binding.declared ++ result.declared)
  | .constant head type => ⟨head.name, false⟩ :: type.declared
  | .block head _ body => ⟨head.name, false⟩ :: listDeclared body

/-- The names that declarations declare. -/
def listDeclared : List Statement → List DeclaredName
  | [] => []
  | s :: ss => declared s ++ listDeclared ss

end

theorem listDeclared_eq (ss : List Statement) : listDeclared ss = ss.flatMap declared := by
  induction ss with
  | nil => rfl
  | cons s ss ih => rw [listDeclared, ih, List.flatMap_cons]

@[simp] theorem declared_block (head : Head) (kind : BlockKind) (body : List Statement) :
    (block head kind body).declared = ⟨head.name, false⟩ :: body.flatMap declared :=
  congrArg (_ :: ·) (listDeclared_eq body)

/-- A comment declares nothing. -/
@[simp] theorem declared_withComment (s : Statement) (comment : Option Comment) :
    (s.withComment comment).declared = s.declared := by
  cases comment <;> cases s <;> rfl

end Statement

@[simp] theorem Member.declared_withComment (m : Member) (comment : Option Comment) :
    (m.withComment comment).declared = m.declared := by
  cases comment <;> rfl

end ApiTypings
