import ApiTypings.Declaration.Statement

/-!
# Identifiers and declarations without comments

All the names that types and declarations are written with (`TypeExpr.identifiers`,
`Statement.identifiers`), and declarations without the comments on them and on what they hold
(`Statement.uncommented`). The two have nothing to do with each other: comments hold no
identifiers (**`identifiers_uncommented`**).
-/

namespace ApiTypings

namespace TypeExpr

mutual

/-- The names in a type: of the types that it refers to, of the items of tuples and of the
parameters of functions. -/
def identifiers : TypeExpr → List String
  | .keyword _ => []
  | .reference name args => name :: listIdentifiers args
  | .union parts => listIdentifiers parts
  | .intersection parts => listIdentifiers parts
  | .tuple items => itemIdentifiers items
  | .function params result => paramIdentifiers params ++ identifiers result

/-- The names in types. -/
def listIdentifiers : List TypeExpr → List String
  | [] => []
  | t :: ts => identifiers t ++ listIdentifiers ts

/-- The names in the items of a tuple. -/
def itemIdentifiers : List (TupleItem TypeExpr) → List String
  | [] => []
  | ⟨label, t⟩ :: items => label.toList ++ identifiers t ++ itemIdentifiers items

/-- The names in parameters. -/
def paramIdentifiers : List (Binding TypeExpr) → List String
  | [] => []
  | ⟨name, t⟩ :: params => name :: identifiers t ++ paramIdentifiers params

end

end TypeExpr

/-- The names in a type that is extended or implemented. -/
def Heritage.identifiers (h : Heritage) : List String :=
  h.name :: TypeExpr.listIdentifiers h.args

/-- The names in a type parameter. -/
def TypeParam.identifiers (p : TypeParam) : List String :=
  p.name :: (p.constraint.toList.flatMap TypeExpr.identifiers ++
    p.fallback.toList.flatMap TypeExpr.identifiers)

/-- The names in what a member declares. -/
def Signature.identifiers : Signature → List String
  | .method name params result =>
    name :: TypeExpr.paramIdentifiers params ++ result.identifiers
  | .property name type => name :: type.identifiers
  | .index key type => key.name :: key.type.identifiers ++ type.identifiers

/-- The member without its comment. -/
def Member.uncommented (m : Member) : Member := { m with comment := none }

/-- What a declaration has in common with all others, without its comment. -/
def Head.uncommented (head : Head) : Head := { head with comment := none }

namespace Statement

mutual

/-- The names in a declaration. -/
def identifiers : Statement → List String
  | .interface head parents contracts members =>
    head.name :: (parents ++ contracts).flatMap Heritage.identifiers ++
      members.flatMap (·.signature.identifiers)
  | .function head typeParams params result =>
    head.name :: typeParams.flatMap TypeParam.identifiers ++
      TypeExpr.paramIdentifiers params ++ result.identifiers
  | .constant head type => head.name :: type.identifiers
  | .block head _ body => head.name :: listIdentifiers body

/-- The names in declarations. -/
def listIdentifiers : List Statement → List String
  | [] => []
  | s :: ss => identifiers s ++ listIdentifiers ss

end

mutual

/-- The declaration without its comment and those of what it holds. -/
def uncommented : Statement → Statement
  | .interface head parents contracts members =>
    .interface head.uncommented parents contracts (members.map Member.uncommented)
  | .function head typeParams params result =>
    .function head.uncommented typeParams params result
  | .constant head type => .constant head.uncommented type
  | .block head kind body => .block head.uncommented kind (listUncommented body)

/-- The declarations without their comments and those of what they hold. -/
def listUncommented : List Statement → List Statement
  | [] => []
  | s :: ss => uncommented s :: listUncommented ss

end

theorem listUncommented_eq_map (ss : List Statement) :
    listUncommented ss = ss.map uncommented := by
  induction ss with
  | nil => rfl
  | cons s ss ih => rw [listUncommented, ih, List.map_cons]

mutual

/-- Comments hold no identifiers. -/
theorem identifiers_uncommented : ∀ s : Statement, s.uncommented.identifiers = s.identifiers
  | .interface head parents contracts members => by
    simp [uncommented, identifiers, Head.uncommented, Member.uncommented, List.flatMap_map]
  | .function head typeParams params result => by
    simp [uncommented, identifiers, Head.uncommented]
  | .constant head type => by simp [uncommented, identifiers, Head.uncommented]
  | .block head kind body => by
    simp [uncommented, identifiers, Head.uncommented, listIdentifiers_listUncommented body]

theorem listIdentifiers_listUncommented :
    ∀ ss : List Statement, listIdentifiers (listUncommented ss) = listIdentifiers ss
  | [] => rfl
  | s :: ss => by
    simp [listUncommented, listIdentifiers, identifiers_uncommented s,
      listIdentifiers_listUncommented ss]

end

end Statement

end ApiTypings
