import ApiTypings.Declaration.Comment
import ApiTypings.Declaration.TypeExpr

/-!
# Declarations

The declarations that a declaration file is made of (`Statement`), and the members of
its interfaces (`Member`). Each of them may have a comment.
-/

namespace ApiTypings

/-- A type that an interface extends or implements. -/
structure Heritage where
  name : String
  args : List TypeExpr := []

/-- A type parameter of a function. -/
structure TypeParam where
  name : String
  /-- The type that arguments must extend. -/
  constraint : Option TypeExpr := none
  /-- The argument if none is given. -/
  fallback : Option TypeExpr := none

/-- What a member of an interface declares. -/
inductive Signature
  | method (name : String) (params : List Param) (result : TypeExpr)
  | property (name : String) (type : TypeExpr)
  /-- The type of what every key leads to. -/
  | index (key : Param) (type : TypeExpr)
  deriving Inhabited

/-- A member of an interface. -/
structure Member where
  comment : Option Comment := none
  signature : Signature
  deriving Inhabited

/-- The words that may stand before a declaration. -/
inductive Modifier
  | declared
  | exported
  deriving DecidableEq, Repr

namespace Modifier

/-- How a modifier is written. -/
def word : Modifier → String
  | declared => "declare"
  | exported => "export"

end Modifier

/-- The two kinds of blocks. -/
inductive BlockKind
  /-- Its declarations are visible everywhere. -/
  | everywhere
  /-- Its declarations are visible under its name. -/
  | named
  deriving DecidableEq, Repr

/-- What all declarations have. -/
structure Head where
  comment : Option Comment := none
  modifiers : List Modifier := []
  name : String
  deriving Inhabited

/-- A declaration. -/
inductive Statement
  | interface (head : Head) (parents contracts : List Heritage) (members : List Member)
  | function (head : Head) (typeParams : List TypeParam) (params : List Param)
    (result : TypeExpr)
  | constant (head : Head) (type : TypeExpr)
  | block (head : Head) (kind : BlockKind) (body : List Statement)
  deriving Inhabited

namespace Signature

/-- The name of what is declared; what every key leads to has none. -/
def name? : Signature → Option String
  | method name _ _ => some name
  | property name _ => some name
  | index _ _ => none

end Signature

namespace Member

/-- The name of the member, if it has one. -/
def name? (m : Member) : Option String := m.signature.name?

/-- The member with a comment, if one is given. -/
def withComment (m : Member) : Option Comment → Member
  | none => m
  | some comment => { m with comment := some comment }

end Member

namespace Statement

/-- What the declaration has in common with all others. -/
def head : Statement → Head
  | interface head _ _ _ | function head _ _ _ | constant head _ | block head _ _ => head

/-- The declaration with another head. -/
def withHead (s : Statement) (head : Head) : Statement :=
  match s with
  | interface _ parents contracts members => interface head parents contracts members
  | function _ typeParams params result => function head typeParams params result
  | constant _ type => constant head type
  | block _ kind body => block head kind body

/-- The name of the declaration. -/
def name (s : Statement) : String := s.head.name

/-- The declaration with a comment, if one is given. -/
def withComment (s : Statement) : Option Comment → Statement
  | none => s
  | some comment => s.withHead { s.head with comment := some comment }

@[simp] theorem head_withHead (s : Statement) (head : Head) : (s.withHead head).head = head := by
  cases s <;> rfl

@[simp] theorem name_withComment (s : Statement) (comment : Option Comment) :
    (s.withComment comment).name = s.name := by
  cases comment <;> simp [withComment, name]

end Statement

end ApiTypings
