import ApiTypings.Declaration.Statement

/-!
# Declarations without their types

What is left of a declaration when the types of its members, parameters, results and constants are
taken away (`Statement.untyped`): its kind and name, its comment and modifiers, what it extends, its
type parameters, the names of its parameters, and all of this of what it holds, in its order.
-/

namespace ApiTypings

/-- A parameter without its type, in the place of which stands a fixed one. -/
def Binding.untyped (p : Param) : Param := { p with type := default }

/-- What a member declares, without types. -/
def Signature.untyped : Signature → Signature
  | method name params _ => method name (params.map Binding.untyped) default
  | property name _ => property name default
  | index key _ => index key.untyped default

/-- A member without its types. -/
def Member.untyped (m : Member) : Member := { m with signature := m.signature.untyped }

theorem Member.untyped_withComment (m : Member) (comment : Option Comment) :
    (m.withComment comment).untyped = m.untyped.withComment comment := by
  cases comment <;> rfl

namespace Statement

mutual

/-- A declaration without the types of its members, parameters, results and constants. -/
def untyped : Statement → Statement
  | .interface head parents contracts members =>
    .interface head parents contracts (members.map Member.untyped)
  | .function head typeParams params _ =>
    .function head typeParams (params.map Binding.untyped) default
  | .constant head _ => .constant head default
  | .block head kind body => .block head kind (listUntyped body)

/-- Declarations without such types. -/
def listUntyped : List Statement → List Statement
  | [] => []
  | s :: ss => untyped s :: listUntyped ss

end

theorem listUntyped_eq_map (ss : List Statement) : listUntyped ss = ss.map untyped := by
  induction ss with
  | nil => rfl
  | cons s ss ih => rw [listUntyped, ih, List.map_cons]

theorem untyped_withComment (s : Statement) (comment : Option Comment) :
    (s.withComment comment).untyped = s.untyped.withComment comment := by
  cases comment <;> cases s <;> rfl

end Statement

end ApiTypings
