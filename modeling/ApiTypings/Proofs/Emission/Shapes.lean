import ApiTypings.Proofs.Emission.Extends
import ApiTypings.Proofs.Emission.Ownership

/-!
# The shape of a declaration file

The shape of a declaration (`Statement.shape`) is its kind and its name, and the shapes of what it
holds: all but comments, modifiers and types. Documentation says what shape its declaration file is
to have (`Docs.shapes`): interfaces for the classes and a block for each namespace, in which every
name of a method stands once for every overload that has both parameters and a result.

**`shapes_compile`** — that is the shape which the declaration file has: no class, method, field or
overload is lost on the way or comes twice, and none changes its place.
-/

namespace ApiTypings

/-- What is left of a member without its types. -/
inductive MemberShape
  | method (name : String)
  | property (name : String)
  /-- What every key leads to has no name. -/
  | index
  deriving DecidableEq, Repr

/-- What is left of a declaration without comments, modifiers and types. -/
inductive Shape
  | interface (name : String) (members : List MemberShape)
  | function (name : String)
  | constant (name : String)
  | block (name : String) (kind : BlockKind) (body : List Shape)
  deriving Repr

/-- The shape of what a member declares. -/
def Signature.shape : Signature → MemberShape
  | method name _ _ => .method name
  | property name _ => .property name
  | index _ _ => .index

/-- The shape of a member. -/
def Member.shape (m : Member) : MemberShape := m.signature.shape

@[simp] theorem Member.shape_withComment (m : Member) (comment : Option Comment) :
    (m.withComment comment).shape = m.shape := by
  rw [shape, shape, signature_withComment]

namespace Statement

mutual

/-- The shape of a declaration. -/
def shape : Statement → Shape
  | .interface head _ _ members => .interface head.name (members.map Member.shape)
  | .function head _ _ _ => .function head.name
  | .constant head _ => .constant head.name
  | .block head kind body => .block head.name kind (listShape body)

/-- The shapes of declarations. -/
def listShape : List Statement → List Shape
  | [] => []
  | s :: ss => shape s :: listShape ss

end

theorem listShape_eq_map (ss : List Statement) : listShape ss = ss.map shape := by
  induction ss with
  | nil => rfl
  | cons s ss ih => rw [listShape, ih, List.map_cons]

@[simp] theorem shape_withComment (s : Statement) (comment : Option Comment) :
    (s.withComment comment).shape = s.shape := by
  cases comment <;> cases s <;> rfl

end Statement

/-! ### Shapes that documentation asks for -/

/-- The shapes of a method: every name, as many times as there are overloads with both parameters
and a result. -/
def MethodDoc.shapes {σ : Type} (m : MethodDoc) (shape : String → σ) : List σ :=
  m.names.flatMap fun name =>
    List.replicate (min m.parameters.length m.returns.length) (shape name)

namespace ClassDoc

/-- The shapes of the members of a class with the given methods: the methods and then the
fields. -/
def memberShapes (c : ClassDoc) (methods : List MethodDoc) : List MemberShape :=
  methods.flatMap (·.shapes .method) ++ c.fields.map (.property ·.name)

/-- The shapes of the interfaces of a class with the given methods. There are two for a
`ModelPart`: one with its members, and one that says what its keys lead to. -/
def interfaceShapes (c : ClassDoc) (methods : List MethodDoc) : List Shape :=
  if c.name = "ModelPart" then
    [.interface "ModelPartAPI" (c.memberShapes methods), .interface "ModelPart" [.index]]
  else [.interface c.name (c.memberShapes methods)]

/-- The shapes of the declarations in a namespace: the fields and then the methods, of which
those that are called `lerp` are one function each. -/
def bodyShapes (c : ClassDoc) : List Shape :=
  c.fields.map (.constant ·.name) ++
    c.methods.flatMap fun m => if m.name = "lerp" then [.function "lerp"] else m.shapes .function

/-- The shape of the block of a namespace. What `globals` declares is visible everywhere. -/
def blockShape (c : ClassDoc) : Shape :=
  if c.name = "globals" then .block "global" .everywhere c.bodyShapes
  else .block c.name .named c.bodyShapes

end ClassDoc

/-- The shapes of a declaration file: the interfaces of the classes in their order, each class with
the methods that it does not inherit, and then the blocks of the two namespaces. -/
def Docs.shapes (d : Docs) : List Shape :=
  (d.classes.flatMap fun c => c.interfaceShapes (d.hierarchy.flatten c).own.methods) ++
    [d.globals.blockShape, d.math.blockShape]

/-! ### Members -/

open Checked

variable {rules : RuleTable} {k : Context}

namespace MethodDoc

variable (m : MethodDoc) (owner : String)

theorem length_value_overloadsOf :
    ((m.overloadsOf rules owner).value k).length = min m.parameters.length m.returns.length := by
  rw [value_overloadsOf, List.length_mapIdx, length_overloads]

/-- What is made of the overloads of a method has the shapes of the method, if only the name shows
in the shape. -/
theorem shapes_expand {ν σ : Type} {make : String → Overload → Checked ν} {read : ν → σ}
    {shape : String → σ} (hmake : ∀ name o, read ((make name o).value k) = shape name) :
    ((m.expand make ((m.overloadsOf rules owner).value k)).value k).map read = m.shapes shape := by
  simp only [expand, value_gather, value_each, List.map_flatMap, List.map_map, Function.comp_def,
    hmake, List.map_const', length_value_overloadsOf, shapes]

theorem shapes_emission :
    ((m.emission rules owner).emit.value k).map Member.shape = m.shapes .method := by
  have hmake (k : Context) (name : String) (o : Overload) :
      ((method name o.params o.result).value k).shape = .method name := rfl
  rw [Emission.value_emit]
  simp only [emission, Commented.withComment, value_pure, value_bind, List.nil_append,
    List.append_nil, List.map_map, Function.comp_def, Member.shape_withComment]
  exact m.shapes_expand owner (hmake _)

end MethodDoc

theorem FieldDoc.shapes_emission (f : FieldDoc) (owner : String) :
    ((f.emission rules owner).emit.value k).map Member.shape = [.property f.name] := by
  rw [Emission.value_emit]
  simp only [emission, Commented.withComment, value_pure, value_bind, List.nil_append,
    List.append_nil, List.map_cons, List.map_nil, Member.shape_withComment]
  rfl

/-! ### Interfaces -/

namespace ClassDoc

variable (c : ClassDoc) (parent? : Option String)

theorem shapes_members :
    ((c.members rules).value k).map Member.shape = c.memberShapes c.methods := by
  simp only [members, value_bind, value_pure, value_gather, List.map_append, List.map_flatMap,
    MethodDoc.shapes_emission, FieldDoc.shapes_emission, memberShapes, ← List.map_eq_flatMap]

theorem shape_interfaceNamed (name : String) (modifiers : List Modifier) :
    ((c.interfaceNamed rules parent? name modifiers).value k).shape =
      .interface name (c.memberShapes c.methods) :=
  congrArg (Shape.interface name) c.shapes_members

theorem shape_modelPartInterface :
    (modelPartInterface.value k).shape = .interface "ModelPart" [.index] := rfl

/-- A class becomes interfaces of these shapes. -/
theorem shapes_emission :
    ((c.emission rules parent?).emit.value k).map Statement.shape =
      c.interfaceShapes c.methods := by
  by_cases hmodel : c.name = modelPart
  · rw [emission, if_pos hmodel, Emission.value_emit, interfaceShapes,
      if_pos (show c.name = "ModelPart" from hmodel)]
    simp only [Commented.withComment, value_pure, value_bind, List.append_nil, List.map_cons,
      List.map_nil, List.singleton_append, Statement.shape_withComment, shape_interfaceNamed,
      shape_modelPartInterface, modelPartMembers]
  · rw [emission, if_neg hmodel, Emission.value_emit, interfaceShapes,
      if_neg (show ¬ c.name = "ModelPart" from hmodel)]
    simp only [Commented.withComment, value_pure, value_bind, List.append_nil, List.nil_append,
      List.map_cons, List.map_nil, Statement.shape_withComment, shape_interfaceNamed]

end ClassDoc

/-- The classes become their interfaces one after another, without what they inherit. -/
theorem Hierarchy.shapes_emit (h : Hierarchy) :
    ((h.emit rules).value k).map Statement.shape =
      h.classes.flatMap fun c => c.interfaceShapes (h.flatten c).own.methods := by
  simp only [emit, Flattened.emit, value_gather, value_bind, List.map_flatMap,
    ClassDoc.shapes_emission]
  rfl

/-! ### Blocks -/

theorem FieldDoc.shapes_constantEmission (f : FieldDoc) (owner : String) :
    ((f.constantEmission rules owner).emit.value k).map Statement.shape =
      [.constant f.name] := by
  rw [Emission.value_emit]
  simp only [constantEmission, Commented.withComment, value_pure, value_bind, List.nil_append,
    List.append_nil, List.map_cons, List.map_nil, Statement.shape_withComment]
  rfl

/-- The one published rule for whole functions declares one function. -/
theorem MethodDoc.shapes_functionEmission (m : MethodDoc) (owner : String) :
    ((m.functionEmission .builtin owner).emit.value k).map Statement.shape =
      if m.name = "lerp" then [.function "lerp"] else m.shapes .function := by
  have hmake (k : Context) (name : String) (o : Overload) :
      ((function name o.params o.result).value k).shape = .function name := rfl
  rw [Emission.value_emit]
  by_cases hlerp : m.name = "lerp"
  · have hrule : RuleTable.builtin.signature? m.name = some interpolation := by
      rw [RuleTable.signature?_builtin, if_pos hlerp]
    simp only [functionEmission, hrule, Commented.withComment, value_pure, List.nil_append,
      List.append_nil, List.map_map, Function.comp_def, Statement.shape_withComment, if_pos hlerp]
    rw [hlerp]
    rfl
  · have hrule : RuleTable.builtin.signature? m.name = none := by
      rw [RuleTable.signature?_builtin, if_neg hlerp]
    simp only [functionEmission, hrule, Commented.withComment, value_pure, value_bind,
      List.nil_append, List.append_nil, List.map_map, Function.comp_def,
      Statement.shape_withComment, if_neg hlerp]
    exact m.shapes_expand owner (hmake _)

namespace ClassDoc

variable (c : ClassDoc)

theorem shapes_blockBody :
    ((c.blockBody .builtin).value k).map Statement.shape = c.bodyShapes := by
  simp only [blockBody, value_bind, value_pure, value_gather, List.map_append, List.map_flatMap,
    FieldDoc.shapes_constantEmission, MethodDoc.shapes_functionEmission, bodyShapes,
    ← List.map_eq_flatMap]

theorem shape_block (name : String) (body : List Statement) (modifiers : List Modifier)
    (kind : BlockKind) :
    ((block name body modifiers kind).value k).shape =
      .block name kind (body.map Statement.shape) :=
  congrArg (Shape.block name kind) (Statement.listShape_eq_map body)

/-- A namespace becomes a block of this shape. -/
theorem shapes_blockEmission :
    ((c.blockEmission .builtin).emit.value k).map Statement.shape = [c.blockShape] := by
  have hshape : Shape.block c.blockName c.blockKind c.bodyShapes = c.blockShape := by
    by_cases hname : c.name = "globals" <;> simp [blockName, blockKind, globals, blockShape, hname]
  rw [Emission.value_emit]
  simp only [blockEmission, Commented.withComment, value_pure, value_bind, List.nil_append,
    List.append_nil, List.map_cons, List.map_nil, Statement.shape_withComment, shape_block,
    shapes_blockBody, hshape]

end ClassDoc

/-- **A declaration file has the shape that its documentation asks for.** -/
theorem Docs.shapes_compile (d : Docs) (known : List String) (style : Layout.Style) :
    (d.compile { known, rules := .builtin, style }).statements.map Statement.shape = d.shapes := by
  show ((d.emit .builtin).value _).map Statement.shape = _
  simp only [emit, value_bind, value_pure, value_gather, List.map_append, List.map_flatMap,
    Hierarchy.shapes_emit, ClassDoc.shapes_blockEmission, shapes]
  rfl

end ApiTypings
