import ApiTypings.Compilation
import ApiTypings.Proofs.Ancestry.Deduplication
import ApiTypings.Proofs.Ancestry.Lineage

/-!
# What interfaces extend

Of a declaration file this module keeps its outline: the interfaces by their names, each with the
names of what it extends (`Statement.outlines`). That is a graph of names (`Statement.Extends`),
and the classes of the documentation say what it is (**`extends_compile_iff`**): an interface
extends the parent of its class if that is documented, and the interface of a `ModelPart` extends
the one that has its members.

Every class is given one parent at most, its own. **`follows_ancestry`** — yet who goes from
interface to interface meets all the ancestors of a class in their order, if the walk along them
does not end in a cycle: the ancestors of the parent are the further ancestors.
-/

namespace ApiTypings

/-- An interface by its name and the names of what it extends. -/
structure Outline where
  name : String
  parents : List String
  deriving DecidableEq, Repr

namespace Statement

/-- The outline of a declaration, if it is an interface. -/
def outline? : Statement → Option Outline
  | .interface head parents _ _ => some ⟨head.name, parents.map (·.name)⟩
  | _ => none

/-- The outlines of the interfaces among declarations. -/
def outlines (ss : List Statement) : List Outline := ss.filterMap outline?

@[simp] theorem outline?_interface (head : Head) (parents contracts : List Heritage)
    (members : List Member) :
    (interface head parents contracts members).outline? =
      some ⟨head.name, parents.map (·.name)⟩ := rfl

@[simp] theorem outline?_block (head : Head) (kind : BlockKind) (body : List Statement) :
    (block head kind body).outline? = none := rfl

@[simp] theorem outline?_withComment (s : Statement) (comment : Option Comment) :
    (s.withComment comment).outline? = s.outline? := by
  cases comment <;> cases s <;> rfl

@[simp] theorem outlines_append (ss ts : List Statement) :
    outlines (ss ++ ts) = outlines ss ++ outlines ts := List.filterMap_append

theorem outlines_flatMap {ι : Type} (f : ι → List Statement) (is : List ι) :
    outlines (is.flatMap f) = is.flatMap fun i => outlines (f i) := by
  induction is with
  | nil => rfl
  | cons i is ih => rw [List.flatMap_cons, List.flatMap_cons, outlines_append, ih]

/-- A name is that of an interface among declarations. -/
def IsInterface (ss : List Statement) (name : String) : Prop := ∃ o ∈ outlines ss, o.name = name

/-- An interface of the one name extends one of the other. -/
def Extends (ss : List Statement) (name parent : String) : Prop :=
  ∃ o ∈ outlines ss, o.name = name ∧ parent ∈ o.parents

instance (ss : List Statement) (name parent : String) : Decidable (Extends ss name parent) :=
  inferInstanceAs (Decidable (∃ o ∈ outlines ss, o.name = name ∧ parent ∈ o.parents))

/-- Each of these names is that of an interface which extends the next one and nothing else, up
to the last, which extends nothing. -/
inductive Follows (ss : List Statement) : List String → Prop
  | last {name : String} : IsInterface ss name → (∀ parent, ¬ Extends ss name parent) →
      Follows ss [name]
  | next {name parent : String} {rest : List String} :
      (∀ other, Extends ss name other ↔ other = parent) → Follows ss (parent :: rest) →
      Follows ss (name :: parent :: rest)

end Statement

/-! ### Outlines of classes -/

namespace ClassDoc

/-- The name of the interface that has the members of a class, and extends its parent. -/
def membersName (c : ClassDoc) : String := if c.name = modelPart then modelPartMembers else c.name

/-- The interfaces that a class becomes, from the one of its name on. -/
def interfaceNames (c : ClassDoc) : List String :=
  if c.name = modelPart then [modelPart, modelPartMembers] else [c.name]

theorem membersName_ne_modelPart (c : ClassDoc) : c.membersName ≠ modelPart := by
  unfold membersName
  split
  · decide
  · assumption

theorem membersName_mem_interfaceNames (c : ClassDoc) : c.membersName ∈ c.interfaceNames := by
  unfold membersName interfaceNames
  split <;> simp

theorem interfaceNames_eq_cons (c : ClassDoc) :
    c.interfaceNames = c.name :: c.interfaceNames.tail := by
  unfold interfaceNames
  split
  · next hm => rw [hm, List.tail_cons]
  · rfl

theorem name_mem_interfaceNames (c : ClassDoc) : c.name ∈ c.interfaceNames := by
  rw [interfaceNames_eq_cons]
  exact List.mem_cons_self

/-- The outlines of the interfaces that a class becomes. -/
def outlines (c : ClassDoc) (parent? : Option String) : List Outline :=
  if c.name = modelPart then [⟨modelPartMembers, parent?.toList⟩, ⟨modelPart, [modelPartMembers]⟩]
  else [⟨c.name, parent?.toList⟩]

theorem outline?_interfaceNamed (c : ClassDoc) (rules : RuleTable) (parent? : Option String)
    (name : String) (modifiers : List Modifier) (k : Context) :
    ((c.interfaceNamed rules parent? name modifiers).value k).outline? =
      some ⟨name, parent?.toList⟩ := by
  simp [interfaceNamed, Checked.interface, Checked.heritage, NameCheck.standard,
    Function.comp_def]

/-- A class becomes these interfaces, whatever its members are. -/
theorem outlines_emission (c : ClassDoc) (rules : RuleTable) (parent? : Option String)
    (k : Context) :
    Statement.outlines ((c.emission rules parent?).emit.value k) = c.outlines parent? := by
  have hmodel (k : Context) :
      (modelPartInterface.value k).outline? = some ⟨modelPart, [modelPartMembers]⟩ := rfl
  unfold emission outlines
  split
  · rw [Emission.value_emit]
    simp [Statement.outlines, Commented.withComment, hmodel, outline?_interfaceNamed]
  · rw [Emission.value_emit]
    simp [Statement.outlines, Commented.withComment, outline?_interfaceNamed]

/-- A namespace becomes no interface. -/
theorem outlines_blockEmission (c : ClassDoc) (rules : RuleTable) (k : Context) :
    Statement.outlines ((c.blockEmission rules).emit.value k) = [] := by
  rw [Emission.value_emit]
  simp [Statement.outlines, Commented.withComment, blockEmission, Checked.block]

end ClassDoc

/-- The parent that is documented is the nearest ancestor. -/
theorem Hierarchy.parent?_flatten (h : Hierarchy) (c : ClassDoc) :
    (h.flatten c).parent? = (h.ancestry c).chain.head?.map (·.name) := rfl

theorem Hierarchy.parent?_flatten_eq_some_iff {h : Hierarchy} {c : ClassDoc} {parent : String} :
    (h.flatten c).parent? = some parent ↔
      ∃ p rest, (h.ancestry c).chain = p :: rest ∧ p.name = parent := by
  rw [parent?_flatten, Option.map_eq_some_iff]
  simp only [List.head?_eq_some_iff, exists_and_right]

namespace Docs

/-- The documented classes, among which parents are looked up. -/
abbrev hierarchy (d : Docs) : Hierarchy := ⟨d.classes⟩

/-- The interfaces of a declaration file are those of the classes, one class after another. -/
theorem outlines_compile (d : Docs) (config : Config) :
    Statement.outlines (d.compile config).statements =
      d.classes.flatMap fun c => c.outlines (d.hierarchy.flatten c).parent? := by
  have hclasses (k : Context) : Statement.outlines ((d.hierarchy.emit config.rules).value k) =
      d.classes.flatMap fun c => c.outlines (d.hierarchy.flatten c).parent? := by
    rw [Hierarchy.emit, Checked.value_gather, Statement.outlines_flatMap]
    simp only [Flattened.emit, Checked.value_bind, ClassDoc.outlines_emission]
    rfl
  have hblocks (k : Context) : Statement.outlines ((Checked.gather
      (fun c => (c.blockEmission config.rules).emit) d.namespaces).value k) = [] := by
    rw [Checked.value_gather, Statement.outlines_flatMap]
    exact List.flatMap_eq_nil_iff.2 fun c _ => c.outlines_blockEmission config.rules k
  show Statement.outlines ((d.emit config.rules).value (d.context config)) = _
  rw [emit, Checked.value_bind, Checked.value_bind, Checked.value_pure, Statement.outlines_append,
    hclasses, hblocks, List.append_nil]

/-- **What interfaces extend**: the interface with the members of a class extends the parent of
the class, and the interface of a `ModelPart` the one with its members. -/
theorem extends_compile_iff (d : Docs) (config : Config) {name parent : String} :
    Statement.Extends (d.compile config).statements name parent ↔
      ∃ c ∈ d.classes, (name = c.membersName ∧ (d.hierarchy.flatten c).parent? = some parent) ∨
        (c.name = ClassDoc.modelPart ∧ name = ClassDoc.modelPart ∧
          parent = ClassDoc.modelPartMembers) := by
  have hclass (c : ClassDoc) (p : Option String) :
      (∃ o ∈ c.outlines p, o.name = name ∧ parent ∈ o.parents) ↔
        (name = c.membersName ∧ p = some parent) ∨ (c.name = ClassDoc.modelPart ∧
          name = ClassDoc.modelPart ∧ parent = ClassDoc.modelPartMembers) := by
    unfold ClassDoc.outlines ClassDoc.membersName
    split
    · next hm => simp [hm, eq_comm]
    · next hm => simp [hm, eq_comm]
  rw [Statement.Extends, outlines_compile]
  constructor
  · rintro ⟨o, ho, hname⟩
    obtain ⟨c, hc, ho⟩ := List.mem_flatMap.1 ho
    exact ⟨c, hc, (hclass c _).1 ⟨o, ho, hname⟩⟩
  · rintro ⟨c, hc, hlink⟩
    obtain ⟨o, ho, hname⟩ := (hclass c _).2 hlink
    exact ⟨o, List.mem_flatMap.2 ⟨c, hc, ho⟩, hname⟩

theorem isInterface_compile_iff (d : Docs) (config : Config) {name : String} :
    Statement.IsInterface (d.compile config).statements name ↔
      ∃ c ∈ d.classes, name ∈ c.interfaceNames := by
  have hclass (c : ClassDoc) (p : Option String) :
      (∃ o ∈ c.outlines p, o.name = name) ↔ name ∈ c.interfaceNames := by
    unfold ClassDoc.outlines ClassDoc.interfaceNames
    split <;> simp [eq_comm, or_comm]
  rw [Statement.IsInterface, outlines_compile]
  constructor
  · rintro ⟨o, ho, hname⟩
    obtain ⟨c, hc, ho⟩ := List.mem_flatMap.1 ho
    exact ⟨c, hc, (hclass c _).1 ⟨o, ho, hname⟩⟩
  · rintro ⟨c, hc, hmem⟩
    obtain ⟨o, ho, hname⟩ := (hclass c (d.hierarchy.flatten c).parent?).2 hmem
    exact ⟨o, List.mem_flatMap.2 ⟨c, hc, ho⟩, hname⟩

variable {d : Docs} {config : Config} {c : ClassDoc}

/-- What an interface extends is an interface of the file. -/
theorem isInterface_of_extends {name parent : String}
    (hext : Statement.Extends (d.compile config).statements name parent) :
    Statement.IsInterface (d.compile config).statements parent := by
  obtain ⟨c, hc, ⟨-, hparent⟩ | ⟨hmodel, -, rfl⟩⟩ := (extends_compile_iff d config).1 hext
  · obtain ⟨p, rest, hchain, rfl⟩ := Hierarchy.parent?_flatten_eq_some_iff.1 hparent
    have hmem := (Hierarchy.parent_of_chain_eq_cons hchain).2.2.2
    exact (isInterface_compile_iff d config).2 ⟨p, hmem, p.name_mem_interfaceNames⟩
  · refine (isInterface_compile_iff d config).2 ⟨c, hc, ?_⟩
    simp [ClassDoc.interfaceNames, hmodel]

/-! ### From interface to interface -/

/-- Classes with distinct names, none of which is that of the members of a `ModelPart`, have their
members in different interfaces. -/
theorem eq_of_membersName_eq (hd : d.hierarchy.Distinct)
    (hm : ClassDoc.modelPartMembers ∉ d.classes.map (·.name)) (hc : c ∈ d.classes) {e : ClassDoc}
    (he : e ∈ d.classes) (hn : c.membersName = e.membersName) : c = e := by
  have hfree {x : ClassDoc} (hx : x ∈ d.classes) : x.name ≠ ClassDoc.modelPartMembers := fun hn =>
    hm (hn ▸ List.mem_map_of_mem hx)
  refine List.inj_on_of_nodup_map hd hc he ?_
  unfold ClassDoc.membersName at hn
  split at hn
  · next hcm =>
    split at hn
    · next hem => rw [hcm, hem]
    · exact absurd hn.symm (hfree he)
  · split at hn
    · exact absurd hn (hfree hc)
    · exact hn

theorem extends_membersName_iff (hd : d.hierarchy.Distinct)
    (hm : ClassDoc.modelPartMembers ∉ d.classes.map (·.name)) (hc : c ∈ d.classes)
    {parent : String} :
    Statement.Extends (d.compile config).statements c.membersName parent ↔
      (d.hierarchy.flatten c).parent? = some parent := by
  rw [extends_compile_iff]
  constructor
  · rintro ⟨e, he, ⟨hn, hp⟩ | ⟨-, hn, -⟩⟩
    · obtain rfl := eq_of_membersName_eq hd hm hc he hn
      exact hp
    · exact absurd hn c.membersName_ne_modelPart
  · intro hp
    exact ⟨c, hc, .inl ⟨rfl, hp⟩⟩

theorem extends_modelPart_iff (hc : c ∈ d.classes) (hmodel : c.name = ClassDoc.modelPart)
    {parent : String} :
    Statement.Extends (d.compile config).statements ClassDoc.modelPart parent ↔
      parent = ClassDoc.modelPartMembers := by
  rw [extends_compile_iff]
  constructor
  · rintro ⟨e, -, ⟨hn, -⟩ | ⟨-, -, hp⟩⟩
    · exact absurd hn.symm e.membersName_ne_modelPart
    · exact hp
  · rintro rfl
    exact ⟨c, hc, .inr ⟨hmodel, rfl, rfl⟩⟩

/-- What follows on the members of a class follows on the class. -/
theorem follows_interfaceNames (hc : c ∈ d.classes) {rest : List String}
    (hf : Statement.Follows (d.compile config).statements (c.membersName :: rest)) :
    Statement.Follows (d.compile config).statements (c.interfaceNames ++ rest) := by
  unfold ClassDoc.membersName at hf
  unfold ClassDoc.interfaceNames
  split at hf
  · next hmodel =>
    rw [if_pos hmodel]
    exact .next (fun _ => extends_modelPart_iff hc hmodel) hf
  · next hmodel =>
    rw [if_neg hmodel]
    exact hf

/-- From the interface of a class on, one meets those of its ancestors. -/
theorem follows_chain (hd : d.hierarchy.Distinct)
    (hm : ClassDoc.modelPartMembers ∉ d.classes.map (·.name)) {chain : List ClassDoc}
    (hc : c ∈ d.classes) (hs : ∀ name, (d.hierarchy.ancestry c).stop ≠ .cycle name)
    (hchain : (d.hierarchy.ancestry c).chain = chain) :
    Statement.Follows (d.compile config).statements
      (c.interfaceNames ++ chain.flatMap ClassDoc.interfaceNames) := by
  induction chain generalizing c with
  | nil =>
    refine follows_interfaceNames hc (.last ?_ fun parent hext => ?_)
    · exact (isInterface_compile_iff d config).2 ⟨c, hc, c.membersName_mem_interfaceNames⟩
    · rw [extends_membersName_iff hd hm hc, Hierarchy.parent?_flatten, hchain] at hext
      cases hext
  | cons p rest ih =>
    obtain ⟨-, -, -, hp⟩ := Hierarchy.parent_of_chain_eq_cons hchain
    have hl : d.hierarchy.lineage c = [c] ++ p :: rest := congrArg (c :: ·) hchain
    have ha := Hierarchy.ancestry_of_lineage_eq hs hl
    have hrest := ih hp (by rwa [ha]) (by rw [ha])
    rw [ClassDoc.interfaceNames_eq_cons] at hrest
    refine follows_interfaceNames hc ?_
    rw [List.flatMap_cons, ClassDoc.interfaceNames_eq_cons]
    refine .next (fun other => ?_) hrest
    rw [extends_membersName_iff hd hm hc, Hierarchy.parent?_flatten, hchain, List.head?_cons,
      Option.map_some, Option.some_inj, eq_comm]

/-- **What interfaces extend are the ancestors.** Of documentation whose classes have distinct
names, none of which is that of the members of a `ModelPart`, what the interfaces of a class extend
is an interface of the file. And if the walk along its ancestors does not end in a cycle, one comes
from the interface of the class to those of its ancestors one after another, and no further. -/
theorem follows_ancestry (d : Docs) (config : Config) (hd : (d.classes.map (·.name)).Nodup)
    (hm : ClassDoc.modelPartMembers ∉ d.classes.map (·.name)) {c : ClassDoc} (hc : c ∈ d.classes)
    (hs : ∀ name, (d.hierarchy.ancestry c).stop ≠ .cycle name) :
    let ss := (d.compile config).statements
    (∀ name ∈ c.interfaceNames, ∀ parent, Statement.Extends ss name parent →
        Statement.IsInterface ss parent) ∧
      Statement.Follows ss
        (c.interfaceNames ++ (d.hierarchy.ancestry c).chain.flatMap ClassDoc.interfaceNames) :=
  ⟨fun _ _ _ => isInterface_of_extends, follows_chain hd hm hc hs rfl⟩

/-- A model part whose members come from a parent that is there, and whose grandparent is not. -/
def modelDocs : Docs where
  globals :=
    { name := "globals"
      fields :=
        [{ name := "model"
           children :=
            [{ name := "CustomModelPart", parent := some "ModelPart" },
              { name := "Part", parent := some "Missing" },
              { name := "ModelPart", parent := some "Part" }] }] }
  math := { name := "math" }

/-- The class from which the model part is the parent. -/
def customModelPart : ClassDoc := { name := "CustomModelPart", parent := some "ModelPart" }

theorem follows_ancestry_modelDocs :
    let ss := (modelDocs.compile { known := [], rules := .builtin }).statements
    (modelDocs.classes.map (·.name)).Nodup ∧
      ClassDoc.modelPartMembers ∉ modelDocs.classes.map (·.name) ∧
      customModelPart ∈ modelDocs.classes ∧
      (∀ name, (modelDocs.hierarchy.ancestry customModelPart).stop ≠ .cycle name) ∧
      (∀ name ∈ customModelPart.interfaceNames, ∀ parent, Statement.Extends ss name parent →
        Statement.IsInterface ss parent) ∧
      Statement.Follows ss ["CustomModelPart", "ModelPart", "ModelPartAPI", "Part"] := by
  have hd : (modelDocs.classes.map (·.name)).Nodup := by decide +kernel
  have hm : ClassDoc.modelPartMembers ∉ modelDocs.classes.map (·.name) := by decide +kernel
  have hc : customModelPart ∈ modelDocs.classes := List.mem_cons_self
  have hs : (modelDocs.hierarchy.ancestry customModelPart).stop = .unresolved "Missing" := by
    decide +kernel
  have hnot : ∀ name, (modelDocs.hierarchy.ancestry customModelPart).stop ≠ .cycle name := by
    intro name
    rw [hs]
    exact Stop.noConfusion
  have hnames : customModelPart.interfaceNames ++
      (modelDocs.hierarchy.ancestry customModelPart).chain.flatMap ClassDoc.interfaceNames =
        ["CustomModelPart", "ModelPart", "ModelPartAPI", "Part"] := by
    decide +kernel
  have hf := follows_ancestry modelDocs { known := [], rules := .builtin } hd hm hc hnot
  rw [hnames] at hf
  exact ⟨hd, hm, hc, hnot, hf⟩

end Docs

end ApiTypings
