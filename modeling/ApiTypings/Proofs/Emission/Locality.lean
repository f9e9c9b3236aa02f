import ApiTypings.Compilation
import ApiTypings.Proofs.Ancestry.Deduplication
import ApiTypings.Proofs.Declaration.Untyped

/-!
# What rules change

A rule answers with a type for a place, and a type is all that it can change: two tables with the
same rules for whole functions give the same declarations up to types, whatever the other rules are.
And a rule is asked for the owner and the member that it is for, so that two tables are as good as
one if they have the same rules for all members of the documentation.

* `Checked.UpTo` — two computations make the same in every context, as far as a reading of it goes.
  There is a rule for each way to put computations together, and from these follows what holds of
  the makers of members, interfaces and blocks.
* **`compile_of_rules`** — the declarations of two compilations are the same without their types,
  and if the tables agree on what is documented (`AgreesFor`), so are the compilations as a whole.
-/

namespace ApiTypings

open Checked

namespace Checked

variable {α β γ δ : Type}

/-- Two computations that make the same in every context, as far as a reading goes. -/
def UpTo (read : α → β) (x y : Checked α) : Prop := ∀ k, read (x.value k) = read (y.value k)

namespace UpTo

variable {read : α → β} {readNext : γ → δ}

theorem refl (x : Checked α) : UpTo read x x := fun _ => rfl

theorem same (x : Checked α) : UpTo id x x := .refl x

theorem pure {a b : α} (h : read a = read b) : UpTo read (Pure.pure a) (Pure.pure b) := fun _ => h

theorem bind {x y : Checked α} {f g : α → Checked γ} (hx : UpTo read x y)
    (hf : ∀ a b, read a = read b → UpTo readNext (f a) (g b)) :
    UpTo readNext (x >>= f) (y >>= g) :=
  fun k => hf _ _ (hx k) k

theorem within {x y : Checked α} (name : String) (h : UpTo read x y) :
    UpTo read (Checked.within name x) (Checked.within name y) :=
  fun k => h (k.enter name)

theorem single {x y : Checked α} (h : UpTo read x y) :
    UpTo (List.map read) (do return [← x]) (do return [← y]) :=
  .bind h fun _ _ hab => .pure (congrArg (fun b => [b]) hab)

/-- From two lists that are the same as far as a reading goes, the same is made. -/
theorem each {f g : α → Checked γ} {as bs : List α} (h : as.map read = bs.map read)
    (hf : ∀ a b, read a = read b → UpTo readNext (f a) (g b)) :
    UpTo (List.map readNext) (Checked.each f as) (Checked.each g bs) := by
  induction as generalizing bs with
  | nil =>
    obtain rfl := List.map_eq_nil_iff.1 h.symm
    exact .refl _
  | cons a as ih =>
    obtain ⟨b, bs, rfl, hb, hbs⟩ := List.map_eq_cons_iff.1 h.symm
    refine .bind (hf a b hb.symm) fun c d hcd => .bind (ih hbs.symm) fun cs ds hcds => .pure ?_
    rw [List.map_cons, List.map_cons, hcd, hcds]

theorem eachAt {f g : Nat → α → Checked γ} (hf : ∀ place a, UpTo readNext (f place a) (g place a))
    (place : Nat) (as : List α) :
    UpTo (List.map readNext) (Checked.eachAt f place as) (Checked.eachAt g place as) := by
  induction as generalizing place with
  | nil => exact .refl _
  | cons a as ih =>
    refine .bind (hf place a) fun c d hcd => .bind (ih _) fun cs ds hcds => .pure ?_
    rw [List.map_cons, List.map_cons, hcd, hcds]

theorem gather {f g : α → Checked (List γ)} (hf : ∀ a, UpTo (List.map readNext) (f a) (g a))
    (as : List α) : UpTo (List.map readNext) (Checked.gather f as) (Checked.gather g as) := by
  intro k
  rw [value_gather, value_gather, List.map_flatMap, List.map_flatMap]
  exact congrArg (List.flatMap · as) (funext fun a => hf a k)

end UpTo

/-- What is made of every item of a list hangs on these items alone. -/
theorem gather_congr {f g : α → Checked (List β)} {as : List α} (h : ∀ a ∈ as, f a = g a) :
    gather f as = gather g as := by
  refine ext (fun k => ?_) fun k => ?_
  · rw [value_gather, value_gather]
    exact List.flatMap_congr fun a ha => congrArg (·.value k) (h a ha)
  · rw [diagnostics_gather, diagnostics_gather]
    exact List.flatMap_congr fun a ha => congrArg (·.diagnostics k) (h a ha)

end Checked

/-- What a part of the documentation becomes is the same as far as a reading goes, if comments have
nothing to do with the reading. -/
theorem Emission.upTo_emit {ν : Type} [Commented ν] {read : ν → ν}
    (hread : ∀ n comment, read (Commented.withComment n comment) =
      Commented.withComment (read n) comment)
    {e e' : Emission ν} (hname : e.name = e'.name) (hdescription : e.description = e'.description)
    (htags : e.tags = e'.tags)
    (hprimary : UpTo (List.map read) e.primary e'.primary)
    (hpreceding : UpTo (List.map read) e.preceding e'.preceding)
    (hfollowing : UpTo (List.map read) e.following e'.following) :
    UpTo (List.map read) e.emit e'.emit := by
  have hcomment : e.comment? = e'.comment? := by rw [comment?, comment?, hdescription, htags]
  rw [emit, emit, hname, hcomment]
  refine .within _ (.bind hprimary fun ns ns' hns => .bind hpreceding fun ps ps' hps =>
    .bind hfollowing fun fs fs' hfs => .pure ?_)
  have hcommented : ∀ ns : List ν,
      (ns.map (Commented.withComment · e'.comment?)).map read =
        (ns.map read).map (Commented.withComment · e'.comment?) := fun ns => by
    simp only [List.map_map, Function.comp_def, hread]
  simp only [List.map_append, hcommented, hns, hps, hfs]

/-! ### Declarations up to their types -/

namespace Checked

/-- Whatever a type is made from, there is nothing to read of it. -/
theorem upTo_anyType (x y : Checked TypeExpr) : UpTo (fun _ => ()) x y := fun _ => rfl

theorem upTo_param (name : String) (type type' : TypeExpr) :
    UpTo Binding.untyped (param name type) (param name type') :=
  .bind (.same _) fun _ _ hn =>
    .bind (upTo_anyType _ _) fun _ _ _ => .pure (congrArg (Binding.mk · default) hn)

theorem upTo_method (name : String) {params params' : List Param} (result result' : TypeExpr)
    (h : params.map Binding.untyped = params'.map Binding.untyped) :
    UpTo Member.untyped (method name params result) (method name params' result') :=
  .bind (.same _) fun n n' hn => .bind (upTo_anyType _ _) fun _ _ _ => .pure <| by
    obtain rfl : n = n' := hn
    simp only [Member.untyped, Signature.untyped, h]

theorem upTo_property (name : String) (type type' : TypeExpr) :
    UpTo Member.untyped (property name type) (property name type') :=
  .bind (.same _) fun n n' hn => .bind (upTo_anyType _ _) fun _ _ _ => .pure <| by
    obtain rfl : n = n' := hn
    simp only [Member.untyped, Signature.untyped]

theorem upTo_interface (name : String) {members members' : List Member}
    (modifiers : List Modifier) (parents : List Heritage)
    (h : members.map Member.untyped = members'.map Member.untyped) :
    UpTo Statement.untyped (interface name members modifiers parents)
      (interface name members' modifiers parents) :=
  .bind (.same _) fun n n' hn => .pure <| by
    obtain rfl : n = n' := hn
    simp only [Statement.untyped, h]

theorem upTo_constant (name : String) (type type' : TypeExpr) :
    UpTo Statement.untyped (constant name type) (constant name type') :=
  .bind (.same _) fun n n' hn => .bind (upTo_anyType _ _) fun _ _ _ => .pure <| by
    obtain rfl : n = n' := hn
    simp only [Statement.untyped]

theorem upTo_function (name : String) {params params' : List Param} (result result' : TypeExpr)
    (h : params.map Binding.untyped = params'.map Binding.untyped) :
    UpTo Statement.untyped (function name params result) (function name params' result') :=
  .bind (.same _) fun n n' hn => .bind (upTo_anyType _ _) fun _ _ _ => .pure <| by
    obtain rfl : n = n' := hn
    simp only [Statement.untyped, h]

theorem upTo_block (name : String) {body body' : List Statement} (modifiers : List Modifier)
    (kind : BlockKind) (h : body.map Statement.untyped = body'.map Statement.untyped) :
    UpTo Statement.untyped (block name body modifiers kind) (block name body' modifiers kind) :=
  .bind (.same _) fun n n' hn => .pure <| by
    obtain rfl : n = n' := hn
    simp only [Statement.untyped, Statement.listUntyped_eq_map, h]

end Checked

/-! ### Rules change types -/

/-- An overload without its types. -/
def Overload.untyped (o : Overload) : Overload := ⟨o.params.map Binding.untyped, default⟩

theorem Overload.untyped_params {o o' : Overload} (h : o.untyped = o'.untyped) :
    o.params.map Binding.untyped = o'.params.map Binding.untyped :=
  congrArg Overload.params h

variable {t t' : RuleTable}

namespace MethodDoc

variable (m : MethodDoc) (owner : String)

theorem upTo_paramAt (place : Nat) (p : ParameterDoc) :
    UpTo Binding.untyped (m.paramAt t owner place p) (m.paramAt t' owner place p) :=
  .bind (upTo_anyType _ _) fun _ _ _ => upTo_param _ _ _

theorem upTo_overloadAt (place : Nat) (overload : List ParameterDoc × String) :
    UpTo Overload.untyped (m.overloadAt t owner place overload)
      (m.overloadAt t' owner place overload) := by
  refine .bind (.eachAt (m.upTo_paramAt owner) 0 overload.1) fun ps qs hps => ?_
  exact .bind (upTo_anyType _ _) fun _ _ _ => .pure (congrArg (Overload.mk · default) hps)

theorem upTo_overloadsOf :
    UpTo (List.map Overload.untyped) (m.overloadsOf t owner) (m.overloadsOf t' owner) :=
  .bind (.same _) fun _ _ _ => .eachAt (m.upTo_overloadAt owner) 0 m.overloads

/-- From overloads that differ in their types, what is made under every name does so too. -/
theorem upTo_expand {ν : Type} {make : String → Overload → Checked ν} {read : ν → ν}
    (hmake : ∀ name o o', o.untyped = o'.untyped → UpTo read (make name o) (make name o')) :
    UpTo (List.map read) (do m.expand make (← m.overloadsOf t owner))
      (do m.expand make (← m.overloadsOf t' owner)) :=
  .bind (m.upTo_overloadsOf owner) fun _ _ h =>
    .gather (fun name => .each h (hmake name)) m.names

theorem upTo_emission :
    UpTo (List.map Member.untyped) (m.emission t owner).emit (m.emission t' owner).emit := by
  refine Emission.upTo_emit Member.untyped_withComment rfl rfl rfl ?_ (.refl _) (.refl _)
  exact m.upTo_expand owner fun name _ _ h =>
    upTo_method name _ _ (Overload.untyped_params h)

theorem upTo_functionEmission (hs : ∀ member, t.signature? member = t'.signature? member) :
    UpTo (List.map Statement.untyped) (m.functionEmission t owner).emit
      (m.functionEmission t' owner).emit := by
  refine Emission.upTo_emit Statement.untyped_withComment rfl rfl rfl ?_ (.refl _) (.refl _)
  simp only [functionEmission, hs m.name]
  cases t'.signature? m.name with
  | some rule => exact .refl _
  | none =>
    exact m.upTo_expand owner fun name _ _ h =>
      upTo_function name _ _ (Overload.untyped_params h)

end MethodDoc

theorem FieldDoc.upTo_emission (f : FieldDoc) (owner : String) :
    UpTo (List.map Member.untyped) (f.emission t owner).emit (f.emission t' owner).emit :=
  Emission.upTo_emit Member.untyped_withComment rfl rfl rfl
    (.bind (upTo_anyType _ _) fun _ _ _ => .single (upTo_property _ _ _)) (.refl _) (.refl _)

theorem FieldDoc.upTo_constantEmission (f : FieldDoc) (owner : String) :
    UpTo (List.map Statement.untyped) (f.constantEmission t owner).emit
      (f.constantEmission t' owner).emit :=
  Emission.upTo_emit Statement.untyped_withComment rfl rfl rfl
    (.bind (upTo_anyType _ _) fun _ _ _ => .single (upTo_constant _ _ _)) (.refl _) (.refl _)

namespace ClassDoc

variable (c : ClassDoc)

theorem upTo_members : UpTo (List.map Member.untyped) (c.members t) (c.members t') := by
  refine .bind (.gather (fun m => m.upTo_emission c.name) c.methods) fun ms ms' hms =>
    .bind (.gather (fun f => f.upTo_emission c.name) c.fields) fun fs fs' hfs => .pure ?_
  rw [List.map_append, List.map_append, hms, hfs]

theorem upTo_interfaceNamed (parent? : Option String) (name : String)
    (modifiers : List Modifier) :
    UpTo Statement.untyped (c.interfaceNamed t parent? name modifiers)
      (c.interfaceNamed t' parent? name modifiers) := by
  refine .bind (.same _) fun parents parents' hparents =>
    .bind c.upTo_members fun ms ms' hms => ?_
  obtain rfl : parents = parents' := hparents
  exact upTo_interface name modifiers parents hms

theorem upTo_emission (parent? : Option String) :
    UpTo (List.map Statement.untyped) (c.emission t parent?).emit
      (c.emission t' parent?).emit := by
  have hone (name : String) (modifiers : List Modifier) :
      UpTo (List.map Statement.untyped)
        (do return [← c.interfaceNamed t parent? name modifiers])
        (do return [← c.interfaceNamed t' parent? name modifiers]) :=
    .single (c.upTo_interfaceNamed parent? name modifiers)
  unfold emission
  split
  · exact Emission.upTo_emit Statement.untyped_withComment rfl rfl rfl (.refl _) (hone _ _)
      (.refl _)
  · exact Emission.upTo_emit Statement.untyped_withComment rfl rfl rfl (hone _ _) (.refl _)
      (.refl _)

theorem upTo_blockBody (hs : ∀ member, t.signature? member = t'.signature? member) :
    UpTo (List.map Statement.untyped) (c.blockBody t) (c.blockBody t') := by
  refine .bind (.gather (fun f => f.upTo_constantEmission c.name) c.fields) fun cs cs' hcs =>
    .bind (.gather (fun m => m.upTo_functionEmission c.name hs) c.methods) fun fs fs' hfs =>
    .pure ?_
  rw [List.map_append, List.map_append, hcs, hfs]

theorem upTo_blockEmission (hs : ∀ member, t.signature? member = t'.signature? member) :
    UpTo (List.map Statement.untyped) (c.blockEmission t).emit (c.blockEmission t').emit := by
  refine Emission.upTo_emit Statement.untyped_withComment rfl rfl rfl ?_ (.refl _) (.refl _)
  exact .bind (c.upTo_blockBody hs) fun _ _ hbody =>
    .single (upTo_block c.blockName [.declared] c.blockKind hbody)

end ClassDoc

theorem Hierarchy.upTo_emit (h : Hierarchy) :
    UpTo (List.map Statement.untyped) (h.emit t) (h.emit t') :=
  .gather (fun c => .bind (.same _) fun _ _ _ =>
    (h.flatten c).own.upTo_emission (h.flatten c).parent?) h.classes

/-- Whatever the rules for types are, they show nowhere but in types. -/
theorem Docs.upTo_emit (d : Docs) (hs : ∀ member, t.signature? member = t'.signature? member) :
    UpTo (List.map Statement.untyped) (d.emit t) (d.emit t') := by
  refine .bind (Hierarchy.upTo_emit ⟨d.classes⟩) fun is is' his =>
    .bind (.gather (fun c => c.upTo_blockEmission hs) d.namespaces) fun bs bs' hbs => .pure ?_
  rw [List.map_append, List.map_append, his, hbs]

/-! ### Rules are asked for what is documented -/

/-- The names of the methods and fields of a class or a namespace. The other names of a method have
no rules of their own. -/
def ClassDoc.memberNames (c : ClassDoc) : List String :=
  c.methods.map (·.name) ++ c.fields.map (·.name)

namespace RuleTable

/-- Two tables have the same rules for the members of a class or a namespace. -/
def AgreesFor (t t' : RuleTable) (c : ClassDoc) : Prop :=
  ∀ member ∈ c.memberNames, t.rulesFor c.name member = t'.rulesFor c.name member

theorem AgreesFor.method {c : ClassDoc} (h : t.AgreesFor t' c) {m : MethodDoc}
    (hm : m ∈ c.methods) : t.rulesFor c.name m.name = t'.rulesFor c.name m.name :=
  h m.name (List.mem_append_left _ (List.mem_map_of_mem hm))

theorem AgreesFor.field {c : ClassDoc} (h : t.AgreesFor t' c) {f : FieldDoc}
    (hf : f ∈ c.fields) : t.rulesFor c.name f.name = t'.rulesFor c.name f.name :=
  h f.name (List.mem_append_right _ (List.mem_map_of_mem hf))

/-- A rule for types is no rule for a whole function. -/
theorem signature?_add (t : RuleTable) (owner member : String) (target : Target) (rule : Rule)
    (name : String) : (t.add owner member target rule).signature? name = t.signature? name := rfl

/-- The type at a site hangs on the rules for its owner and member alone. -/
theorem resolve_congr {site : Site}
    (h : t.rulesFor site.owner site.member = t'.rulesFor site.owner site.member) :
    t.resolve site = t'.resolve site := by
  rw [resolve, resolve, lookup, lookup, h]

end RuleTable

namespace MethodDoc

variable {m : MethodDoc} {owner : String}

theorem overloadsOf_congr (h : t.rulesFor owner m.name = t'.rulesFor owner m.name) :
    m.overloadsOf t owner = m.overloadsOf t' owner := by
  have hparam : m.paramAt t owner = m.paramAt t' owner := by
    funext place p
    rw [paramAt, paramAt, RuleTable.resolve_congr h]
  have hoverload : m.overloadAt t owner = m.overloadAt t' owner := by
    funext place overload
    rw [overloadAt, overloadAt, hparam, RuleTable.resolve_congr h]
  rw [overloadsOf, overloadsOf, hoverload]

theorem emission_congr (h : t.rulesFor owner m.name = t'.rulesFor owner m.name) :
    m.emission t owner = m.emission t' owner := by
  rw [emission, emission, overloadsOf_congr h]

theorem functionEmission_congr (hs : ∀ member, t.signature? member = t'.signature? member)
    (h : t.rulesFor owner m.name = t'.rulesFor owner m.name) :
    m.functionEmission t owner = m.functionEmission t' owner := by
  simp only [functionEmission, hs m.name, overloadsOf_congr h]

end MethodDoc

namespace FieldDoc

variable {f : FieldDoc} {owner : String}

theorem emission_congr (h : t.rulesFor owner f.name = t'.rulesFor owner f.name) :
    f.emission t owner = f.emission t' owner := by
  rw [emission, emission, RuleTable.resolve_congr h]

theorem constantEmission_congr (h : t.rulesFor owner f.name = t'.rulesFor owner f.name) :
    f.constantEmission t owner = f.constantEmission t' owner := by
  rw [constantEmission, constantEmission, RuleTable.resolve_congr h]

end FieldDoc

namespace ClassDoc

variable {c : ClassDoc}

theorem members_congr (h : t.AgreesFor t' c) : c.members t = c.members t' := by
  have hmethods : gather (fun m => (m.emission t c.name).emit) c.methods =
      gather (fun m => (m.emission t' c.name).emit) c.methods :=
    gather_congr fun m hm => by rw [MethodDoc.emission_congr (h.method hm)]
  have hfields : gather (fun f => (f.emission t c.name).emit) c.fields =
      gather (fun f => (f.emission t' c.name).emit) c.fields :=
    gather_congr fun f hf => by rw [FieldDoc.emission_congr (h.field hf)]
  rw [members, members, hmethods, hfields]

theorem emission_congr (h : t.AgreesFor t' c) (parent? : Option String) :
    c.emission t parent? = c.emission t' parent? := by
  simp only [emission, interfaceNamed, members_congr h]

theorem blockEmission_congr (hs : ∀ member, t.signature? member = t'.signature? member)
    (h : t.AgreesFor t' c) : c.blockEmission t = c.blockEmission t' := by
  have hconstants : gather (fun f => (f.constantEmission t c.name).emit) c.fields =
      gather (fun f => (f.constantEmission t' c.name).emit) c.fields :=
    gather_congr fun f hf => by rw [FieldDoc.constantEmission_congr (h.field hf)]
  have hfunctions : gather (fun m => (m.functionEmission t c.name).emit) c.methods =
      gather (fun m => (m.functionEmission t' c.name).emit) c.methods :=
    gather_congr fun m hm => by rw [MethodDoc.functionEmission_congr hs (h.method hm)]
  simp only [blockEmission, blockBody, hconstants, hfunctions]

end ClassDoc

namespace Hierarchy

variable {h : Hierarchy}

/-- What is left of a class has no other members than the class. -/
theorem memberNames_flatten_subset (c : ClassDoc) :
    (h.flatten c).own.memberNames ⊆ c.memberNames := by
  have hmethods : (h.flatten c).own.methods ⊆ c.methods := fun m hm =>
    (mem_own_methods_iff.1 hm).1
  exact List.append_subset.2 ⟨List.subset_append_of_subset_left _ (List.map_subset _ hmethods),
    List.subset_append_right _ _⟩

theorem emit_congr (ha : ∀ c ∈ h.classes, t.AgreesFor t' c) : h.emit t = h.emit t' := by
  refine gather_congr fun c hc => ?_
  have hown : t.AgreesFor t' (h.flatten c).own := fun member hm =>
    ha c hc member (memberNames_flatten_subset c hm)
  rw [Flattened.emit, Flattened.emit, ClassDoc.emission_congr hown]

end Hierarchy

namespace Docs

theorem emit_congr {d : Docs} (hs : ∀ member, t.signature? member = t'.signature? member)
    (ha : ∀ c ∈ d.classes ++ d.namespaces, t.AgreesFor t' c) : d.emit t = d.emit t' := by
  have hclasses : Hierarchy.emit ⟨d.classes⟩ t = Hierarchy.emit ⟨d.classes⟩ t' :=
    Hierarchy.emit_congr fun c hc => ha c (List.mem_append_left _ hc)
  have hblocks : gather (fun c => (c.blockEmission t).emit) d.namespaces =
      gather (fun c => (c.blockEmission t').emit) d.namespaces :=
    gather_congr fun c hc => by
      rw [ClassDoc.blockEmission_congr hs (ha c (List.mem_append_right _ hc))]
  rw [emit, emit, hclasses, hblocks]

/-- **Rules change types only, and only where they are for.** With the same rules for whole
functions, the declarations of two compilations are the same without their types; and if the tables
have the same rules for all members of the documentation, the compilations are the same with all
that is reported. So the published rules for types are as good as none for documentation that has
none of their members. -/
theorem compile_of_rules (d : Docs) (known : List String) (style : Layout.Style) :
    (∀ t t' : RuleTable, (∀ member, t.signature? member = t'.signature? member) →
      let result := d.compile { known, rules := t, style }
      let other := d.compile { known, rules := t', style }
      result.statements.map Statement.untyped = other.statements.map Statement.untyped ∧
        ((∀ c ∈ d.classes ++ d.namespaces, ∀ member ∈ c.memberNames,
            t.rulesFor c.name member = t'.rulesFor c.name member) → result = other)) ∧
    ((∀ c ∈ d.classes ++ d.namespaces, ∀ member ∈ c.memberNames,
        RuleTable.builtin.rulesFor c.name member = []) →
      d.compile { known, rules := { RuleTable.builtin with signatures := .empty }, style } =
        d.compile { known, rules := .empty, style }) := by
  have hsame {t t' : RuleTable} (hs : ∀ member, t.signature? member = t'.signature? member)
      (ha : ∀ c ∈ d.classes ++ d.namespaces, t.AgreesFor t' c) :
      d.compile { known, rules := t, style } = d.compile { known, rules := t', style } := by
    simp only [compile, context, emit_congr hs ha]
  refine ⟨fun t t' hs => ⟨d.upTo_emit hs _, hsame hs⟩, fun hnone => hsame (fun _ => rfl) ?_⟩
  exact fun c hc member hm => hnone c hc member hm

/-- Documentation with a callback that there is a published rule for. -/
def switchDocs : Docs where
  globals :=
    { name := "globals"
      fields := [{
        name := "actions", type := "Function"
        children := [{
          name := "Action"
          methods := [{
            name := "setOnToggle"
            parameters := [[⟨"callback", "Function"⟩]]
            returns := ["nil"] }] }] }] }
  math := { name := "math" }

/-- A rule for a class that is not documented changes nothing. Without any rules the callback has
another type, one that is reported, and nothing else is another. For the namespaces alone there are
no rules to begin with. -/
theorem compile_of_rules_switch :
    let result (rules : RuleTable) := switchDocs.compile { rules }
    let more := RuleTable.builtin.add "Lamp" "glow" .field .action
    let fewer : RuleTable := { RuleTable.builtin with rules := .empty }
    let alone : Docs := { globals := { name := "globals" }, math := { name := "math" } }
    result more = result .builtin ∧
      (result fewer).statements.map Statement.untyped =
        (result .builtin).statements.map Statement.untyped ∧
      (result fewer).diagnostics.length = 2 ∧ (result .builtin).diagnostics.length = 1 ∧
      alone.compile { rules := { RuleTable.builtin with signatures := .empty } } =
        alone.compile { rules := .empty } := by
  intro result more fewer alone
  have hrules := (switchDocs.compile_of_rules extraTypes {}).1
  have hother : ∀ c ∈ switchDocs.classes ++ switchDocs.namespaces, c.name ≠ "Lamp" := by decide
  have hmore : ∀ c ∈ switchDocs.classes ++ switchDocs.namespaces, ∀ member ∈ c.memberNames,
      more.rulesFor c.name member = RuleTable.builtin.rulesFor c.name member := by
    intro c hc member _
    rw [RuleTable.rulesFor_add, if_neg fun h => hother c hc h.1, List.append_nil]
  have hsignatures := RuleTable.signature?_add .builtin "Lamp" "glow" .field .action
  exact ⟨(hrules more .builtin hsignatures).2 hmore, (hrules fewer .builtin fun _ => rfl).1,
    by decide +kernel, by decide +kernel, (alone.compile_of_rules extraTypes {}).2 (by decide)⟩

end Docs

end ApiTypings
