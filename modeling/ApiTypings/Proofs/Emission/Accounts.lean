import ApiTypings.Proofs.Emission.Made
import ApiTypings.Proofs.Rules.Accounts

/-!
# Declarations account for their references

Members and declarations are put together from what names, types and rules make, and hand on what
it refers to: an overload to the members under each of the names of the method, members to their
interface, declarations to their block. So a declaration file accounts for its references
(**`Docs.accounts_emit`**) if the rules do.
-/

namespace ApiTypings

open Checked

/-- What can have a comment refers to the same with and without one. -/
class LawfulCommented (ν : Type) [Commented ν] [Refers ν] : Prop where
  references_withComment (a : ν) (comment : Option Comment) :
    references (Commented.withComment a comment) = references a

instance : LawfulCommented Member := ⟨Member.references_withComment⟩

instance : LawfulCommented Statement := ⟨Statement.references_withComment⟩

namespace Emission

variable {ν : Type} [Commented ν] [Refers ν] [LawfulCommented ν]

theorem references_map_withComment (as : List ν) (comment : Option Comment) :
    references (as.map (Commented.withComment · comment)) = references as := by
  induction as with
  | nil => rfl
  | cons a as ih =>
    rw [List.map_cons, references_cons, references_cons, ih,
      LawfulCommented.references_withComment]

theorem accounts_emit {e : Emission ν} (hprimary : Accounts [] e.primary)
    (hpreceding : Accounts [] e.preceding) (hfollowing : Accounts [] e.following) :
    Accounts [] e.emit := by
  refine .within _ (.andThen hprimary fun as => .andThen hpreceding fun bs =>
    .andThen hfollowing fun cs => .pure fun name _ => ?_)
  rw [references_append, references_append, references_map_withComment]
  simp only [List.nil_append, List.mem_append, or_comm]

end Emission

/-! ### Members -/

instance : Refers Overload := ⟨fun o => references o.params ++ references o.result⟩

variable {rules : RuleTable}

namespace MethodDoc

variable (m : MethodDoc) (owner : String)

theorem accounts_paramAt (ht : rules.Every Rule.Accounted) (place : Nat) (p : ParameterDoc) :
    Accounts [] (m.paramAt rules owner place p) :=
  .andThen (RuleTable.accounts_resolve ht _) fun _ => accounts_param _ _

theorem accounts_overloadAt (ht : rules.Every Rule.Accounted) (place : Nat)
    (overload : List ParameterDoc × String) :
    Accounts [] (m.overloadAt rules owner place overload) :=
  .andThen (.eachAt (m.accounts_paramAt owner ht) 0 overload.1) fun _ =>
    .andThen (RuleTable.accounts_resolve ht _) fun _ => .value rfl

theorem accounts_overloadsOf (ht : rules.Every Rule.Accounted) :
    Accounts [] (m.overloadsOf rules owner) :=
  .andThen (.reportIf _ _ (by decide)) fun _ =>
    .eachAt (m.accounts_overloadAt owner ht) 0 m.overloads

/-- A method has a name, so what its overloads refer to is not lost. -/
theorem accounts_expand {ν : Type} [Refers ν] {make : String → Overload → Checked ν}
    (hm : ∀ name o, Accounts (references o) (make name o)) (overloads : List Overload) :
    Accounts (references overloads) (m.expand make overloads) :=
  .congr (.gatherOf (fun name => .eachOf (hm name) overloads) m.names) fun _ => by
    rw [List.mem_flatMap]
    exact ⟨fun ⟨_, _, hmem⟩ => hmem, fun hmem => ⟨m.name, List.mem_cons_self, hmem⟩⟩

/-- What is made of a method refers to what its overloads refer to. -/
theorem accounts_expand_overloadsOf {ν : Type} [Refers ν] (ht : rules.Every Rule.Accounted)
    {make : String → Overload → Checked ν}
    (hm : ∀ name o, Accounts (references o) (make name o)) :
    Accounts [] (m.overloadsOf rules owner >>= m.expand make) :=
  .andThen (m.accounts_overloadsOf owner ht) fun overloads => m.accounts_expand hm overloads

theorem accounts_emission (ht : rules.Every Rule.Accounted) :
    Accounts [] (m.emission rules owner).emit := by
  refine Emission.accounts_emit (m.accounts_expand_overloadsOf owner ht fun name o => ?_)
    (.value rfl) (.value rfl)
  exact .congr (accounts_method name o.params o.result) fun _ => by simp [references, or_comm]

end MethodDoc

theorem FieldDoc.accounts_emission (f : FieldDoc) (owner : String)
    (ht : rules.Every Rule.Accounted) : Accounts [] (f.emission rules owner).emit :=
  Emission.accounts_emit
    (.andThen (RuleTable.accounts_resolve ht _) fun _ =>
      .map (accounts_property _ _) references_singleton)
    (.value rfl) (.value rfl)

/-! ### Interfaces -/

namespace ClassDoc

variable (c : ClassDoc) (parent? : Option String)

theorem accounts_members (ht : rules.Every Rule.Accounted) : Accounts [] (c.members rules) :=
  .andThen (.gather (fun m => m.accounts_emission c.name ht) c.methods) fun _ =>
    .andThen (.gather (fun f => f.accounts_emission c.name ht) c.fields) fun _ =>
      .value (references_append _ _)

theorem accounts_interfaceNamed (ht : rules.Every Rule.Accounted) (name : String)
    (modifiers : List Modifier) :
    Accounts [] (c.interfaceNamed rules parent? name modifiers) :=
  .andThen (.each (fun _ => accounts_heritage _ _) parent?.toList) fun parents =>
    .andThen (c.accounts_members ht) fun members =>
      .congr (accounts_interface _ _ _ _ _) fun _ => by simp

theorem accounts_modelPartInterface : Accounts [] modelPartInterface := by
  refine .andThen (accounts_param _ _) fun key => ?_
  refine .collect (accounts_index _ _) (fun _ => by simp) fun member => ?_
  refine .andThen (accounts_heritage _ _) fun parent => ?_
  exact .congr (accounts_interface _ _ _ _ _) fun _ => by simp [or_comm]

theorem accounts_emission (ht : rules.Every Rule.Accounted) :
    Accounts [] (c.emission rules parent?).emit := by
  unfold emission
  split
  · exact Emission.accounts_emit (.map accounts_modelPartInterface references_singleton)
      (.map (c.accounts_interfaceNamed parent? ht _ _) references_singleton) (.value rfl)
  · exact Emission.accounts_emit
      (.map (c.accounts_interfaceNamed parent? ht _ _) references_singleton) (.value rfl)
      (.value rfl)

end ClassDoc

/-- A report on a link is not about types. -/
theorem Flattened.accounts_reportLink (f : Flattened) : Accounts [] f.reportLink := by
  unfold reportLink
  split
  · next kind name hl =>
    exact .within _ (.reportIf true name (f.kind_ne_unknownType_of_brokenLink? hl))
  · exact .value rfl

theorem Hierarchy.accounts_emit (h : Hierarchy) (ht : rules.Every Rule.Accounted) :
    Accounts [] (h.emit rules) :=
  .gather (fun c => .andThen (h.flatten c).accounts_reportLink fun _ =>
    (h.flatten c).own.accounts_emission (h.flatten c).parent? ht) h.classes

/-! ### Blocks -/

theorem MethodDoc.accounts_functionEmission (m : MethodDoc) (owner : String)
    (ht : rules.Every Rule.Accounted) (hs : rules.EverySignature SignatureRule.Accounted) :
    Accounts [] (m.functionEmission rules owner).emit := by
  refine Emission.accounts_emit ?_ (.value rfl) (.value rfl)
  unfold functionEmission
  cases hr : rules.signature? m.name with
  | some rule => exact hs m.name rule hr m.name
  | none =>
    refine m.accounts_expand_overloadsOf owner ht fun name o => ?_
    exact .congr (accounts_function name o.params o.result [] []) fun _ => by
      simp [references, or_comm]

theorem FieldDoc.accounts_constantEmission (f : FieldDoc) (owner : String)
    (ht : rules.Every Rule.Accounted) : Accounts [] (f.constantEmission rules owner).emit :=
  Emission.accounts_emit
    (.andThen (RuleTable.accounts_resolve ht _) fun _ =>
      .map (accounts_constant _ _ _) references_singleton)
    (.value rfl) (.value rfl)

theorem ClassDoc.accounts_blockEmission (c : ClassDoc) (ht : rules.Every Rule.Accounted)
    (hs : rules.EverySignature SignatureRule.Accounted) :
    Accounts [] (c.blockEmission rules).emit := by
  have hbody : Accounts [] (c.blockBody rules) :=
    .andThen (.gather (fun f => f.accounts_constantEmission c.name ht) c.fields) fun _ =>
      .andThen (.gather (fun m => m.accounts_functionEmission c.name ht hs) c.methods) fun _ =>
        .value (references_append _ _)
  exact Emission.accounts_emit
    (.andThen hbody fun body => .map (accounts_block _ body _ _) references_singleton)
    (.value rfl) (.value rfl)

/-- **A declaration file accounts for its references.** -/
theorem Docs.accounts_emit (d : Docs) (ht : rules.Every Rule.Accounted)
    (hs : rules.EverySignature SignatureRule.Accounted) : Accounts [] (d.emit rules) :=
  .andThen (Hierarchy.accounts_emit ⟨d.classes⟩ ht) fun _ =>
    .andThen (.gather (fun c => c.accounts_blockEmission ht hs) d.namespaces) fun _ =>
      .value (references_append _ _)

end ApiTypings
