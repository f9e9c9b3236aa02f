import ApiTypings.Proofs.Emission.Made
import ApiTypings.Proofs.Rules.Reserved

/-!
# Declarations check names

Members and declarations are put together from what names, types and rules make, and hand on the
names that these declare: an overload to the members under each of the names of the method, members
to their interface, declarations to their block. So the names of a declaration file are checked
(**`Docs.declares_emit`**) if the rules check theirs.
-/

namespace ApiTypings

open Checked

namespace Emission

variable {ν : Type} [Commented ν] {names : ν → List DeclaredName} {e : Emission ν}

theorem declares_emit (hcomment : ∀ a comment, names (Commented.withComment a comment) = names a)
    (hprimary : Declares (List.flatMap names) [] e.primary)
    (hpreceding : Declares (List.flatMap names) [] e.preceding)
    (hfollowing : Declares (List.flatMap names) [] e.following) :
    Declares (List.flatMap names) [] e.emit := by
  have hall (as bs cs : List ν) :
      (bs ++ as.map (Commented.withComment · e.comment?) ++ cs).flatMap names =
        bs.flatMap names ++ as.flatMap names ++ cs.flatMap names := by
    simp only [List.flatMap_append, List.flatMap_map, hcomment]
  refine .within _ (.andThen hprimary fun as => .andThen hpreceding fun bs =>
    .andThen hfollowing fun cs => .congr (.value (hall as bs cs)) fun d => ?_)
  simp only [List.nil_append, List.mem_append, or_comm]

end Emission

/-! ### Members -/

/-- The names that an overload brings. -/
def Overload.declared (o : Overload) : List DeclaredName :=
  o.params.flatMap Binding.declared ++ o.result.declared

variable {rules : RuleTable}

namespace MethodDoc

variable (m : MethodDoc) (owner : String)

theorem declares_paramAt (ht : rules.Every Rule.Declaring) (place : Nat) (p : ParameterDoc) :
    Declares Binding.declared [] (m.paramAt rules owner place p) :=
  .andThen (RuleTable.declares_resolve ht _) fun _ => declares_param _ _

theorem declares_overloadAt (ht : rules.Every Rule.Declaring) (place : Nat)
    (overload : List ParameterDoc × String) :
    Declares Overload.declared [] (m.overloadAt rules owner place overload) :=
  .andThen (.eachAt (m.declares_paramAt owner ht) 0 overload.1) fun _ =>
    .andThen (RuleTable.declares_resolve ht _) fun _ => .value rfl

theorem declares_overloadsOf (ht : rules.Every Rule.Declaring) :
    Declares (List.flatMap Overload.declared) [] (m.overloadsOf rules owner) :=
  .after (.reportIf _ _ (List.mem_singleton_self _) (by decide)) (by decide)
    (.eachAt (m.declares_overloadAt owner ht) 0 m.overloads)

/-- A method has a name, so what its overloads declare is not lost. -/
theorem declares_expand {ν : Type} {names : ν → List DeclaredName}
    {make : String → Overload → Checked ν}
    (hm : ∀ name o, Declares names o.declared (make name o)) (overloads : List Overload) :
    Declares (List.flatMap names) (overloads.flatMap Overload.declared)
      (m.expand make overloads) :=
  .congr (.gatherOf (fun name => .eachOf (hm name) overloads) m.names) fun _ => by
    rw [List.mem_flatMap]
    exact ⟨fun ⟨_, _, hmem⟩ => hmem, fun hmem => ⟨m.name, List.mem_cons_self, hmem⟩⟩

/-- What is made of a method declares what its overloads declare, besides its own names. -/
theorem declares_expand_overloadsOf {ν : Type} {names : ν → List DeclaredName}
    (ht : rules.Every Rule.Declaring) {make : String → Overload → Checked ν}
    (hm : ∀ name o, Declares names o.declared (make name o)) :
    Declares (List.flatMap names) [] (m.overloadsOf rules owner >>= m.expand make) :=
  .andThen (m.declares_overloadsOf owner ht) fun overloads => m.declares_expand hm overloads

theorem declares_emission (ht : rules.Every Rule.Declaring) :
    Declares (List.flatMap Member.declared) [] (m.emission rules owner).emit := by
  refine Emission.declares_emit Member.declared_withComment
    (m.declares_expand_overloadsOf owner ht fun name o => ?_) (.value rfl) (.value rfl)
  exact .congr (declares_method name o.params o.result) fun _ => by
    simp [Overload.declared, or_comm]

end MethodDoc

theorem FieldDoc.declares_emission (f : FieldDoc) (owner : String)
    (ht : rules.Every Rule.Declaring) :
    Declares (List.flatMap Member.declared) [] (f.emission rules owner).emit :=
  Emission.declares_emit Member.declared_withComment
    (.andThen (RuleTable.declares_resolve ht _) fun _ =>
      .map (declares_property _ _) (List.flatMap_singleton _))
    (.value rfl) (.value rfl)

/-! ### Interfaces -/

namespace ClassDoc

variable (c : ClassDoc) (parent? : Option String)

theorem declares_members (ht : rules.Every Rule.Declaring) :
    Declares (List.flatMap Member.declared) [] (c.members rules) :=
  .andThen (.gather (fun m => m.declares_emission c.name ht) c.methods) fun _ =>
    .andThen (.gather (fun f => f.declares_emission c.name ht) c.fields) fun _ =>
      .value List.flatMap_append

theorem declares_interfaceNamed (ht : rules.Every Rule.Declaring) (name : String)
    (modifiers : List Modifier) :
    Declares Statement.declared [] (c.interfaceNamed rules parent? name modifiers) :=
  .andThen (.each (fun _ => declares_heritage _ _) parent?.toList) fun parents =>
    .andThen (c.declares_members ht) fun members =>
      .congr (declares_interface _ _ _ _ _) fun _ => by simp

theorem declares_modelPartInterface : Declares Statement.declared [] modelPartInterface := by
  refine .andThen (declares_param _ _) fun key => ?_
  refine .collect (declares_index _ _) (fun _ => by simp) fun member => ?_
  refine .andThen (declares_heritage _ _) fun parent => ?_
  exact .congr (declares_interface _ _ _ _ _) fun _ => by simp [or_comm]

theorem declares_emission (ht : rules.Every Rule.Declaring) :
    Declares (List.flatMap Statement.declared) [] (c.emission rules parent?).emit := by
  have hinterface (name : String) (modifiers : List Modifier) :
      Declares (List.flatMap Statement.declared) []
        (do return [← c.interfaceNamed rules parent? name modifiers]) :=
    .map (c.declares_interfaceNamed parent? ht name modifiers) (List.flatMap_singleton _)
  unfold emission
  split
  · exact Emission.declares_emit Statement.declared_withComment
      (.map declares_modelPartInterface (List.flatMap_singleton _)) (hinterface _ _) (.value rfl)
  · exact Emission.declares_emit Statement.declared_withComment (hinterface _ _) (.value rfl)
      (.value rfl)

end ClassDoc

theorem Hierarchy.declares_emit (h : Hierarchy) (ht : rules.Every Rule.Declaring) :
    Declares (List.flatMap Statement.declared) [] (h.emit rules) :=
  .gather (fun c => .after (h.flatten c).made_reportLink (by decide)
    ((h.flatten c).own.declares_emission (h.flatten c).parent? ht)) h.classes

/-! ### Blocks -/

theorem MethodDoc.declares_functionEmission (m : MethodDoc) (owner : String)
    (ht : rules.Every Rule.Declaring) (hs : rules.EverySignature SignatureRule.Declaring) :
    Declares (List.flatMap Statement.declared) [] (m.functionEmission rules owner).emit := by
  refine Emission.declares_emit Statement.declared_withComment ?_ (.value rfl) (.value rfl)
  unfold functionEmission
  cases hr : rules.signature? m.name with
  | some rule => exact hs m.name rule hr m.name
  | none =>
    refine m.declares_expand_overloadsOf owner ht fun name o => ?_
    exact .congr (declares_function name o.params o.result [] []) fun _ => by
      simp [Overload.declared, or_comm]

theorem FieldDoc.declares_constantEmission (f : FieldDoc) (owner : String)
    (ht : rules.Every Rule.Declaring) :
    Declares (List.flatMap Statement.declared) [] (f.constantEmission rules owner).emit :=
  Emission.declares_emit Statement.declared_withComment
    (.andThen (RuleTable.declares_resolve ht _) fun _ =>
      .map (declares_constant _ _ _) (List.flatMap_singleton _))
    (.value rfl) (.value rfl)

theorem ClassDoc.declares_blockEmission (c : ClassDoc) (ht : rules.Every Rule.Declaring)
    (hs : rules.EverySignature SignatureRule.Declaring) :
    Declares (List.flatMap Statement.declared) [] (c.blockEmission rules).emit := by
  have hbody : Declares (List.flatMap Statement.declared) [] (c.blockBody rules) :=
    .andThen (.gather (fun f => f.declares_constantEmission c.name ht) c.fields) fun _ =>
      .andThen (.gather (fun m => m.declares_functionEmission c.name ht hs) c.methods) fun _ =>
        .value List.flatMap_append
  exact Emission.declares_emit Statement.declared_withComment
    (.andThen hbody fun body => .map (declares_block _ body _ _) (List.flatMap_singleton _))
    (.value rfl) (.value rfl)

/-- **The names of a declaration file are checked.** -/
theorem Docs.declares_emit (d : Docs) (ht : rules.Every Rule.Declaring)
    (hs : rules.EverySignature SignatureRule.Declaring) :
    Declares (List.flatMap Statement.declared) [] (d.emit rules) :=
  .andThen (Hierarchy.declares_emit ⟨d.classes⟩ ht) fun _ =>
    .andThen (.gather (fun c => c.declares_blockEmission ht hs) d.namespaces) fun _ =>
      .value List.flatMap_append

end ApiTypings
