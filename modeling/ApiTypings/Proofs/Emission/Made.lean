import ApiTypings.Compilation
import ApiTypings.Proofs.Rules.Answers

/-!
# How declarations are made

With proper rules, members and interfaces are made of checked names and types (`Made`), and
what may be wrong with a member is reported besides. So an interface is the same in every
context, and neither it nor its members report anything about links between classes
(`memberKinds`). Blocks are made in the same way, and with the reports on links so is a whole
declaration file (`Docs.made_emit`).
-/

namespace ApiTypings

open Checked

namespace Emission

variable {ν : Type} [Commented ν] {kinds : List DiagnosticKind} {e : Emission ν}

theorem made_emit (hprimary : Made kinds e.primary) (hpreceding : Made kinds e.preceding)
    (hfollowing : Made kinds e.following) : Made kinds e.emit :=
  .within _ (.bind hprimary fun _ => .bind hpreceding fun _ => .bind hfollowing fun _ => .pure _)

end Emission

/-- What is made of names and types reports no more than members do. -/
theorem Checked.Made.toMember {α : Type} {x : Checked α} (h : Made typeKinds x) :
    Made memberKinds x :=
  h.mono (List.subset_cons_self _ _)

variable {rules : RuleTable}

namespace MethodDoc

variable (m : MethodDoc) (owner : String)

theorem made_paramAt (ht : rules.Every Rule.Proper) (place : Nat) (p : ParameterDoc) :
    Made typeKinds (m.paramAt rules owner place p) :=
  .bind (RuleTable.made_resolve ht _) fun _ => made_param _ _

theorem made_overloadAt (ht : rules.Every Rule.Proper) (place : Nat)
    (overload : List ParameterDoc × String) :
    Made typeKinds (m.overloadAt rules owner place overload) :=
  .bind (.eachAt (m.made_paramAt owner ht) 0 overload.1) fun _ =>
    .bind (RuleTable.made_resolve ht _) fun _ => .pure _

theorem made_overloadsOf (ht : rules.Every Rule.Proper) :
    Made memberKinds (m.overloadsOf rules owner) :=
  .bind (.reportIf _ _ (by decide) (by decide)) fun _ =>
    (Made.eachAt (m.made_overloadAt owner ht) 0 m.overloads).toMember

theorem made_expand {ν : Type} {kinds : List DiagnosticKind}
    {make : String → Overload → Checked ν} (hm : ∀ name o, Made kinds (make name o))
    (overloads : List Overload) : Made kinds (m.expand make overloads) :=
  .gather (fun name => .each (hm name) overloads) m.names

theorem made_emission (ht : rules.Every Rule.Proper) :
    Made memberKinds (m.emission rules owner).emit :=
  Emission.made_emit
    (.bind (m.made_overloadsOf owner ht) fun overloads =>
      (m.made_expand (fun _ _ => made_method _ _ _) overloads).toMember)
    (.pure []) (.pure [])

end MethodDoc

theorem FieldDoc.made_emission (f : FieldDoc) (owner : String) (ht : rules.Every Rule.Proper) :
    Made typeKinds (f.emission rules owner).emit :=
  Emission.made_emit
    (.bind (RuleTable.made_resolve ht _) fun _ => .bind (made_property _ _) fun _ => .pure _)
    (.pure []) (.pure [])

namespace ClassDoc

variable (c : ClassDoc) (parent? : Option String)

theorem made_members (ht : rules.Every Rule.Proper) : Made memberKinds (c.members rules) :=
  .bind (.gather (fun m => m.made_emission c.name ht) c.methods) fun _ =>
    .bind (Made.gather (fun f => f.made_emission c.name ht) c.fields).toMember fun _ => .pure _

theorem made_interfaceNamed (ht : rules.Every Rule.Proper) (name : String)
    (modifiers : List Modifier) :
    Made memberKinds (c.interfaceNamed rules parent? name modifiers) :=
  .bind (.each (fun _ => (made_heritage _ _).toMember) parent?.toList) fun _ =>
    .bind (c.made_members ht) fun _ => (made_interface _ _ _ _ _).toMember

theorem made_modelPartInterface : Made typeKinds modelPartInterface :=
  .bind (made_param _ _) fun _ => .bind (made_index _ _) fun _ =>
    .bind (made_heritage _ _) fun _ => made_interface _ _ _ _ _

theorem made_emission (ht : rules.Every Rule.Proper) :
    Made memberKinds (c.emission rules parent?).emit := by
  unfold emission
  split
  · exact Emission.made_emit (.bind made_modelPartInterface.toMember fun _ => .pure _)
      (.bind (c.made_interfaceNamed parent? ht _ _) fun _ => .pure _) (.pure [])
  · exact Emission.made_emit (.bind (c.made_interfaceNamed parent? ht _ _) fun _ => .pure _)
      (.pure []) (.pure [])

end ClassDoc

namespace Flattened

variable (f : Flattened)

theorem kind_of_brokenLink? {link : DiagnosticKind × String} (hl : f.brokenLink? = some link) :
    link.1 = .unresolvedParent ∨ link.1 = .parentCycle := by
  unfold brokenLink? at hl
  split at hl
  · split at hl <;> cases hl
    exact .inl rfl
  · split at hl <;> cases hl
    exact .inr rfl
  · cases hl

/-- A broken link is not an unknown type. -/
theorem kind_ne_unknownType_of_brokenLink? {link : DiagnosticKind × String}
    (hl : f.brokenLink? = some link) : link.1 ≠ .unknownType := by
  rcases f.kind_of_brokenLink? hl with hk | hk <;> rw [hk] <;> decide

theorem made_reportLink : Made [.unresolvedParent, .parentCycle] f.reportLink := by
  unfold reportLink
  split
  · next kind name hl =>
    have hmem : kind ∈ [.unresolvedParent, .parentCycle] := by
      simpa using f.kind_of_brokenLink? hl
    exact .within _ (.reportIf true name hmem (f.kind_ne_unknownType_of_brokenLink? hl))
  · exact .pure ()

end Flattened

/-! ### Blocks -/

/-- A rule for whole functions that is made of checked names and types. -/
def SignatureRule.Proper (rule : SignatureRule) : Prop := ∀ name, Made typeKinds (rule name)

theorem proper_interpolation : SignatureRule.Proper interpolation := fun _ =>
  .bind (made_typeOf _) fun _ => .bind (made_documentedType _) fun _ =>
    .bind (made_documentedType _) fun _ => .bind (made_documentedType _) fun _ =>
    .bind (made_documentedType _) fun _ => .bind (made_documentedType _) fun _ =>
    .bind (made_documentedType _) fun _ => .bind (made_union _) fun _ =>
    .bind (made_param _ _) fun _ => .bind (made_param _ _) fun _ => .bind (made_param _ _) fun _ =>
    .bind (made_typeParam _ _ _) fun _ => .bind (made_function _ _ _ _ _) fun _ => .pure _

theorem MethodDoc.made_functionEmission (m : MethodDoc) (owner : String)
    (ht : rules.Every Rule.Proper) (hs : rules.EverySignature SignatureRule.Proper) :
    Made memberKinds (m.functionEmission rules owner).emit := by
  refine Emission.made_emit ?_ (.pure []) (.pure [])
  unfold functionEmission
  cases hr : rules.signature? m.name with
  | some rule => exact (hs m.name rule hr m.name).toMember
  | none =>
    exact .bind (m.made_overloadsOf owner ht) fun overloads =>
      (m.made_expand (fun _ _ => made_function _ _ _ _ _) overloads).toMember

theorem FieldDoc.made_constantEmission (f : FieldDoc) (owner : String)
    (ht : rules.Every Rule.Proper) : Made typeKinds (f.constantEmission rules owner).emit :=
  Emission.made_emit
    (.bind (RuleTable.made_resolve ht _) fun _ => .bind (made_constant _ _ _) fun _ => .pure _)
    (.pure []) (.pure [])

theorem ClassDoc.made_blockEmission (c : ClassDoc) (ht : rules.Every Rule.Proper)
    (hs : rules.EverySignature SignatureRule.Proper) :
    Made memberKinds (c.blockEmission rules).emit := by
  have hbody : Made memberKinds (c.blockBody rules) :=
    .bind (Made.gather (fun f => f.made_constantEmission c.name ht) c.fields).toMember fun _ =>
      .bind (.gather (fun m => m.made_functionEmission c.name ht hs) c.methods) fun _ => .pure _
  exact Emission.made_emit
    (.bind hbody fun _ => .bind (made_block _ _ _ _).toMember fun _ => .pure _)
    (.pure []) (.pure [])

/-! ### Declaration files -/

theorem Hierarchy.made_emit (h : Hierarchy) (ht : rules.Every Rule.Proper) :
    Made DiagnosticKind.all (h.emit rules) := by
  have hall : memberKinds ⊆ DiagnosticKind.all := fun kind _ => DiagnosticKind.mem_all kind
  exact .gather (fun c => .bind ((h.flatten c).made_reportLink.mono fun kind _ =>
    DiagnosticKind.mem_all kind) fun _ =>
    ((h.flatten c).own.made_emission (h.flatten c).parent? ht).mono hall) h.classes

theorem Docs.made_emit (d : Docs) (ht : rules.Every Rule.Proper)
    (hs : rules.EverySignature SignatureRule.Proper) : Made DiagnosticKind.all (d.emit rules) := by
  have hall : memberKinds ⊆ DiagnosticKind.all := fun kind _ => DiagnosticKind.mem_all kind
  exact .bind (Hierarchy.made_emit ⟨d.classes⟩ ht) fun _ =>
    .bind (.gather (fun c => (c.made_blockEmission ht hs).mono hall) d.namespaces) fun _ => .pure _

end ApiTypings
