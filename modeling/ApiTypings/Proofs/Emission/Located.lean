import ApiTypings.Proofs.Emission.Locality
import ApiTypings.Proofs.Rules.Located

/-!
# Members report under their names

What a part of the documentation becomes is made within the scope of its name, and the rules report
where they are asked. So a member reports under its own name, whatever other names it has
(`MethodDoc.reportsAt_emission` and the like), and a class or a namespace under its own name or
under that of one of its members: the paths `ClassDoc.paths`. Of a hierarchy, **each class reports
under its own name** (`Hierarchy.reportsAt_emit`), and its broken link is reported there as well.
-/

namespace ApiTypings

open Checked

variable {rules : RuleTable} {k : Context} {places : Set String}

namespace Emission

variable {ν : Type} [Commented ν]

theorem reportsAt_emit {e : Emission ν} :
    ReportsAt places k e.emit ↔
      ReportsAt places (k.enter e.name) e.primary ∧
        ReportsAt places (k.enter e.name) e.preceding ∧
        ReportsAt places (k.enter e.name) e.following := by
  simp [emit]

end Emission

/-! ### Members -/

namespace MethodDoc

variable (m : MethodDoc) (owner : String)

/-- The overloads of a method are reported on where they are made. -/
theorem reportsAt_overloadsOf (ht : rules.Every Rule.Local) (hk : k.location ∈ places) :
    ReportsAt places k (m.overloadsOf rules owner) := by
  have hparam (i : Nat) (p : ParameterDoc) : ReportsAt places k (m.paramAt rules owner i p) :=
    reportsAt_bind.2 ⟨RuleTable.reportsAt_resolve ht hk _, reportsAt_param hk _ _⟩
  have hoverload (i : Nat) (o : List ParameterDoc × String) :
      ReportsAt places k (m.overloadAt rules owner i o) := by
    refine reportsAt_bind.2 ⟨reportsAt_eachAt hparam 0 o.1, reportsAt_bind.2 ⟨?_, ?_⟩⟩
    · exact RuleTable.reportsAt_resolve ht hk _
    · exact reportsAt_pure _
  exact reportsAt_bind.2 ⟨reportsAt_reportIf _ _ _ hk, reportsAt_eachAt hoverload 0 m.overloads⟩

/-- What is made of the overloads is reported on there as well, under whatever name it is made. -/
theorem reportsAt_expand {ν : Type} {make : String → Overload → Checked ν}
    (ht : rules.Every Rule.Local) (hk : k.location ∈ places)
    (hm : ∀ name o, ReportsAt places k (make name o)) :
    ReportsAt places k (m.overloadsOf rules owner >>= m.expand make) :=
  reportsAt_bind.2 ⟨m.reportsAt_overloadsOf owner ht hk,
    reportsAt_gather.2 fun name _ => reportsAt_each.2 fun o _ => hm name o⟩

theorem reportsAt_emission (ht : rules.Every Rule.Local)
    (hk : (k.enter m.name).location ∈ places) :
    ReportsAt places k (m.emission rules owner).emit :=
  Emission.reportsAt_emit.2 ⟨m.reportsAt_expand owner ht hk fun _ _ => reportsAt_method hk _ _ _,
    reportsAt_pure _, reportsAt_pure _⟩

theorem reportsAt_functionEmission (ht : rules.Every Rule.Local)
    (hs : rules.EverySignature SignatureRule.Local) (hk : (k.enter m.name).location ∈ places) :
    ReportsAt places k (m.functionEmission rules owner).emit := by
  refine Emission.reportsAt_emit.2 ⟨?_, reportsAt_pure _, reportsAt_pure _⟩
  cases hr : rules.signature? m.name with
  | some rule =>
    have hrule : ReportsAt {(k.enter m.name).location} (k.enter m.name) (rule m.name) :=
      hs m.name rule hr m.name (k.enter m.name)
    simpa only [functionEmission, hr] using hrule.mono (Set.singleton_subset_iff.2 hk)
  | none =>
    simp only [functionEmission, hr]
    exact m.reportsAt_expand owner ht hk fun _ _ => reportsAt_function hk _ _ _ _ _

end MethodDoc

namespace FieldDoc

variable (f : FieldDoc) (owner : String)

theorem reportsAt_emission (ht : rules.Every Rule.Local)
    (hk : (k.enter f.name).location ∈ places) :
    ReportsAt places k (f.emission rules owner).emit := by
  have hresolve := RuleTable.reportsAt_resolve ht hk (.field owner f)
  exact Emission.reportsAt_emit.2 ⟨by simp [emission, hresolve, hk], reportsAt_pure _,
    reportsAt_pure _⟩

theorem reportsAt_constantEmission (ht : rules.Every Rule.Local)
    (hk : (k.enter f.name).location ∈ places) :
    ReportsAt places k (f.constantEmission rules owner).emit := by
  have hresolve := RuleTable.reportsAt_resolve ht hk (.constant owner f)
  exact Emission.reportsAt_emit.2 ⟨by simp [constantEmission, hresolve, hk], reportsAt_pure _,
    reportsAt_pure _⟩

end FieldDoc

/-! ### Classes and namespaces -/

namespace ClassDoc

variable (c : ClassDoc)

/-- The paths at which a class or a namespace reports, if it is declared under a name: the name
alone, and with the name of one of the members behind it. -/
def paths (name : String) : Set (List String) :=
  {path | path = [name] ∨ ∃ member ∈ c.memberNames, path = [name, member]}

variable {c}

theorem location_mem_paths (name : String) : (k.enter name).location ∈ k.below (c.paths name) :=
  Context.location_enter_mem_below (.inl rfl)

theorem method_mem_paths (name : String) {m : MethodDoc} (hm : m ∈ c.methods) :
    ((k.enter name).enter m.name).location ∈ k.below (c.paths name) :=
  Context.location_enter_enter_mem_below
    (.inr ⟨m.name, List.mem_append_left _ (List.mem_map_of_mem hm), rfl⟩)

theorem field_mem_paths (name : String) {f : FieldDoc} (hf : f ∈ c.fields) :
    ((k.enter name).enter f.name).location ∈ k.below (c.paths name) :=
  Context.location_enter_enter_mem_below
    (.inr ⟨f.name, List.mem_append_right _ (List.mem_map_of_mem hf), rfl⟩)

/-- A class with fewer members reports at fewer paths. -/
theorem paths_subset {d : ClassDoc} (h : d.memberNames ⊆ c.memberNames) (name : String) :
    d.paths name ⊆ c.paths name := by
  rintro path (rfl | ⟨member, hm, rfl⟩)
  · exact .inl rfl
  · exact .inr ⟨member, h hm, rfl⟩

variable (c)

theorem reportsAt_members (ht : rules.Every Rule.Local) (name : String) :
    ReportsAt (k.below (c.paths name)) (k.enter name) (c.members rules) := by
  refine reportsAt_bind.2 ⟨reportsAt_gather.2 ?methods,
    reportsAt_bind.2 ⟨reportsAt_gather.2 ?fields, reportsAt_pure _⟩⟩
  case methods =>
    intro m hm
    exact m.reportsAt_emission c.name ht (method_mem_paths name hm)
  case fields =>
    intro f hf
    exact f.reportsAt_emission c.name ht (field_mem_paths name hf)

theorem reportsAt_interfaceNamed (ht : rules.Every Rule.Local) (parent? : Option String)
    (name other : String) (modifiers : List Modifier) :
    ReportsAt (k.below (c.paths name)) (k.enter name)
      (c.interfaceNamed rules parent? other modifiers) := by
  have hk : (k.enter name).location ∈ k.below (c.paths name) := location_mem_paths name
  refine reportsAt_bind.2 ⟨?_, reportsAt_bind.2 ⟨c.reportsAt_members ht name, ?_⟩⟩
  · exact reportsAt_each.2 fun parent _ => reportsAt_heritage hk parent []
  · exact reportsAt_interface hk _ _ _ _ _

theorem reportsAt_modelPartInterface (hk : k.location ∈ places) :
    ReportsAt places k modelPartInterface := by
  simp [modelPartInterface, hk]

theorem reportsAt_emission (ht : rules.Every Rule.Local) (parent? : Option String) :
    ReportsAt (k.below (c.paths c.name)) k (c.emission rules parent?).emit := by
  have hk : (k.enter c.name).location ∈ k.below (c.paths c.name) := location_mem_paths c.name
  have hone (other : String) (modifiers : List Modifier) :
      ReportsAt (k.below (c.paths c.name)) (k.enter c.name)
        (do return [← c.interfaceNamed rules parent? other modifiers]) :=
    reportsAt_bind.2 ⟨c.reportsAt_interfaceNamed ht parent? c.name other modifiers,
      reportsAt_pure _⟩
  unfold emission
  split
  · refine Emission.reportsAt_emit.2 ⟨?_, hone _ _, reportsAt_pure _⟩
    exact reportsAt_bind.2 ⟨reportsAt_modelPartInterface hk, reportsAt_pure _⟩
  · exact Emission.reportsAt_emit.2 ⟨hone _ _, reportsAt_pure _, reportsAt_pure _⟩

theorem reportsAt_blockEmission (ht : rules.Every Rule.Local)
    (hs : rules.EverySignature SignatureRule.Local) :
    ReportsAt (k.below (c.paths c.blockName)) k (c.blockEmission rules).emit := by
  have hk : (k.enter c.blockName).location ∈ k.below (c.paths c.blockName) :=
    location_mem_paths c.blockName
  have hbody : ReportsAt (k.below (c.paths c.blockName)) (k.enter c.blockName)
      (c.blockBody rules) := by
    refine reportsAt_bind.2 ⟨reportsAt_gather.2 ?constants,
      reportsAt_bind.2 ⟨reportsAt_gather.2 ?functions, reportsAt_pure _⟩⟩
    case constants =>
      intro f hf
      exact f.reportsAt_constantEmission c.name ht (field_mem_paths c.blockName hf)
    case functions =>
      intro m hm
      exact m.reportsAt_functionEmission c.name ht hs (method_mem_paths c.blockName hm)
  have hblock : ReportsAt (k.below (c.paths c.blockName)) (k.enter c.blockName)
      (do return [← block c.blockName (← c.blockBody rules) [.declared] c.blockKind]) := by
    simp [hbody, hk]
  exact Emission.reportsAt_emit.2 ⟨hblock, reportsAt_pure _, reportsAt_pure _⟩

end ClassDoc

/-! ### Hierarchies -/

/-- A broken link is reported under the name of the class that has it. -/
theorem Flattened.reportsAt_reportLink (f : Flattened)
    (hk : (k.enter f.own.name).location ∈ places) : ReportsAt places k f.reportLink := by
  unfold reportLink
  split
  · exact reportsAt_reportIf true _ _ hk
  · exact reportsAt_pure ()

/-- **Each class of a hierarchy reports under its own name.** -/
theorem Hierarchy.reportsAt_emit (h : Hierarchy) (ht : rules.Every Rule.Local) :
    ReportsAt (k.below {path | ∃ c ∈ h.classes, path ∈ c.paths c.name}) k (h.emit rules) := by
  refine reportsAt_gather.2 ?_
  intro c hc
  have hclass : ReportsAt (k.below (c.paths c.name)) k ((h.flatten c).emit rules) := by
    have hown : (h.flatten c).own.paths c.name ⊆ c.paths c.name :=
      ClassDoc.paths_subset (memberNames_flatten_subset c) c.name
    refine reportsAt_bind.2 ⟨?_, ?_⟩
    · exact (h.flatten c).reportsAt_reportLink (ClassDoc.location_mem_paths c.name)
    · exact ((h.flatten c).own.reportsAt_emission ht (h.flatten c).parent?).mono
        (Context.below_mono hown)
  exact hclass.mono (Context.below_mono fun path hp => ⟨c, hc, hp⟩)

end ApiTypings
