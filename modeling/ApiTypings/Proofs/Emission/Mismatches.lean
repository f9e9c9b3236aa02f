import ApiTypings.Proofs.Emission.Extends
import ApiTypings.Proofs.Emission.Made

/-!
# Errors of a declaration file

One thing is an error: a method that has not as many results as lists of parameters. The method
reports it when its overloads are paired, once, however many names it has and whether its owner
becomes one interface or two. A function that a rule declares as a whole is not looked at in this
way.

**`errors_emit`** — the errors of a declaration file are those of the methods that the classes do
not inherit, class by class, and then those of the methods of the two namespaces, each at the
dotted path of owner and method (`mismatches`).
-/

namespace ApiTypings

/-- The diagnostics that are errors. -/
def Diagnostics.errors (ds : Diagnostics) : Diagnostics := ds.filter (·.isError)

namespace Diagnostics

@[simp] theorem errors_nil : errors [] = [] := rfl

@[simp] theorem errors_append (ds es : Diagnostics) :
    (ds ++ es).errors = ds.errors ++ es.errors := List.filter_append ds es

theorem errors_flatMap {ι : Type} (f : ι → Diagnostics) (is : List ι) :
    errors (is.flatMap f) = is.flatMap fun i => (f i).errors := List.filter_flatMap

theorem errorCount_eq_length_errors (ds : Diagnostics) : ds.errorCount = ds.errors.length :=
  List.countP_eq_length_filter

theorem hasErrors_eq_false_iff {ds : Diagnostics} : ds.hasErrors = false ↔ ds.errors = [] := by
  rw [hasErrors, errors, List.any_eq_false, List.filter_eq_nil_iff]

end Diagnostics

/-- A computation without reports of mismatches has no errors. -/
theorem Checked.Made.errors_eq_nil {kinds : List DiagnosticKind} {α : Type} {x : Checked α}
    (h : Made kinds x) (hk : .overloadMismatch ∉ kinds) (k : Context) :
    (x.diagnostics k).errors = [] := by
  rw [Diagnostics.errors, List.filter_eq_nil_iff]
  intro d hd he
  have hkind := h.kind_mem hd
  obtain ⟨kind, _, _, _⟩ := d
  cases kind with
  | overloadMismatch => exact hk hkind
  | unresolvedParent => cases he
  | parentCycle => cases he
  | unknownType => cases he
  | reservedIdentifier => cases he

/-- What is made of names and types has no errors. -/
theorem Checked.Made.errors_of_types {α : Type} {x : Checked α} (h : Made typeKinds x)
    (k : Context) : (x.diagnostics k).errors = [] :=
  h.errors_eq_nil (by decide) k

/-! ### Mismatches -/

/-- A method has not as many results as lists of parameters. -/
def MethodDoc.Mismatched (m : MethodDoc) : Prop := m.parameters.length ≠ m.returns.length

instance (m : MethodDoc) : Decidable m.Mismatched := inferInstanceAs (Decidable (_ ≠ _))

/-- The error of a method at a place. -/
def MethodDoc.mismatchAt (m : MethodDoc) (location : String) : Diagnostic :=
  (Diagnostic.plain .overloadMismatch location).withDetail m.mismatch

/-- The errors of methods that stand in a context. -/
def mismatches (k : Context) (ms : List MethodDoc) : Diagnostics :=
  (ms.filter (·.Mismatched)).map fun m => m.mismatchAt (k.enter m.name).location

theorem mismatches_cons (k : Context) (m : MethodDoc) (ms : List MethodDoc) :
    mismatches k (m :: ms) = mismatches k [m] ++ mismatches k ms := by
  rw [← List.singleton_append, mismatches, List.filter_append, List.map_append]
  rfl

theorem flatMap_mismatches (k : Context) (p : MethodDoc → Bool) (ms : List MethodDoc) :
    (ms.flatMap fun m => if p m then mismatches k [m] else []) = mismatches k (ms.filter p) := by
  induction ms with
  | nil => rfl
  | cons m ms ih =>
    rw [List.flatMap_cons, ih, List.filter_cons]
    split
    · rw [← mismatches_cons]
    · rfl

/-! ### Methods -/

open Checked

variable {rules : RuleTable} {k : Context}

namespace Emission

variable {ν : Type} [Commented ν]

theorem errors_emit (e : Emission ν) (k : Context) :
    (e.emit.diagnostics k).errors =
      (e.primary.diagnostics (k.enter e.name)).errors ++
        (e.preceding.diagnostics (k.enter e.name)).errors ++
        (e.following.diagnostics (k.enter e.name)).errors := by
  rw [diagnostics_emit, Diagnostics.errors_append, Diagnostics.errors_append]

end Emission

namespace MethodDoc

variable (m : MethodDoc) (owner : String)

/-- The overloads of a method are paired once, and that is where the error is. -/
theorem errors_overloadsOf (ht : rules.Every Rule.Proper) :
    ((m.overloadsOf rules owner).diagnostics (k.enter m.name)).errors = mismatches k [m] := by
  have hmade := Made.eachAt (m.made_overloadAt owner ht) 0 m.overloads
  rw [overloadsOf, diagnostics_bind, Diagnostics.errors_append, hmade.errors_of_types,
    List.append_nil, diagnostics_reportIf, isPaired]
  by_cases hm : m.parameters.length = m.returns.length
  · simp [mismatches, Mismatched, hm]
  · simp [mismatches, Mismatched, mismatchAt, hm]
    rfl

theorem errors_expand_overloadsOf {ν : Type} {make : String → Overload → Checked ν}
    (ht : rules.Every Rule.Proper) (hm : ∀ name o, Made typeKinds (make name o)) :
    ((m.overloadsOf rules owner >>= m.expand make).diagnostics (k.enter m.name)).errors =
      mismatches k [m] := by
  rw [diagnostics_bind, Diagnostics.errors_append, errors_overloadsOf m owner ht,
    (m.made_expand hm _).errors_of_types, List.append_nil]

theorem errors_emission (ht : rules.Every Rule.Proper) :
    ((m.emission rules owner).emit.diagnostics k).errors = mismatches k [m] := by
  rw [Emission.errors_emit]
  have hprimary := m.errors_expand_overloadsOf (k := k) owner ht fun name o =>
    made_method name o.params o.result
  simpa [emission] using hprimary

/-- A function that a rule declares as a whole has no error. -/
theorem errors_functionEmission (ht : rules.Every Rule.Proper)
    (hs : rules.EverySignature SignatureRule.Proper) :
    ((m.functionEmission rules owner).emit.diagnostics k).errors =
      if (rules.signature? m.name).isNone then mismatches k [m] else [] := by
  rw [Emission.errors_emit]
  cases hr : rules.signature? m.name with
  | some rule =>
    have hrule := (hs m.name rule hr m.name).errors_of_types (k.enter m.name)
    simpa [functionEmission, hr] using hrule
  | none =>
    have hprimary := m.errors_expand_overloadsOf (k := k) owner ht fun name o =>
      made_function name o.params o.result [] []
    simpa [functionEmission, hr] using hprimary

end MethodDoc

/-! ### Interfaces -/

namespace ClassDoc

variable (c : ClassDoc) (parent? : Option String)

theorem errors_members (ht : rules.Every Rule.Proper) :
    ((c.members rules).diagnostics k).errors = mismatches k c.methods := by
  have hfields := Made.gather (fun f : FieldDoc => f.made_emission c.name ht) c.fields
  rw [members, diagnostics_bind, diagnostics_bind, Diagnostics.errors_append,
    Diagnostics.errors_append, hfields.errors_of_types, diagnostics_gather,
    Diagnostics.errors_flatMap, diagnostics_pure, Diagnostics.errors_nil, List.append_nil,
    List.append_nil]
  simpa [MethodDoc.errors_emission _ _ ht] using flatMap_mismatches k (fun _ => true) c.methods

theorem errors_interfaceNamed (ht : rules.Every Rule.Proper) (name : String)
    (modifiers : List Modifier) :
    ((c.interfaceNamed rules parent? name modifiers).diagnostics k).errors =
      mismatches k c.methods := by
  have hparents : Made typeKinds (each heritage parent?.toList) :=
    .each (fun _ => made_heritage _ _) _
  rw [interfaceNamed, diagnostics_bind, diagnostics_bind, Diagnostics.errors_append,
    Diagnostics.errors_append, hparents.errors_of_types, c.errors_members ht,
    (made_interface _ _ _ _ _).errors_of_types, List.append_nil, List.nil_append]

/-- The members of a class are made for one of its interfaces only. -/
theorem errors_emission (ht : rules.Every Rule.Proper) :
    ((c.emission rules parent?).emit.diagnostics k).errors =
      mismatches (k.enter c.name) c.methods := by
  have hmodel := made_modelPartInterface.errors_of_types (k.enter c.name)
  unfold emission
  split <;> rw [Emission.errors_emit] <;>
    simp only [diagnostics_bind, diagnostics_pure, hmodel, c.errors_interfaceNamed parent? ht,
      Diagnostics.errors_nil, List.append_nil, List.nil_append]

end ClassDoc

/-- A report on a link is a warning. -/
theorem Flattened.errors_reportLink (f : Flattened) : (f.reportLink.diagnostics k).errors = [] :=
  f.made_reportLink.errors_eq_nil (by decide) k

theorem Hierarchy.errors_emit (h : Hierarchy) (ht : rules.Every Rule.Proper) :
    ((h.emit rules).diagnostics k).errors =
      h.classes.flatMap fun c => mismatches (k.enter c.name) (h.flatten c).own.methods := by
  simp only [emit, Flattened.emit, diagnostics_gather, diagnostics_bind,
    Diagnostics.errors_flatMap, Diagnostics.errors_append, Flattened.errors_reportLink,
    ClassDoc.errors_emission _ _ ht, List.nil_append]
  rfl

/-! ### Blocks -/

theorem ClassDoc.errors_blockBody (c : ClassDoc) (ht : rules.Every Rule.Proper)
    (hs : rules.EverySignature SignatureRule.Proper) :
    ((c.blockBody rules).diagnostics k).errors =
      mismatches k (c.methods.filter fun m => (rules.signature? m.name).isNone) := by
  have hfields := Made.gather (fun f : FieldDoc => f.made_constantEmission c.name ht) c.fields
  rw [blockBody, diagnostics_bind, diagnostics_bind, Diagnostics.errors_append,
    Diagnostics.errors_append, hfields.errors_of_types, diagnostics_gather,
    Diagnostics.errors_flatMap, diagnostics_pure, Diagnostics.errors_nil, List.append_nil,
    List.nil_append]
  simp only [MethodDoc.errors_functionEmission _ _ ht hs, flatMap_mismatches]

theorem ClassDoc.errors_blockEmission (c : ClassDoc) (ht : rules.Every Rule.Proper)
    (hs : rules.EverySignature SignatureRule.Proper) :
    ((c.blockEmission rules).emit.diagnostics k).errors =
      mismatches (k.enter c.blockName)
        (c.methods.filter fun m => (rules.signature? m.name).isNone) := by
  rw [Emission.errors_emit]
  simp only [blockEmission, diagnostics_bind, diagnostics_pure, Diagnostics.errors_append,
    c.errors_blockBody ht hs, (made_block _ _ _ _).errors_of_types, Diagnostics.errors_nil,
    List.append_nil]

/-- **The errors of a declaration file are those of its methods**, each where the method stands. -/
theorem Docs.errors_emit (d : Docs) (ht : rules.Every Rule.Proper)
    (hs : rules.EverySignature SignatureRule.Proper) :
    ((d.emit rules).diagnostics k).errors =
      (d.classes.flatMap fun c => mismatches (k.enter c.name) (d.hierarchy.flatten c).own.methods) ++
        d.namespaces.flatMap fun c => mismatches (k.enter c.blockName)
          (c.methods.filter fun m => (rules.signature? m.name).isNone) := by
  simp only [emit, diagnostics_bind, diagnostics_gather, diagnostics_pure,
    Diagnostics.errors_append, Diagnostics.errors_flatMap, Hierarchy.errors_emit _ ht,
    ClassDoc.errors_blockEmission _ ht hs, List.append_nil]

end ApiTypings
