import ApiTypings.CommandLine.Run
import ApiTypings.Proofs.Compilation.UnknownTypes
import ApiTypings.Proofs.Emission.Mismatches

/-!
# Validity

A compilation is valid if nothing that was reported is an error, and a command for which warnings
count as errors fails for whatever was reported. **`errors_compile`** — the errors are those of the
methods of the documentation whose overloads do not match (`Docs.mismatched`), so a compilation is
valid exactly if there are none.
-/

namespace ApiTypings

/-- The methods that have not as many results as lists of parameters, each with the name of its
owner: those of the classes, without the methods that are inherited, and then those of the two
namespaces, without the functions that a rule declares as a whole. -/
def Docs.mismatched (d : Docs) : List (String × MethodDoc) :=
  (d.classes.flatMap fun c =>
    ((d.hierarchy.flatten c).own.methods.filter (·.Mismatched)).map (c.name, ·)) ++
  d.namespaces.flatMap fun c =>
    (c.methods.filter fun m =>
      m.Mismatched && (RuleTable.builtin.signature? m.name).isNone).map
        (if c.name = "globals" then "global" else c.name, ·)

/-- Within an owner that is within nothing, the location of a method is a dotted path. -/
theorem Context.location_enter_enter {k : Context} (hs : k.scope = []) (owner member : String) :
    ((k.enter owner).enter member).location = owner ++ "." ++ member := by
  rw [location, scope_enter, scope_enter, hs]
  rfl

theorem mismatches_enter {k : Context} (hs : k.scope = []) (owner : String)
    (ms : List MethodDoc) :
    mismatches (k.enter owner) ms =
      (ms.filter (·.Mismatched)).map fun m => m.mismatchAt (owner ++ "." ++ m.name) := by
  simp only [mismatches, Context.location_enter_enter hs]

/-- There is no third severity. -/
theorem Diagnostic.isError_or_isWarning (d : Diagnostic) : (d.isError || d.isWarning) = true := by
  rw [isError, isWarning]
  cases d.severity <;> rfl

theorem Diagnostics.hasErrors_or_hasWarnings_iff (ds : Diagnostics) :
    (ds.hasErrors || ds.hasWarnings) = true ↔ ds ≠ [] := by
  cases ds with
  | nil => decide
  | cons d ds =>
    refine iff_of_true ?_ (List.cons_ne_nil d ds)
    have hd := d.isError_or_isWarning
    rw [Bool.or_eq_true] at hd ⊢
    refine hd.imp (fun he => ?_) fun hw => ?_
    · exact List.any_eq_true.2 ⟨d, List.mem_cons_self, he⟩
    · exact List.any_eq_true.2 ⟨d, List.mem_cons_self, hw⟩

theorem ClassDoc.blockName_eq (c : ClassDoc) :
    c.blockName = if c.name = "globals" then "global" else c.name := by
  by_cases hname : c.name = "globals" <;> simp [blockName, blockKind, globals, hname]

/-- **The errors of a compilation are those of the methods whose overloads do not match**, each at
the path of its owner and its name. So these are as many as the errors, the compilation is valid
exactly if there are none of them, and a command for which warnings count as errors fails exactly
if anything was reported. -/
theorem Docs.errors_compile (d : Docs) (known : List String) (style : Layout.Style) :
    let result := d.compile { known, rules := .builtin, style }
    result.diagnostics.errors =
        (d.mismatched.map fun (owner, m) => m.mismatchAt (owner ++ "." ++ m.name)) ∧
      result.diagnostics.errorCount = d.mismatched.length ∧
      (result.isValid = true ↔ d.mismatched.length = 0) ∧
      ∀ o : CommandLine.Options,
        { o with strict := true }.failsFor result.diagnostics = true ↔ result.diagnostics ≠ [] := by
  intro result
  have herrors : result.diagnostics.errors =
      d.mismatched.map fun (owner, m) => m.mismatchAt (owner ++ "." ++ m.name) := by
    refine (d.errors_emit RuleTable.every_proper_builtin
      (RuleTable.everySignature_builtin proper_interpolation)).trans ?_
    have hscope : (d.context { known, rules := .builtin, style }).scope = [] := rfl
    simp only [mismatches_enter hscope, mismatched, List.map_append, List.map_flatMap,
      List.map_map, Function.comp_def, List.filter_filter, ClassDoc.blockName_eq]
  have hcount : result.diagnostics.errorCount = d.mismatched.length := by
    rw [Diagnostics.errorCount_eq_length_errors, herrors, List.length_map]
  refine ⟨herrors, hcount, ?_, fun o => ?_⟩
  · rw [Compilation.isValid, Bool.not_eq_true', Diagnostics.hasErrors_eq_false_iff,
      ← List.length_eq_zero_iff, ← Diagnostics.errorCount_eq_length_errors, hcount]
  · simpa [CommandLine.Options.failsFor] using result.diagnostics.hasErrors_or_hasWarnings_iff

end ApiTypings
