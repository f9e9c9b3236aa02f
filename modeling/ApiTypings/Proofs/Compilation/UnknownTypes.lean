import ApiTypings.Proofs.Emission.Accounts

/-!
# Unknown types of a declaration file

A type is known to a compilation if the documentation has a class of its name, if it is named
along with the documentation, or if the library has it. **`unknownTypes_compile`** — the types that
a declaration file refers to beyond these are those that are reported as unknown while it is made,
no more and no fewer, although not every reference is checked where it is made.
-/

namespace ApiTypings.Docs

theorem mem_knownTypes_context {d : Docs} {config : Config} {name : String} :
    name ∈ (d.context config).knownTypes ↔
      name ∈ d.classes.map (·.name) ∨ name ∈ config.known ∨ name ∈ libraryTypes := by
  simp only [Context.knownTypes, context, List.mem_append, or_assoc]

theorem made_emit_builtin (d : Docs) : Checked.Made DiagnosticKind.all (d.emit .builtin) :=
  d.made_emit RuleTable.every_proper_builtin
    (RuleTable.everySignature_builtin proper_interpolation)

theorem accounts_emit_builtin (d : Docs) : Checked.Accounts [] (d.emit .builtin) :=
  d.accounts_emit (RuleTable.every_published_builtin.mono fun _ => Rule.Published.accounted)
    (RuleTable.everySignature_builtin accounted_interpolation)

/-- **The unknown types that a declaration file refers to are those that are reported**, and every
report of an unknown type names one. -/
theorem unknownTypes_compile (d : Docs) (known : List String) (style : Layout.Style) :
    let result := d.compile { known, rules := .builtin, style }
    {name | name ∈ references result.statements ∧ name ∉ d.classes.map (·.name) ∧ name ∉ known ∧
        name ∉ libraryTypes} = result.diagnostics.unknownTypes ∧
      ∀ x ∈ result.diagnostics, x.kind = .unknownType → ∃ name, x.ReportsUnknown name := by
  intro result
  have hmade := d.made_emit_builtin
  have hunknown {name : String} :
      ¬ (d.context { known, rules := .builtin, style }).isKnown name = true ↔
        name ∉ d.classes.map (·.name) ∧ name ∉ known ∧ name ∉ libraryTypes := by
    rw [Context.isKnown_iff, mem_knownTypes_context, not_or, not_or]
  refine ⟨Set.ext fun name => ⟨fun ⟨href, hn⟩ => ?_, fun hrep => ?_⟩, fun x hx hk =>
    hmade.exists_reportsUnknown hx hk⟩
  · have hiff := d.accounts_emit_builtin _ name (hunknown.2 hn)
    exact (hiff.1 href).resolve_left List.not_mem_nil
  · have hn := hmade.not_isKnown hrep
    exact ⟨(d.accounts_emit_builtin _ name hn).2 (.inr hrep), hunknown.1 hn⟩

end ApiTypings.Docs
