import ApiTypings.Proofs.Compilation.UnknownTypes
import ApiTypings.Proofs.Emission.Reserved

/-!
# Reserved words of a declaration file

**`reservedNames_compile`** — the reserved words among the names that a declaration file declares
are those that are reported while it is made, no more and no fewer; and `function` is no name of a
parameter in it, wherever the parameter stands.
-/

namespace ApiTypings.Docs

theorem declares_emit_builtin (d : Docs) :
    Checked.Declares (List.flatMap Statement.declared) [] (d.emit .builtin) :=
  d.declares_emit RuleTable.declaring_builtin
    (RuleTable.everySignature_builtin declaring_interpolation)

/-- **The reserved words that a declaration file declares are those that are reported**, every
report of a reserved word names one, and no parameter is called `function`. -/
theorem reservedNames_compile (d : Docs) (known : List String) (style : Layout.Style) :
    let result := d.compile { known, rules := .builtin, style }
    let names := result.statements.flatMap Statement.declared
    {name | Naming.isReserved name = true ∧ ∃ x ∈ names, x.name = name} =
        result.diagnostics.reservedNames ∧
      (∀ x ∈ result.diagnostics, x.kind = .reservedIdentifier →
        ∃ name, x.Reports .reservedIdentifier name) ∧
      ∀ x ∈ names, x.isParameter = true → x.name ≠ "function" := by
  intro result names
  obtain ⟨vetted, hv, hiff⟩ :=
    d.declares_emit_builtin (d.context { known, rules := .builtin, style })
  have hmem (x : DeclaredName) : x ∈ names ↔ x ∈ vetted :=
    (hiff x).trans (or_iff_right List.not_mem_nil)
  refine ⟨?_, fun x hx hk => ?_, fun x hx => hv.name_ne x ((hmem x).1 hx)⟩
  · have hreserved : DeclaredName.reserved names = DeclaredName.reserved vetted := by
      simp only [DeclaredName.reserved, hmem]
    exact hreserved.trans hv.reserved_eq
  · obtain ⟨name, hr⟩ := d.made_emit_builtin.exists_reports hx
    exact ⟨name, hk ▸ hr⟩

end ApiTypings.Docs
