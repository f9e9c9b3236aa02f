import ApiTypings.CommandLine.Run
import ApiTypings.Proofs.Compilation.UnknownTypes

/-!
# Naming more types as known

A user who names further types as known wants to be rid of warnings, and of nothing else.
**`compile_of_known_subset`** — with more types known the declarations are the same, and of the
reports exactly those of unknown types among them are gone. So a command that succeeds still
succeeds with more types named, whether warnings count as errors or not, and neither the order of
the names nor that one of them comes twice makes a difference.
-/

namespace ApiTypings

namespace Docs

variable {known more : List String}

/-- What is known does not show in the declarations. -/
theorem statements_compile_congr (d : Docs) (style : Layout.Style) (known more : List String) :
    (d.compile { known := more, rules := .builtin, style }).statements =
      (d.compile { known, rules := .builtin, style }).statements :=
  d.made_emit_builtin.value_eq _ _

/-- Where more is known, the reports of what is known there are left out. -/
theorem diagnostics_compile_of_subset (d : Docs) (style : Layout.Style) (hk : known ⊆ more) :
    (d.compile { known := more, rules := .builtin, style }).diagnostics =
      (d.compile { known, rules := .builtin, style }).diagnostics.silencing more := by
  have hmade := d.made_emit_builtin
  have hknown : (d.context { known, rules := .builtin, style }).knownTypes ⊆
      (d.context { known := more, rules := .builtin, style }).knownTypes := fun name hn =>
    mem_knownTypes_context.2 ((mem_knownTypes_context.1 hn).imp_right (.imp_left (hk ·)))
  have hless :
      (d.emit .builtin).diagnostics (d.context { known := more, rules := .builtin, style }) =
      ((d.emit .builtin).diagnostics (d.context { known, rules := .builtin, style })).silencing
        (d.context { known := more, rules := .builtin, style }).knownTypes :=
    hmade.diagnostics_of_more rfl hknown
  refine hless.trans (List.filter_congr fun x hx => ?_)
  refine decide_eq_decide.2 (not_congr ⟨fun ⟨name, hn, hu⟩ => ⟨name, ?_, hu⟩, fun ⟨name, hn, hu⟩ =>
    ⟨name, mem_knownTypes_context.2 (.inr (.inl hn)), hu⟩⟩)
  -- a class or a type of the library is known either way, and so is not reported at all
  have hnew := mt Context.isKnown_iff.2 (hmade.not_isKnown ⟨x, hx, hu⟩)
  rw [mem_knownTypes_context, not_or, not_or] at hnew
  exact ((mem_knownTypes_context.1 hn).resolve_left hnew.1).resolve_right hnew.2.2

end Docs

namespace CommandLine

/-- The command with other types known besides the usual ones. -/
def Command.withKnown (known : List String) : Command → Command
  | generate options output indent => generate { options with known } output indent
  | check options => check { options with known }

namespace Options

/-- What succeeds with some reports succeeds without some of them. -/
theorem failsFor_of_silencing {o : Options} {ds : Diagnostics} {names : List String}
    (h : o.failsFor (ds.silencing names) = true) : o.failsFor ds = true := by
  have hany (p : Diagnostic → Bool) (hp : (ds.silencing names).any p = true) : ds.any p = true := by
    obtain ⟨d, hd, hpd⟩ := List.any_eq_true.1 hp
    exact List.any_eq_true.2 ⟨d, (Diagnostics.mem_silencing.1 hd).1, hpd⟩
  rw [failsFor, Bool.or_eq_true, Bool.and_eq_true] at h ⊢
  exact h.imp (hany _) fun ⟨hstrict, hw⟩ => ⟨hstrict, hany _ hw⟩

end Options

namespace Command

variable {known more : List String}

@[simp] theorem options_withKnown (command : Command) (known : List String) :
    (command.withKnown known).options = { command.options with known } := by
  cases command <;> rfl

@[simp] theorem style_withKnown (command : Command) (known : List String) (terminal : Bool) :
    (command.withKnown known).style terminal = command.style terminal := by
  cases command <;> rfl

@[simp] theorem destination?_withKnown (command : Command) (known : List String) :
    (command.withKnown known).destination? = command.destination? := by
  cases command <;> rfl

/-- With more types named, a command writes the same and fails no more than before. -/
theorem run_withKnown_of_subset (command : Command) (hk : known ⊆ more) (terminal : Bool)
    (input : Except String String) :
    ((command.withKnown more).run terminal input).output =
        ((command.withKnown known).run terminal input).output ∧
      (((command.withKnown more).run terminal input).fails = true →
        ((command.withKnown known).run terminal input).fails = true) := by
  cases input with
  | error reason => simp [run]
  | ok text =>
    simp only [run, Docs.compileText, Options.config, options_withKnown, style_withKnown]
    cases Docs.ofText text with
    | error fault => exact ⟨rfl, id⟩
    | ok d =>
      have hextra : extraTypes ++ known ⊆ extraTypes ++ more :=
        List.append_subset.2 ⟨List.subset_append_left _ _, List.subset_append_of_subset_right _ hk⟩
      simp only [Except.map, reportOn, options_withKnown, style_withKnown, destination?_withKnown,
        Compilation.render?]
      rw [d.statements_compile_congr _ (extraTypes ++ known) (extraTypes ++ more),
        d.diagnostics_compile_of_subset _ hextra]
      exact ⟨rfl, Options.failsFor_of_silencing⟩

/-- With more types named, a program that ended well still does, if the writing went as before. -/
theorem finish_withKnown_of_subset (command : Command) (hk : known ⊆ more) (terminal : Bool)
    (input : Except String String) (written : Except Failure Unit)
    (h : (((command.withKnown known).run terminal input).finish written).2 = 0) :
    (((command.withKnown more).run terminal input).finish written).2 = 0 := by
  cases written with
  | error f => exact absurd h f.status_ne_zero
  | ok =>
    have hfails := (command.run_withKnown_of_subset hk terminal input).2
    simp only [Report.finish, ite_eq_right_iff, Nat.one_ne_zero, imp_false] at h ⊢
    exact fun hmore => h (hfails hmore)

end Command

end CommandLine

namespace Docs

open CommandLine

/-- **To name more types as known only silences reports.** The declarations are the same, the
reports are those from before without those of unknown types among the names, and nothing changes
if the names are the same in another order or number. No command that ended well fails for it. -/
theorem compile_of_known_subset (d : Docs) (style : Layout.Style) {known more : List String}
    (hk : known ⊆ more) :
    let before := d.compile { known, rules := .builtin, style }
    let after := d.compile { known := more, rules := .builtin, style }
    after.statements = before.statements ∧
      after.diagnostics = before.diagnostics.filter (fun x =>
        ¬ ∃ name ∈ more, x.ReportsUnknown name) ∧
      (more ⊆ known → after = before) ∧
      ∀ (command : Command) (terminal : Bool) (input : Except String String)
          (written : Except Failure Unit),
        ((command.withKnown more).run terminal input).output =
            ((command.withKnown known).run terminal input).output ∧
          ((((command.withKnown known).run terminal input).finish written).2 = 0 →
            (((command.withKnown more).run terminal input).finish written).2 = 0) := by
  intro before after
  have hstatements : after.statements = before.statements :=
    d.statements_compile_congr style known more
  have hdiagnostics : after.diagnostics = before.diagnostics.silencing more :=
    d.diagnostics_compile_of_subset style hk
  refine ⟨hstatements, hdiagnostics, fun hm => ?_, fun command terminal input written =>
    ⟨(command.run_withKnown_of_subset hk terminal input).1,
      command.finish_withKnown_of_subset hk terminal input written⟩⟩
  -- each of the two silences what the other does, so both have what is left of both
  have hback : before.diagnostics = after.diagnostics.silencing known :=
    d.diagnostics_compile_of_subset style hm
  have hfewer : after.diagnostics.Sublist before.diagnostics := by
    rw [hdiagnostics]
    exact List.filter_sublist
  have hmore : before.diagnostics.Sublist after.diagnostics := by
    rw [hback]
    exact List.filter_sublist
  exact congrArg₂ Compilation.mk hstatements (hfewer.eq_of_length_le hmore.length_le)

/-- Documentation with a constant of a type that no class documents. -/
def lampDocs : Docs where
  globals := { name := "globals", fields := [{ name := "lamp", type := "Lamp" }] }
  math := { name := "math" }

theorem compile_of_known_subset_lamp :
    let before := lampDocs.compile { known := [], rules := .builtin }
    let after := lampDocs.compile { known := ["Lamp", "Lamp"], rules := .builtin }
    [] ⊆ ["Lamp", "Lamp"] ∧ before.diagnostics.length = 1 ∧ after.diagnostics = [] ∧
      after.statements = before.statements ∧
      after.diagnostics = before.diagnostics.filter (fun x =>
        ¬ ∃ name ∈ ["Lamp", "Lamp"], x.ReportsUnknown name) :=
  have hlamp := lampDocs.compile_of_known_subset {} (List.nil_subset ["Lamp", "Lamp"])
  ⟨List.nil_subset _, by decide +kernel, by decide +kernel, hlamp.1, hlamp.2.1⟩

end Docs

end ApiTypings
