import ApiTypings.Proofs.Checked.Made
import Mathlib.Data.Set.Basic

/-!
# What is reported of types

A computation that is put together from steps (`Checked.Made`) looks at what is known only to
report types that are not. So what it reports says which types these are (`ReportsUnknown`,
`Diagnostics.unknownTypes`), and where more is known it reports the same but for them.

* **`Made.diagnostics_of_more`** — in a context that knows more, the reports are those of the one
  that knows less without the types that are known there, in their order.
* `Made.not_isKnown` — no type that is known is reported.
* `Made.exists_reports` — every report names something: one of an unknown type the type
  (`Made.exists_reportsUnknown`).
-/

namespace ApiTypings

/-- A detail is read off the message that has it. -/
theorem DiagnosticKind.message_some_inj {k : DiagnosticKind} {a b : String} :
    k.message (some a) = k.message (some b) ↔ a = b := by
  rw [message, message, String.append_left_inj, String.append_right_inj]

namespace Diagnostic

/-- The diagnostic is of a kind and says it of something with a name. -/
def Reports (d : Diagnostic) (kind : DiagnosticKind) (name : String) : Prop :=
  d.kind = kind ∧ d.message = kind.message (some name)

theorem reports_plain_iff {kind other : DiagnosticKind} {location detail name : String} :
    ((plain kind location).withDetail detail).Reports other name ↔
      kind = other ∧ detail = name := by
  constructor
  · rintro ⟨rfl, hm⟩
    exact ⟨rfl, DiagnosticKind.message_some_inj.1 hm⟩
  · rintro ⟨rfl, rfl⟩
    exact ⟨rfl, rfl⟩

/-- The diagnostic says of a type that it is not known. -/
def ReportsUnknown (d : Diagnostic) (name : String) : Prop :=
  d.kind = .unknownType ∧ d.message = DiagnosticKind.unknownType.message (some name)

instance (d : Diagnostic) (name : String) : Decidable (d.ReportsUnknown name) :=
  inferInstanceAs (Decidable (_ ∧ _))

theorem reportsUnknown_plain_iff {kind : DiagnosticKind} {location detail name : String} :
    ((plain kind location).withDetail detail).ReportsUnknown name ↔
      kind = .unknownType ∧ detail = name :=
  reports_plain_iff

end Diagnostic

/-- The types that are known in a context. -/
def Context.knownTypes (c : Context) : List String := c.known ++ libraryTypes

theorem Context.isKnown_iff {c : Context} {name : String} :
    c.isKnown name = true ↔ name ∈ c.knownTypes := by
  simp [isKnown, knownTypes]

theorem Context.location_congr {c c' : Context} (hs : c.scope = c'.scope) :
    c.location = c'.location := by
  rw [location, location, hs]

namespace Diagnostics

/-- The names of the types that are reported as unknown. -/
def unknownTypes (ds : Diagnostics) : Set String := {name | ∃ d ∈ ds, d.ReportsUnknown name}

theorem mem_unknownTypes {ds : Diagnostics} {name : String} :
    name ∈ ds.unknownTypes ↔ ∃ d ∈ ds, d.ReportsUnknown name := Iff.rfl

theorem not_mem_unknownTypes_nil (name : String) : name ∉ unknownTypes [] := by
  simp [mem_unknownTypes]

theorem mem_unknownTypes_append {ds es : Diagnostics} {name : String} :
    name ∈ (ds ++ es).unknownTypes ↔ name ∈ ds.unknownTypes ∨ name ∈ es.unknownTypes := by
  simp only [mem_unknownTypes, List.mem_append, or_and_right, exists_or]

/-- The diagnostics that report no type among some names. -/
def silencing (names : List String) (ds : Diagnostics) : Diagnostics :=
  ds.filter fun d => ¬ ∃ name ∈ names, d.ReportsUnknown name

variable {names : List String} {ds : Diagnostics}

theorem silencing_append (ds es : Diagnostics) :
    (ds ++ es).silencing names = ds.silencing names ++ es.silencing names :=
  List.filter_append ds es

theorem mem_silencing {d : Diagnostic} :
    d ∈ ds.silencing names ↔ d ∈ ds ∧ ¬ ∃ name ∈ names, d.ReportsUnknown name := by
  rw [silencing, List.mem_filter, decide_eq_true_eq]

/-- Nothing is silenced where nothing of the kind is reported. -/
theorem silencing_eq_self (hds : ∀ d ∈ ds, ∀ name ∈ names, ¬ d.ReportsUnknown name) :
    ds.silencing names = ds :=
  List.filter_eq_self.2 fun d hd => decide_eq_true fun ⟨name, hn, hu⟩ => hds d hd name hn hu

/-- All is silenced where each reports a type among the names. -/
theorem silencing_eq_nil (hds : ∀ d ∈ ds, ∃ name ∈ names, d.ReportsUnknown name) :
    ds.silencing names = [] :=
  List.filter_eq_nil_iff.2 fun d hd => by simpa using hds d hd

end Diagnostics

/-- What is reported of a type is that it is not known. -/
theorem Checked.mem_unknownTypes_requireKnown {c : Context} {name other : String} :
    other ∈ ((requireKnown name).diagnostics c).unknownTypes ↔
      ¬ c.isKnown name = true ∧ other = name := by
  rw [diagnostics_requireKnown]
  split
  · next hc => simp [hc, Diagnostics.not_mem_unknownTypes_nil]
  · next hc => simp [hc, Diagnostics.mem_unknownTypes, Diagnostic.reportsUnknown_plain_iff, eq_comm]

namespace Checked.Made

variable {kinds : List DiagnosticKind} {α : Type} {x : Checked α} {c c' : Context}

/-- **To know more is to report less of the same**: where more is known, exactly the reports of
types that are known there are left out. -/
theorem diagnostics_of_more (h : Made kinds x) (hs : c'.scope = c.scope)
    (hk : c.knownTypes ⊆ c'.knownTypes) :
    x.diagnostics c' = (x.diagnostics c).silencing c'.knownTypes := by
  induction h generalizing c c' with
  | pure a => rfl
  | @bind _ _ x f hx _ ihx ihf =>
    rw [diagnostics_bind, diagnostics_bind, ihx hs hk, hx.value_eq c' c, ihf _ hs hk,
      Diagnostics.silencing_append]
  | within name _ ih =>
    have hscope : (c'.enter name).scope = (c.enter name).scope := by
      rw [Context.scope_enter, Context.scope_enter, hs]
    exact ih hscope hk
  | @reportIf kind condition detail _ hne =>
    rw [diagnostics_reportIf, diagnostics_reportIf, Context.location_congr hs]
    refine (Diagnostics.silencing_eq_self fun d hd name _ hu => ?_).symm
    split at hd
    · obtain rfl := List.mem_singleton.1 hd
      exact hne hu.1
    · exact absurd hd List.not_mem_nil
  | requireKnown name _ =>
    rw [diagnostics_requireKnown, diagnostics_requireKnown, Context.location_congr hs]
    by_cases hc' : c'.isKnown name = true
    · rw [if_pos hc']
      refine (Diagnostics.silencing_eq_nil fun d hd => ?_).symm
      split at hd
      · exact absurd hd List.not_mem_nil
      · obtain rfl := List.mem_singleton.1 hd
        exact ⟨name, Context.isKnown_iff.1 hc', rfl, rfl⟩
    · have hc : ¬ c.isKnown name = true := fun hc =>
        hc' (Context.isKnown_iff.2 (hk (Context.isKnown_iff.1 hc)))
      rw [if_neg hc', if_neg hc]
      refine (Diagnostics.silencing_eq_self fun d hd other ho hu => ?_).symm
      obtain rfl := List.mem_singleton.1 hd
      obtain ⟨-, rfl⟩ := Diagnostic.reportsUnknown_plain_iff.1 hu
      exact hc' (Context.isKnown_iff.2 ho)

/-- **No type that is known is reported.** -/
theorem not_isKnown (h : Made kinds x) {name : String}
    (hn : name ∈ (x.diagnostics c).unknownTypes) : ¬ c.isKnown name = true := by
  obtain ⟨d, hd, hu⟩ := hn
  rw [h.diagnostics_of_more rfl fun _ hm => hm] at hd
  exact fun hc => (Diagnostics.mem_silencing.1 hd).2 ⟨name, Context.isKnown_iff.1 hc, hu⟩

/-- Every report names something. -/
theorem exists_reports (h : Made kinds x) {d : Diagnostic} (hd : d ∈ x.diagnostics c) :
    ∃ name, d.Reports d.kind name := by
  induction h generalizing c with
  | pure a => simp at hd
  | bind _ _ ihx ihf =>
    rw [diagnostics_bind, List.mem_append] at hd
    exact hd.elim ihx (ihf _)
  | within name _ ih => exact ih hd
  | reportIf condition detail _ _ =>
    rw [diagnostics_reportIf] at hd
    split at hd
    · obtain rfl := List.mem_singleton.1 hd
      exact ⟨detail, rfl, rfl⟩
    · exact absurd hd List.not_mem_nil
  | requireKnown name _ =>
    rw [diagnostics_requireKnown] at hd
    split at hd
    · exact absurd hd List.not_mem_nil
    · obtain rfl := List.mem_singleton.1 hd
      exact ⟨name, rfl, rfl⟩

/-- Every report of an unknown type names the type. -/
theorem exists_reportsUnknown (h : Made kinds x) {d : Diagnostic} (hd : d ∈ x.diagnostics c)
    (hk : d.kind = .unknownType) : ∃ name, d.ReportsUnknown name := by
  obtain ⟨name, hr⟩ := h.exists_reports hd
  rw [hk] at hr
  exact ⟨name, hr⟩

end Checked.Made

end ApiTypings
