import ApiTypings.Checked.Declarations

/-!
# What computations are put together from

Names, types and declarations are made by computations which are put together from a few steps:
a value that is there, one computation after another, one within a declaration, and reports of
certain kinds (`Made`). What holds of the steps and of putting them together holds of them all.

* `Made.value_eq` — such a computation makes the same in every context. What is known, and
  where it is, shows in its reports alone.
* `Made.kind_mem` — it reports nothing but diagnostics of the kinds that it is made with.

The rest of the module says that the computations of names, types and declarations are made in
this way, with reports of reserved words and unknown types (`typeKinds`).
-/

namespace ApiTypings

/-- What may be wrong with a name or a type. -/
def typeKinds : List DiagnosticKind := [.unknownType, .reservedIdentifier]

/-- What may be wrong with a member. -/
def memberKinds : List DiagnosticKind := .overloadMismatch :: typeKinds

namespace Checked

/-- A computation that is put together from steps, with reports of the given kinds. -/
inductive Made (kinds : List DiagnosticKind) : {α : Type} → Checked α → Prop
  /-- A value that is there. -/
  | pure {α : Type} (a : α) : Made kinds (Pure.pure a : Checked α)
  /-- One computation after another. -/
  | bind {α β : Type} {x : Checked α} {f : α → Checked β} :
      Made kinds x → (∀ a, Made kinds (f a)) → Made kinds (x >>= f)
  /-- A computation within a declaration. -/
  | within {α : Type} {x : Checked α} (name : String) :
      Made kinds x → Made kinds (Checked.within name x)
  /-- A report, if something is the case that has nothing to do with what is known. -/
  | reportIf {kind : DiagnosticKind} (condition : Bool) (detail : String) :
      kind ∈ kinds → kind ≠ .unknownType → Made kinds (Checked.reportIf condition kind detail)
  /-- A report of a type, if it is not known. -/
  | requireKnown (name : String) : .unknownType ∈ kinds → Made kinds (Checked.requireKnown name)

variable {kinds : List DiagnosticKind} {α β : Type}

namespace Made

/-- **The context does not show in what is made.** -/
theorem value_eq {x : Checked α} (h : Made kinds x) (c c' : Context) :
    x.value c = x.value c' := by
  induction h generalizing c c' with
  | pure a => rfl
  | bind _ _ ihx ihf => rw [value_bind, value_bind, ihx c c', ihf _ c c']
  | within name _ ih => rw [value_within, value_within, ih (c.enter name) (c'.enter name)]
  | reportIf condition detail _ _ => rfl
  | requireKnown name _ => rfl

/-- **Nothing is reported of other kinds.** -/
theorem kind_mem {x : Checked α} (h : Made kinds x) {c : Context} {d : Diagnostic}
    (hd : d ∈ x.diagnostics c) : d.kind ∈ kinds := by
  induction h generalizing c with
  | pure a => simp at hd
  | bind _ _ ihx ihf =>
    rw [diagnostics_bind, List.mem_append] at hd
    exact hd.elim ihx (ihf _)
  | within name _ ih =>
    rw [diagnostics_within] at hd
    exact ih hd
  | reportIf condition detail hk _ =>
    rw [diagnostics_reportIf] at hd
    split at hd
    · obtain rfl := List.mem_singleton.1 hd
      exact hk
    · exact absurd hd List.not_mem_nil
  | requireKnown name hk =>
    rw [diagnostics_requireKnown] at hd
    split at hd
    · exact absurd hd List.not_mem_nil
    · obtain rfl := List.mem_singleton.1 hd
      exact hk

/-- With more kinds allowed it is made as well. -/
theorem mono {more : List DiagnosticKind} {x : Checked α} (h : Made kinds x)
    (hk : kinds ⊆ more) : Made more x := by
  induction h with
  | pure a => exact .pure a
  | bind _ _ ihx ihf => exact .bind ihx ihf
  | within name _ ih => exact .within name ih
  | reportIf condition detail hkind hne => exact .reportIf condition detail (hk hkind) hne
  | requireKnown name hkind => exact .requireKnown name (hk hkind)

/-! ### Lists -/

theorem each {f : α → Checked β} (hf : ∀ a, Made kinds (f a)) (as : List α) :
    Made kinds (Checked.each f as) := by
  induction as with
  | nil => exact .pure []
  | cons a as ih => exact .bind (hf a) fun b => .bind ih fun bs => .pure (b :: bs)

theorem eachAt {f : Nat → α → Checked β} (hf : ∀ i a, Made kinds (f i a)) (place : Nat)
    (as : List α) : Made kinds (Checked.eachAt f place as) := by
  induction as generalizing place with
  | nil => exact .pure []
  | cons a as ih => exact .bind (hf place a) fun b => .bind (ih _) fun bs => .pure (b :: bs)

theorem gather {f : α → Checked (List β)} (hf : ∀ a, Made kinds (f a)) (as : List α) :
    Made kinds (Checked.gather f as) :=
  .bind (.each hf as) fun bss => .pure bss.flatten

end Made

/-! ### Names and types -/

theorem made_checkedName (name : String) (check : NameCheck) :
    Made typeKinds (checkedName name check) :=
  .bind (.reportIf _ _ (by decide) (by decide)) fun _ => .pure _

theorem made_requireKnown (name : String) : Made typeKinds (requireKnown name) :=
  .requireKnown name (by decide)

theorem made_documentedType (name : String) : Made typeKinds (documentedType name) := by
  unfold documentedType
  split
  · exact .pure _
  · exact .bind (made_requireKnown name) fun _ => .pure _

theorem made_typeOf (spec : TypeSpec) : Made typeKinds (typeOf spec) := by
  cases spec with
  | documented name => exact made_documentedType name
  | made t => exact .pure t

theorem made_luaMap (key value : TypeSpec) : Made typeKinds (luaMap key value) :=
  .bind (made_typeOf key) fun _ => .bind (made_typeOf value) fun _ => .pure _

theorem made_union (parts : List TypeSpec) : Made typeKinds (union parts) :=
  .bind (.each made_typeOf parts) fun _ => .pure _

theorem made_intersection (parts : List TypeSpec) : Made typeKinds (intersection parts) :=
  .bind (.each made_typeOf parts) fun _ => .pure _

theorem made_item (type : TypeSpec) : Made typeKinds (item type) :=
  .bind (made_typeOf type) fun _ => .pure _

theorem made_param (name : String) (type : TypeSpec) : Made typeKinds (param name type) :=
  .bind (made_checkedName name .parameter) fun _ => .bind (made_typeOf type) fun _ => .pure _

theorem made_functionType (params : List Param) (result : TypeSpec) :
    Made typeKinds (functionType params result) :=
  .bind (made_typeOf result) fun _ => .pure _

/-! ### Members and declarations -/

theorem made_heritage (name : String) (args : List TypeExpr) :
    Made typeKinds (heritage name args) :=
  .bind (made_checkedName name .standard) fun _ => .pure _

theorem made_typeParam (name : String) (constraint fallback : Option TypeExpr) :
    Made typeKinds (typeParam name constraint fallback) :=
  .bind (made_checkedName name .standard) fun _ => .pure _

theorem made_method (name : String) (params : List Param) (result : TypeSpec) :
    Made typeKinds (method name params result) :=
  .bind (made_checkedName name .standard) fun _ => .bind (made_typeOf result) fun _ => .pure _

theorem made_property (name : String) (type : TypeSpec) : Made typeKinds (property name type) :=
  .bind (made_checkedName name .standard) fun _ => .bind (made_typeOf type) fun _ => .pure _

theorem made_index (key : Param) (type : TypeSpec) : Made typeKinds (index key type) :=
  .bind (made_typeOf type) fun _ => .pure _

theorem made_interface (name : String) (members : List Member) (modifiers : List Modifier)
    (parents contracts : List Heritage) :
    Made typeKinds (interface name members modifiers parents contracts) :=
  .bind (made_checkedName name .standard) fun _ => .pure _

theorem made_constant (name : String) (type : TypeSpec) (modifiers : List Modifier) :
    Made typeKinds (constant name type modifiers) :=
  .bind (made_checkedName name .standard) fun _ => .bind (made_typeOf type) fun _ => .pure _

theorem made_function (name : String) (params : List Param) (result : TypeSpec)
    (modifiers : List Modifier) (typeParams : List TypeParam) :
    Made typeKinds (function name params result modifiers typeParams) :=
  .bind (made_checkedName name .standard) fun _ => .bind (made_typeOf result) fun _ => .pure _

theorem made_block (name : String) (body : List Statement) (modifiers : List Modifier)
    (kind : BlockKind) : Made typeKinds (block name body modifiers kind) :=
  .bind (made_checkedName name .standard) fun _ => .pure _

end Checked

end ApiTypings
