import ApiTypings.Checked.Declarations
import ApiTypings.Proofs.Checked.Unknown
import ApiTypings.Proofs.Declaration.References
import Mathlib.Tactic.Tauto

/-!
# Accounting for references

What is made refers to types, and types that are not known are reported while it is made. A
computation accounts for its references (`Checked.Accounts`) if the unknown types that its value
refers to are those that came with what it was given, and those that it reports: none is passed
over in silence, and none is reported that the value does not refer to.

References are handed on from step to step (`Accounts.bind`): what one step makes is given to the
next one. The rest of the module says that names, types and declarations are made in this way.
-/

namespace ApiTypings.Checked

variable {α β : Type} [Refers α] [Refers β]

/-- **The unknown types that the value refers to** are among those given, or are reported. -/
def Accounts (given : List String) (x : Checked α) : Prop :=
  ∀ (c : Context) (name : String), ¬ c.isKnown name = true →
    (name ∈ references (x.value c) ↔ name ∈ given ∨ name ∈ (x.diagnostics c).unknownTypes)

namespace Accounts

variable {given g : List String} {x : Checked α} {f : α → Checked β}

theorem congr (h : Accounts g x) (hg : ∀ name, name ∈ g ↔ name ∈ given) : Accounts given x :=
  fun c name hn => (h c name hn).trans (or_congr_left (hg name))

/-- A value that is there refers to what was given, and to types of the library at most. -/
theorem pure {a : α} (h : ∀ name, name ∉ libraryTypes → (name ∈ references a ↔ name ∈ given)) :
    Accounts given (Pure.pure a : Checked α) := by
  intro c name hn
  have hl : name ∉ libraryTypes := fun hl =>
    hn (Context.isKnown_iff.2 (List.mem_append_right _ hl))
  rw [value_pure, diagnostics_pure, h name hl]
  simp [Diagnostics.not_mem_unknownTypes_nil]

/-- A value that refers to what was given. -/
theorem value {a : α} (h : references a = given) : Accounts given (Pure.pure a : Checked α) :=
  .pure fun _ _ => by rw [h]

/-- What a step makes of a part of what is given is given to the next step. -/
theorem bind (hx : Accounts g x) (hf : ∀ a, Accounts (given ++ references a) (f a)) :
    Accounts (g ++ given) (x >>= f) := by
  intro c name hn
  rw [value_bind, diagnostics_bind, hf _ c name hn, List.mem_append, hx c name hn,
    List.mem_append, Diagnostics.mem_unknownTypes_append]
  tauto

/-- What a step makes of nothing is given to the next step. -/
theorem andThen (hx : Accounts [] x) (hf : ∀ a, Accounts (given ++ references a) (f a)) :
    Accounts given (x >>= f) :=
  bind hx hf

/-- A step makes something of all that is given. -/
theorem collect (hx : Accounts g x) (hg : ∀ name, name ∈ g ↔ name ∈ given)
    (hf : ∀ a, Accounts (references a) (f a)) : Accounts given (x >>= f) := by
  intro c name hn
  rw [value_bind, diagnostics_bind, hf _ c name hn, hx c name hn, hg,
    Diagnostics.mem_unknownTypes_append, or_assoc]

/-- What is made in the end may be something else that refers to the same types. -/
theorem map {h : α → β} (hx : Accounts g x) (hh : ∀ a, references (h a) = references a) :
    Accounts g (x >>= fun a => Pure.pure (h a)) := by
  intro c name hn
  rw [value_bind, diagnostics_bind, value_pure, diagnostics_pure, List.append_nil, hh,
    hx c name hn]

theorem within (name : String) (hx : Accounts given x) :
    Accounts given (Checked.within name x) :=
  fun c => hx (c.enter name)

/-- What has nothing to do with types reports nothing about them. -/
theorem reportIf {kind : DiagnosticKind} (condition : Bool) (detail : String)
    (hk : kind ≠ .unknownType) : Accounts [] (Checked.reportIf condition kind detail) := by
  intro c name _
  have hno : name ∉ ((Checked.reportIf condition kind detail).diagnostics c).unknownTypes := by
    rintro ⟨d, hd, hu⟩
    rw [diagnostics_reportIf] at hd
    split at hd
    · obtain rfl := List.mem_singleton.1 hd
      exact hk hu.1
    · exact absurd hd List.not_mem_nil
  exact iff_of_false List.not_mem_nil (not_or.2 ⟨List.not_mem_nil, hno⟩)

/-! ### Lists -/

theorem eachOf {ι : Type} {f : ι → Checked β} {g : ι → List String}
    (hf : ∀ i, Accounts (g i) (f i)) (is : List ι) :
    Accounts (is.flatMap g) (Checked.each f is) := by
  induction is with
  | nil => exact .value rfl
  | cons i is ih =>
    exact .bind (hf i) fun b => .bind ih fun bs => .value (references_cons b bs)

theorem each {ι : Type} {f : ι → Checked β} (hf : ∀ i, Accounts [] (f i)) (is : List ι) :
    Accounts [] (Checked.each f is) :=
  .congr (.eachOf hf is) fun _ => by simp

theorem eachAt {ι : Type} {f : Nat → ι → Checked β} (hf : ∀ place i, Accounts [] (f place i))
    (place : Nat) (is : List ι) : Accounts [] (Checked.eachAt f place is) := by
  induction is generalizing place with
  | nil => exact .value rfl
  | cons i is ih =>
    exact .andThen (hf place i) fun b => .andThen (ih (place + 1)) fun bs =>
      .value (references_cons b bs)

theorem gatherOf {ι : Type} {f : ι → Checked (List β)} {g : ι → List String}
    (hf : ∀ i, Accounts (g i) (f i)) (is : List ι) :
    Accounts (is.flatMap g) (Checked.gather f is) :=
  .map (.eachOf hf is) references_flatten

theorem gather {ι : Type} {f : ι → Checked (List β)} (hf : ∀ i, Accounts [] (f i))
    (is : List ι) : Accounts [] (Checked.gather f is) :=
  .map (.each hf is) references_flatten

/-! ### Names and types -/

/-- A name is checked in between. -/
theorem checkedName {f : String → Checked β} (name : String) (check : NameCheck)
    (hf : ∀ name, Accounts given (f name)) :
    Accounts given (Checked.checkedName name check >>= f) :=
  have hname : Accounts [] (Checked.checkedName name check) :=
    .andThen (.reportIf _ _ (by decide)) fun _ => .value rfl
  .andThen hname fun name => .congr (hf name) fun _ => by simp

end Accounts

/-- What the documentation has a name of its own for is a keyword or a type of the library. -/
theorem references_primitive? {name : String} {t : TypeExpr} (h : primitive? name = some t) :
    references t ⊆ libraryTypes := by
  unfold primitive? at h
  split at h <;> cases h <;> decide

theorem accounts_documentedType (name : String) : Accounts [] (documentedType name) := by
  unfold documentedType
  split
  · next t ht =>
    refine .pure fun other ho => ⟨fun hm => absurd (references_primitive? ht hm) ho, fun hm => ?_⟩
    exact absurd hm List.not_mem_nil
  · intro c other hn
    rw [value_bind, diagnostics_bind, value_pure, diagnostics_pure, List.append_nil,
      mem_unknownTypes_requireKnown]
    constructor
    · intro hm
      obtain rfl : other = name := by simpa using hm
      exact .inr ⟨hn, rfl⟩
    · rintro (hm | ⟨-, rfl⟩)
      · exact absurd hm List.not_mem_nil
      · exact List.mem_singleton_self other

theorem accounts_typeOf (spec : TypeSpec) : Accounts (references spec) (typeOf spec) := by
  cases spec with
  | documented name => exact accounts_documentedType name
  | made t => exact .value rfl

theorem accounts_luaMap (key value : TypeSpec) :
    Accounts (references key ++ references value) (luaMap key value) :=
  .bind (accounts_typeOf key) fun _ => .bind (accounts_typeOf value) fun _ =>
    .pure fun name hl => by
      have hne : name ≠ "LuaMap" := fun he => hl (he ▸ by decide)
      simp [hne]

theorem accounts_union (parts : List TypeSpec) : Accounts (references parts) (union parts) :=
  .map (.eachOf accounts_typeOf parts) TypeExpr.references_union

theorem accounts_intersection (parts : List TypeSpec) :
    Accounts (references parts) (intersection parts) :=
  .map (.eachOf accounts_typeOf parts) TypeExpr.references_intersection

theorem accounts_item (type : TypeSpec) : Accounts (references type) (item type) :=
  .map (accounts_typeOf type) fun _ => rfl

theorem accounts_param (name : String) (type : TypeSpec) :
    Accounts (references type) (param name type) :=
  .checkedName name .parameter fun _ => .map (accounts_typeOf type) fun _ => rfl

theorem accounts_functionType (params : List Param) (result : TypeSpec) :
    Accounts (references result ++ references params) (functionType params result) :=
  .bind (accounts_typeOf result) fun _ => .value (TypeExpr.references_function _ _)

/-! ### Members and declarations -/

theorem accounts_heritage (name : String) (args : List TypeExpr) :
    Accounts (references args) (heritage name args) :=
  .checkedName name .standard fun _ => .value rfl

theorem accounts_typeParam (name : String) (constraint fallback : Option TypeExpr) :
    Accounts (references constraint ++ references fallback)
      (typeParam name constraint fallback) :=
  .checkedName name .standard fun _ => .value rfl

theorem accounts_method (name : String) (params : List Param) (result : TypeSpec) :
    Accounts (references result ++ references params) (method name params result) :=
  .checkedName name .standard fun _ => .bind (accounts_typeOf result) fun _ => .value rfl

theorem accounts_property (name : String) (type : TypeSpec) :
    Accounts (references type) (property name type) :=
  .checkedName name .standard fun _ => .map (accounts_typeOf type) fun _ => rfl

theorem accounts_index (key : Param) (type : TypeSpec) :
    Accounts (references type ++ references key) (index key type) :=
  .bind (accounts_typeOf type) fun _ => .value rfl

theorem accounts_interface (name : String) (members : List Member) (modifiers : List Modifier)
    (parents contracts : List Heritage) :
    Accounts (references parents ++ references contracts ++ references members)
      (interface name members modifiers parents contracts) :=
  .checkedName name .standard fun _ => .value rfl

theorem accounts_constant (name : String) (type : TypeSpec) (modifiers : List Modifier) :
    Accounts (references type) (constant name type modifiers) :=
  .checkedName name .standard fun _ => .map (accounts_typeOf type) fun _ => rfl

theorem accounts_function (name : String) (params : List Param) (result : TypeSpec)
    (modifiers : List Modifier) (typeParams : List TypeParam) :
    Accounts (references result ++ (references typeParams ++ references params))
      (function name params result modifiers typeParams) :=
  .checkedName name .standard fun _ => .bind (accounts_typeOf result) fun _ => .value rfl

theorem accounts_block (name : String) (body : List Statement) (modifiers : List Modifier)
    (kind : BlockKind) : Accounts (references body) (block name body modifiers kind) :=
  .checkedName name .standard fun _ => .value (Statement.references_block _ _ _)

end ApiTypings.Checked
