import ApiTypings.Proofs.Checked.Unknown
import ApiTypings.Proofs.Declaration.Declared
import Mathlib.Tactic.Tauto

/-!
# Checking names

A name is checked before it is declared: a reserved word is reported, and a parameter called
`function` gets another name first. A computation checks the names that it declares
(`Checked.Declares`) if its value declares the names that came with what it was given and those
that it checked, and if what it reports of reserved words are the reserved words among the latter
(`Vetted`): none is passed over, and none is reported that is not declared in the end.

The names are handed on from step to step (`Declares.bind`): what one step makes is given to the
next one. The rest of the module says that names, types and declarations are made in this way.
-/

namespace ApiTypings

/-- The names that are reported as reserved words. -/
def Diagnostics.reservedNames (ds : Diagnostics) : Set String :=
  {name | ∃ d ∈ ds, d.Reports .reservedIdentifier name}

theorem Diagnostics.mem_reservedNames_append {ds es : Diagnostics} {name : String} :
    name ∈ (ds ++ es).reservedNames ↔ name ∈ ds.reservedNames ∨ name ∈ es.reservedNames := by
  simp only [reservedNames, Set.mem_ofPred_eq, List.mem_append, or_and_right, exists_or]

/-- The reserved words among names. -/
def DeclaredName.reserved (names : List DeclaredName) : Set String :=
  {name | Naming.isReserved name = true ∧ ∃ d ∈ names, d.name = name}

/-- Names that have been checked with some reports: the reserved words among them are those that
are reported, and no parameter is called `function`. -/
structure Vetted (names : List DeclaredName) (ds : Diagnostics) : Prop where
  reserved_eq : DeclaredName.reserved names = ds.reservedNames
  name_ne : ∀ d ∈ names, d.isParameter = true → d.name ≠ "function"

namespace Vetted

variable {names more : List DeclaredName} {ds es : Diagnostics}

/-- Reports on something else say nothing of names. -/
theorem nil (h : ∀ d ∈ ds, d.kind ≠ .reservedIdentifier) : Vetted [] ds where
  reserved_eq := by
    ext name
    refine iff_of_false (fun ⟨_, d, hd, _⟩ => List.not_mem_nil hd) ?_
    rintro ⟨d, hd, hk, _⟩
    exact h d hd hk
  name_ne := fun d hd => absurd hd List.not_mem_nil

theorem append (hn : Vetted names ds) (hm : Vetted more es) :
    Vetted (names ++ more) (ds ++ es) where
  reserved_eq := by
    ext name
    rw [Diagnostics.mem_reservedNames_append, ← hn.reserved_eq, ← hm.reserved_eq]
    simp only [DeclaredName.reserved, Set.mem_ofPred_eq, List.mem_append, or_and_right, exists_or,
      and_or_left]
  name_ne := fun d hd => (List.mem_append.1 hd).elim (hn.name_ne d) (hm.name_ne d)

end Vetted

namespace Checked

/-- **A name that is checked is vetted**, in the role that it is checked for. -/
theorem vetted_checkedName (name : String) {check : NameCheck} (hw : check.warn = true)
    (c : Context) :
    Vetted [⟨(checkedName name check).value c, check.substitute⟩]
      ((checkedName name check).diagnostics c) where
  reserved_eq := by
    ext other
    have hd : (checkedName name check).diagnostics c =
        (reportIf (Naming.isReserved ((checkedName name check).value c)) .reservedIdentifier
          ((checkedName name check).value c)).diagnostics c := by
      simp [checkedName, hw]
    rw [hd, diagnostics_reportIf]
    cases hr : Naming.isReserved ((checkedName name check).value c) with
    | false =>
      refine iff_of_false ?_ fun ⟨d, hmem, _⟩ => List.not_mem_nil hmem
      rintro ⟨ho, d, hmem, rfl⟩
      obtain rfl := List.mem_singleton.1 hmem
      exact Bool.false_ne_true (hr.symm.trans ho)
    | true =>
      simp only [DeclaredName.reserved, Diagnostics.reservedNames, Set.mem_ofPred_eq, if_true,
        List.mem_singleton, exists_eq_left, Diagnostic.reports_plain_iff, true_and]
      exact ⟨fun h => h.2, fun h => ⟨h ▸ hr, h⟩⟩
  name_ne := by
    intro d hmem hp
    obtain rfl := List.mem_singleton.1 hmem
    rw [value_checkedName, if_pos hp]
    exact Naming.parameterName_ne name

variable {α β : Type}

/-- **The names that the value declares** are those given and others, which are vetted. -/
def Declares (names : α → List DeclaredName) (given : List DeclaredName) (x : Checked α) : Prop :=
  ∀ c : Context, ∃ vetted : List DeclaredName, Vetted vetted (x.diagnostics c) ∧
    ∀ d, d ∈ names (x.value c) ↔ d ∈ given ∨ d ∈ vetted

namespace Declares

variable {names : α → List DeclaredName} {made : β → List DeclaredName}
variable {given g : List DeclaredName} {x : Checked α} {f : α → Checked β}

theorem congr (h : Declares names g x) (hg : ∀ d, d ∈ g ↔ d ∈ given) :
    Declares names given x := by
  intro c
  obtain ⟨vetted, hv, hiff⟩ := h c
  exact ⟨vetted, hv, fun d => (hiff d).trans (or_congr_left (hg d))⟩

/-- A value that is there declares what was given. -/
theorem value {a : α} (h : names a = given) : Declares names given (Pure.pure a : Checked α) :=
  fun _ => ⟨[], .nil fun _ hd => absurd hd List.not_mem_nil, fun d => by simp [h]⟩

/-- What a step makes of a part of what is given is given to the next step. -/
theorem bind (hx : Declares names g x) (hf : ∀ a, Declares made (given ++ names a) (f a)) :
    Declares made (g ++ given) (x >>= f) := by
  intro c
  obtain ⟨vetted, hv, hiff⟩ := hx c
  obtain ⟨more, hm, hiff'⟩ := hf (x.value c) c
  refine ⟨vetted ++ more, hv.append hm, fun d => ?_⟩
  rw [value_bind, hiff', List.mem_append, hiff, List.mem_append, List.mem_append]
  tauto

/-- What a step makes of nothing is given to the next step. -/
theorem andThen (hx : Declares names [] x) (hf : ∀ a, Declares made (given ++ names a) (f a)) :
    Declares made given (x >>= f) :=
  bind hx hf

/-- A step makes something of all that is given. -/
theorem collect (hx : Declares names g x) (hg : ∀ d, d ∈ g ↔ d ∈ given)
    (hf : ∀ a, Declares made (names a) (f a)) : Declares made given (x >>= f) := by
  have hall : Declares made (g ++ []) (x >>= f) := .bind hx hf
  exact hall.congr fun d => by rw [List.append_nil, hg]

/-- What is made in the end may be something else that declares the same names. -/
theorem map {h : α → β} (hx : Declares names g x) (hh : ∀ a, made (h a) = names a) :
    Declares made g (x >>= fun a => Pure.pure (h a)) :=
  .collect hx (fun _ => Iff.rfl) fun a => .value (hh a)

theorem within (name : String) (hx : Declares names given x) :
    Declares names given (Checked.within name x) :=
  fun c => hx (c.enter name)

/-- What reports nothing about reserved words comes before. -/
theorem after {kinds : List DiagnosticKind} {y : Checked β} (hx : Made kinds x)
    (hk : .reservedIdentifier ∉ kinds) (hy : Declares made given y) :
    Declares made given (x >>= fun _ => y) := by
  intro c
  obtain ⟨vetted, hv, hiff⟩ := hy c
  have hnone : Vetted [] (x.diagnostics c) := .nil fun d hd he => hk (he ▸ hx.kind_mem hd)
  exact ⟨vetted, hnone.append hv, hiff⟩

/-- A name is checked and then declared, along with what is given. -/
theorem checkedName {f : String → Checked β} (name : String) {check : NameCheck}
    (hw : check.warn = true)
    (hf : ∀ name, Declares made (⟨name, check.substitute⟩ :: given) (f name)) :
    Declares made given (Checked.checkedName name check >>= f) := by
  intro c
  obtain ⟨vetted, hv, hiff⟩ := hf ((Checked.checkedName name check).value c) c
  refine ⟨_, (vetted_checkedName name hw c).append hv, fun d => ?_⟩
  rw [value_bind, hiff, List.mem_cons, List.mem_append, List.mem_singleton]
  tauto

/-! ### Lists -/

theorem eachOf {ι : Type} {f : ι → Checked β} {g : ι → List DeclaredName}
    (hf : ∀ i, Declares made (g i) (f i)) (is : List ι) :
    Declares (List.flatMap made) (is.flatMap g) (Checked.each f is) := by
  induction is with
  | nil => exact .value rfl
  | cons i is ih => exact .bind (hf i) fun b => .bind ih fun bs => .value List.flatMap_cons

theorem each {ι : Type} {f : ι → Checked β} (hf : ∀ i, Declares made [] (f i)) (is : List ι) :
    Declares (List.flatMap made) [] (Checked.each f is) :=
  .congr (.eachOf hf is) fun _ => by simp

theorem eachAt {ι : Type} {f : Nat → ι → Checked β} (hf : ∀ place i, Declares made [] (f place i))
    (place : Nat) (is : List ι) :
    Declares (List.flatMap made) [] (Checked.eachAt f place is) := by
  induction is generalizing place with
  | nil => exact .value rfl
  | cons i is ih =>
    exact .andThen (hf place i) fun b => .andThen (ih (place + 1)) fun bs =>
      .value List.flatMap_cons

theorem gatherOf {ι : Type} {f : ι → Checked (List β)} {g : ι → List DeclaredName}
    (hf : ∀ i, Declares (List.flatMap made) (g i) (f i)) (is : List ι) :
    Declares (List.flatMap made) (is.flatMap g) (Checked.gather f is) :=
  .map (.eachOf hf is) fun bss => by
    induction bss with
    | nil => rfl
    | cons bs bss ih => simp only [List.flatten_cons, List.flatMap_append, List.flatMap_cons, ih]

theorem gather {ι : Type} {f : ι → Checked (List β)}
    (hf : ∀ i, Declares (List.flatMap made) [] (f i)) (is : List ι) :
    Declares (List.flatMap made) [] (Checked.gather f is) :=
  .congr (.gatherOf hf is) fun _ => by simp

end Declares

/-! ### Types -/

theorem declared_primitive? {name : String} {t : TypeExpr} (h : primitive? name = some t) :
    t.declared = [] := by
  unfold primitive? at h
  split at h <;> cases h <;> rfl

/-- What the documentation names declares nothing. -/
theorem declares_documentedType (name : String) :
    Declares TypeExpr.declared [] (documentedType name) := by
  unfold documentedType
  split
  · next t ht => exact .value (declared_primitive? ht)
  · exact .after (.requireKnown name (List.mem_singleton_self _)) (by decide) (.value rfl)

theorem declares_typeOf (spec : TypeSpec) :
    Declares TypeExpr.declared spec.declared (typeOf spec) := by
  cases spec with
  | documented name => exact declares_documentedType name
  | made t => exact .value rfl

theorem declares_luaMap (key value : TypeSpec) :
    Declares TypeExpr.declared (key.declared ++ value.declared) (luaMap key value) :=
  .bind (declares_typeOf key) fun k => .bind (declares_typeOf value) fun v => .value (by simp)

theorem declares_union (parts : List TypeSpec) :
    Declares TypeExpr.declared (parts.flatMap TypeSpec.declared) (union parts) :=
  .map (.eachOf declares_typeOf parts) TypeExpr.declared_union

theorem declares_intersection (parts : List TypeSpec) :
    Declares TypeExpr.declared (parts.flatMap TypeSpec.declared) (intersection parts) :=
  .map (.eachOf declares_typeOf parts) TypeExpr.declared_intersection

theorem declares_item (type : TypeSpec) :
    Declares TupleItem.declared type.declared (item type) :=
  .map (declares_typeOf type) fun _ => rfl

/-- A name is checked, and then a type is found. -/
theorem declares_named {made : β → List DeclaredName} {h : String → TypeExpr → β} (name : String)
    {check : NameCheck} (hw : check.warn = true) (type : TypeSpec)
    (hh : ∀ name t, made (h name t) = ⟨name, check.substitute⟩ :: t.declared) :
    Declares made type.declared
      (checkedName name check >>= fun name => typeOf type >>= fun t => pure (h name t)) :=
  .checkedName name hw fun name =>
    .congr (g := type.declared ++ [DeclaredName.mk name check.substitute])
      (.bind (declares_typeOf type) fun t => .value (hh name t)) fun _ => by simp [or_comm]

theorem declares_param (name : String) (type : TypeSpec) :
    Declares Binding.declared type.declared (param name type) :=
  declares_named name rfl type fun _ _ => rfl

theorem declares_functionType (params : List Param) (result : TypeSpec) :
    Declares TypeExpr.declared (result.declared ++ params.flatMap Binding.declared)
      (functionType params result) :=
  .bind (declares_typeOf result) fun _ => .value (TypeExpr.declared_function _ _)

/-! ### Members and declarations -/

theorem declares_heritage (name : String) (args : List TypeExpr) :
    Declares Heritage.declared (args.flatMap TypeExpr.declared) (heritage name args) :=
  .checkedName name rfl fun _ => .value rfl

theorem declares_typeParam (name : String) (constraint fallback : Option TypeExpr) :
    Declares TypeParam.declared
      (TypeExpr.optionDeclared constraint ++ TypeExpr.optionDeclared fallback)
      (typeParam name constraint fallback) :=
  .checkedName name rfl fun _ => .value rfl

theorem declares_method (name : String) (params : List Param) (result : TypeSpec) :
    Declares Member.declared (result.declared ++ params.flatMap Binding.declared)
      (method name params result) :=
  .checkedName name rfl fun name =>
    .congr (g := result.declared ++ ⟨name, false⟩ :: params.flatMap Binding.declared)
      (.bind (declares_typeOf result) fun _ => .value rfl) fun _ => by simp [or_left_comm, NameCheck.standard]

theorem declares_property (name : String) (type : TypeSpec) :
    Declares Member.declared type.declared (property name type) :=
  declares_named name rfl type fun _ _ => rfl

theorem declares_index (key : Param) (type : TypeSpec) :
    Declares Member.declared (type.declared ++ key.declared) (index key type) :=
  .bind (declares_typeOf type) fun _ => .value rfl

theorem declares_interface (name : String) (members : List Member) (modifiers : List Modifier)
    (parents contracts : List Heritage) :
    Declares Statement.declared (parents.flatMap Heritage.declared ++
        contracts.flatMap Heritage.declared ++ members.flatMap Member.declared)
      (interface name members modifiers parents contracts) :=
  .checkedName name rfl fun _ => .value rfl

theorem declares_constant (name : String) (type : TypeSpec) (modifiers : List Modifier) :
    Declares Statement.declared type.declared (constant name type modifiers) :=
  declares_named name rfl type fun _ _ => rfl

theorem declares_function (name : String) (params : List Param) (result : TypeSpec)
    (modifiers : List Modifier) (typeParams : List TypeParam) :
    Declares Statement.declared (result.declared ++ (typeParams.flatMap TypeParam.declared ++
        params.flatMap Binding.declared))
      (function name params result modifiers typeParams) :=
  .checkedName name rfl fun name =>
    .congr (g := result.declared ++ ⟨name, false⟩ :: (typeParams.flatMap TypeParam.declared ++
      params.flatMap Binding.declared))
      (.bind (declares_typeOf result) fun _ => .value rfl) fun _ => by simp [or_left_comm, NameCheck.standard]

theorem declares_block (name : String) (body : List Statement) (modifiers : List Modifier)
    (kind : BlockKind) :
    Declares Statement.declared (body.flatMap Statement.declared)
      (block name body modifiers kind) :=
  .checkedName name rfl fun _ => .value (Statement.declared_block _ _ _)

end Checked

end ApiTypings
