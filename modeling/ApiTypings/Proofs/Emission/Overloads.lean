import ApiTypings.Emission.Namespace
import ApiTypings.Proofs.Emission.Shapes

/-!
# Overloads under every name

A method becomes a declaration for each of its names and each of its overloads, in a class and in a
namespace alike. The types of an overload are resolved once, at sites that have the first name of
the method, whatever other names it has.

* `paramsIn`, `resultIn` — the parameters and the result that an overload is declared with.
* `overloadReports` — what is reported while the overloads get their types. The other names of the
  method do not come into it.
* `Expands` — all overloads under the first name of the method, then all under the next.
* `expands_expand`, `diagnostics_expand` — so the overloads come, and what is reported of them and of
  the names, whatever is made of each of them.
* **`expanded`** — this for the methods of a class and for the functions of a namespace.
-/

namespace ApiTypings

open Checked

/-- In lists of one length that are put together, the item at a place is that of one of them. -/
theorem getElem?_flatMap_of_length {α β : Type} {f : α → List β} {n : Nat}
    (hf : ∀ a, (f a).length = n) (as : List α) (j : Nat) {k : Nat} (hk : k < n) :
    (as.flatMap f)[j * n + k]? = as[j]?.bind fun a => (f a)[k]? := by
  induction as generalizing j with
  | nil => simp
  | cons a as ih =>
    rw [List.flatMap_cons]
    cases j with
    | zero =>
      rw [List.getElem?_append_left (by rw [hf]; omega)]
      simp
    | succ j =>
      have hle : (f a).length ≤ (j + 1) * n + k := by
        rw [hf, Nat.succ_mul]
        omega
      have hrest : (j + 1) * n + k - n = j * n + k := by
        rw [Nat.succ_mul]
        omega
      rw [List.getElem?_append_right hle, hf, hrest, ih, List.getElem?_cons_succ]

/-- What is reported of a name that a declaration or a parameter gets. -/
def nameReports (c : Context) (name : String) : Diagnostics :=
  if Naming.isReserved name then
    [(Diagnostic.plain .reservedIdentifier c.location).withDetail name]
  else []

theorem diagnostics_checkedName (name : String) {check : NameCheck} (hw : check.warn = true)
    (c : Context) :
    (checkedName name check).diagnostics c =
      nameReports c (if check.substitute then Naming.parameterName name else name) := by
  simp [checkedName, nameReports, hw]

theorem diagnostics_param (name : String) (t : TypeExpr) (c : Context) :
    (param name t).diagnostics c = nameReports c (Naming.parameterName name) := by
  rw [param, diagnostics_bind, diagnostics_checkedName name rfl]
  exact List.append_nil _

theorem diagnostics_method (name : String) (params : List Param) (t : TypeExpr) (c : Context) :
    (method name params t).diagnostics c = nameReports c name := by
  rw [method, diagnostics_bind, diagnostics_checkedName name rfl]
  exact List.append_nil _

theorem diagnostics_function (name : String) (params : List Param) (t : TypeExpr) (c : Context) :
    (function name params t).diagnostics c = nameReports c name := by
  rw [function, diagnostics_bind, diagnostics_checkedName name rfl]
  exact List.append_nil _

namespace MethodDoc

variable (m : MethodDoc) (rules : RuleTable) (owner : String) (c : Context)

/-- The site of a parameter. It has the first name of the method. -/
def paramSite (i : Nat) (p : ParameterDoc) : Site where
  owner := owner
  member := m.name
  target := .parameter
  documented := p.type
  position := i
  name := some p.name

/-- The site of the result of an overload. It has the first name of the method. -/
def resultSite (k : Nat) (documented : String) : Site where
  owner := owner
  member := m.name
  target := .result
  documented := documented
  position := k

/-- The parameters that an overload is declared with: each with the type that the rules resolve at
its site, and `func` instead of `function`. -/
def paramsIn (ps : List ParameterDoc) : List Param :=
  ps.mapIdx fun i p =>
    ⟨Naming.parameterName p.name, (rules.resolve (m.paramSite owner i p)).value c⟩

/-- The result that the overload at a place is declared with. -/
def resultIn (k : Nat) (documented : String) : TypeExpr :=
  (rules.resolve (m.resultSite owner k documented)).value c

/-- What is reported of the parameters of an overload, one after another: first of the type, then of
the name. -/
def paramReports (ps : List ParameterDoc) : Diagnostics :=
  (ps.mapIdx fun i p =>
    (rules.resolve (m.paramSite owner i p)).diagnostics c ++
      nameReports c (Naming.parameterName p.name)).flatten

/-- What is reported of the overloads of a method, one after another: first whether there are others
without parameters or without a result, then of each its parameters and its result. -/
def overloadReports : Diagnostics :=
  (if m.parameters.length = m.returns.length then []
    else [(Diagnostic.plain .overloadMismatch c.location).withDetail m.mismatch]) ++
  ((m.parameters.zip m.returns).mapIdx fun k (ps, documented) =>
    m.paramReports rules owner c ps ++
      (rules.resolve (m.resultSite owner k documented)).diagnostics c).flatten

theorem value_overloadsOf_eq :
    (m.overloadsOf rules owner).value c =
      m.overloads.mapIdx fun k o =>
        ⟨m.paramsIn rules owner c o.1, m.resultIn rules owner c k o.2⟩ := by
  rw [value_overloadsOf]
  congr 1
  funext k o
  rw [value_overloadAt]
  rfl

theorem diagnostics_overloadAt (k : Nat) (o : List ParameterDoc × String) :
    (m.overloadAt rules owner k o).diagnostics c =
      m.paramReports rules owner c o.1 ++
        (rules.resolve (m.resultSite owner k o.2)).diagnostics c := by
  have hparam (i : Nat) (p : ParameterDoc) : (m.paramAt rules owner i p).diagnostics c =
      (rules.resolve (m.paramSite owner i p)).diagnostics c ++
        nameReports c (Naming.parameterName p.name) := by
    rw [paramAt, diagnostics_bind, diagnostics_param]
    rfl
  rw [overloadAt, diagnostics_bind, diagnostics_bind, diagnostics_eachAt]
  simp only [Nat.zero_add, hparam, diagnostics_pure, List.append_nil]
  rfl

theorem diagnostics_overloadsOf :
    (m.overloadsOf rules owner).diagnostics c = m.overloadReports rules owner c := by
  rw [overloadsOf, diagnostics_bind, diagnostics_reportIf, diagnostics_eachAt, overloadReports,
    isPaired]
  simp only [Nat.zero_add, diagnostics_overloadAt]
  congr 1
  by_cases h : m.parameters.length = m.returns.length <;> simp [h]

/-! ### Whatever is made of the overloads -/

variable {ν : Type}

/-- A list of what is declared: of every overload under every name, all overloads under the first
name, then all of them under the next. -/
structure Expands (declared : String → Overload → ν) (items : List ν) : Prop where
  /-- There is nothing else. -/
  length : items.length = m.names.length * min m.parameters.length m.returns.length
  /-- Overload `k` under name `j`. -/
  item : ∀ {j k : Nat} {name : String} {ps : List ParameterDoc} {documented : String},
    m.names[j]? = some name → m.parameters[k]? = some ps → m.returns[k]? = some documented →
    items[j * min m.parameters.length m.returns.length + k]? =
      some (declared name ⟨m.paramsIn rules owner c ps, m.resultIn rules owner c k documented⟩)

/-- What is reported of the names under which the overloads are declared, of each as often as it
is. -/
def namesReports : Diagnostics :=
  m.names.flatMap fun name =>
    (List.replicate (min m.parameters.length m.returns.length) (nameReports c name)).flatten

theorem kind_of_mem_namesReports {d : Diagnostic} (hd : d ∈ m.namesReports c) :
    d.kind = .reservedIdentifier := by
  obtain ⟨name, -, hd⟩ := List.mem_flatMap.1 hd
  obtain ⟨ds, hds, hd⟩ := List.mem_flatten.1 hd
  obtain rfl := List.eq_of_mem_replicate hds
  rw [nameReports] at hd
  split at hd
  · obtain rfl := List.mem_singleton.1 hd
    rfl
  · cases hd

variable {m rules owner c} {make : String → Overload → Checked ν} {declared : String → Overload → ν}

theorem Expands.map {items : List ν} (h : m.Expands rules owner c declared items) {μ : Type}
    (f : ν → μ) : m.Expands rules owner c (fun name o => f (declared name o)) (items.map f) where
  length := by rw [List.length_map, h.length]
  item hj hp hr := by rw [List.getElem?_map, h.item hj hp hr, Option.map_some]

/-- **The overloads come under the first name, then under the next.** -/
theorem expands_expand (hv : ∀ name o, (make name o).value c = declared name o) :
    m.Expands rules owner c declared ((m.overloadsOf rules owner >>= m.expand make).value c) := by
  have hvalue : (m.overloadsOf rules owner >>= m.expand make).value c =
      m.names.flatMap fun name => ((m.overloadsOf rules owner).value c).map (declared name) := by
    simp [expand, hv]
  have hlength (name : String) : (((m.overloadsOf rules owner).value c).map (declared name)).length =
      min m.parameters.length m.returns.length := by
    rw [List.length_map, length_value_overloadsOf]
  constructor
  · rw [hvalue, List.length_flatMap]
    simp [hlength]
  · intro j k name ps documented hj hp hr
    have hk : k < min m.parameters.length m.returns.length :=
      Nat.lt_min.2 ⟨(List.getElem?_eq_some_iff.1 hp).1, (List.getElem?_eq_some_iff.1 hr).1⟩
    have hoverload : m.overloads[k]? = some (ps, documented) :=
      List.getElem?_zip_eq_some.2 ⟨hp, hr⟩
    rw [hvalue, getElem?_flatMap_of_length hlength m.names j hk, hj, value_overloadsOf_eq]
    simp [hoverload]

/-- **The overloads are reported on once, and then the names.** -/
theorem diagnostics_expand (hd : ∀ name o, (make name o).diagnostics c = nameReports c name) :
    (m.overloadsOf rules owner >>= m.expand make).diagnostics c =
      m.overloadReports rules owner c ++ m.namesReports c := by
  rw [diagnostics_bind, diagnostics_overloadsOf, expand, diagnostics_gather, namesReports]
  simp [hd, List.flatMap_def, length_value_overloadsOf, List.map_const']

/-! ### Methods and functions -/

theorem withComment_member (signature : Signature) (comment : Option Comment) :
    Commented.withComment ({ signature } : Member) comment = { comment, signature } := by
  cases comment <;> rfl

theorem withComment_function (name : String) (params : List Param) (result : TypeExpr)
    (comment : Option Comment) :
    Commented.withComment (Statement.function { name } [] params result) comment =
      .function { comment, name } [] params result := by
  cases comment <;> rfl

variable (m rules owner c)

theorem expands_emission :
    m.Expands rules owner (c.enter m.name)
      (fun name o =>
        { comment := (m.emission rules owner).comment?
          signature := .method name o.params o.result })
      ((m.emission rules owner).emit.value c) := by
  have hprimary : m.Expands rules owner (c.enter m.name)
      (fun name o => ({ signature := .method name o.params o.result } : Member))
      ((m.emission rules owner).primary.value (c.enter m.name)) := expands_expand fun _ _ => rfl
  have hcommented := hprimary.map (Commented.withComment · (m.emission rules owner).comment?)
  simp only [withComment_member] at hcommented
  rw [Emission.value_emit]
  simpa [emission] using hcommented

theorem diagnostics_emission :
    (m.emission rules owner).emit.diagnostics c =
      m.overloadReports rules owner (c.enter m.name) ++ m.namesReports (c.enter m.name) := by
  have hprimary : (m.emission rules owner).primary.diagnostics (c.enter m.name) = _ :=
    diagnostics_expand fun name o => diagnostics_method name o.params o.result (c.enter m.name)
  rw [Emission.diagnostics_emit, ← hprimary]
  simp [emission]

variable {rules} in
theorem expands_functionEmission (hs : rules.signature? m.name = none) :
    m.Expands rules owner (c.enter m.name)
      (fun name o =>
        .function { comment := (m.functionEmission rules owner).comment?, name } [] o.params o.result)
      ((m.functionEmission rules owner).emit.value c) := by
  have hprimary : m.Expands rules owner (c.enter m.name)
      (fun name o => Statement.function { name } [] o.params o.result)
      ((m.functionEmission rules owner).primary.value (c.enter m.name)) := by
    rw [functionEmission, hs]
    exact expands_expand fun _ _ => rfl
  have hcommented := hprimary.map (Commented.withComment · (m.functionEmission rules owner).comment?)
  simp only [withComment_function] at hcommented
  rw [Emission.value_emit]
  simpa [functionEmission] using hcommented

variable {rules} in
theorem diagnostics_functionEmission (hs : rules.signature? m.name = none) :
    (m.functionEmission rules owner).emit.diagnostics c =
      m.overloadReports rules owner (c.enter m.name) ++ m.namesReports (c.enter m.name) := by
  have hprimary : (m.functionEmission rules owner).primary.diagnostics (c.enter m.name) =
      m.overloadReports rules owner (c.enter m.name) ++ m.namesReports (c.enter m.name) := by
    rw [functionEmission, hs]
    exact diagnostics_expand fun name o =>
      diagnostics_function name o.params o.result (c.enter m.name)
  rw [Emission.diagnostics_emit, ← hprimary]
  simp [functionEmission]

/-- **A method is declared for each of its names and overloads, and its types are resolved once.**
In a class it becomes a method, and in a namespace a function if no rule declares it as a whole, for
every overload under every name, with the parameters and the results that the rules resolve for the
first name. What is reported is the same in both. Whatever other names the method is given, the
reports on its overloads are the same and come first, and those behind them are on reserved words
among its names. -/
theorem expanded (m : MethodDoc) (rules : RuleTable) (owner : String) (c : Context) :
    let inside := c.enter m.name
    m.Expands rules owner inside
        (fun name o =>
          { comment := (m.emission rules owner).comment?
            signature := .method name o.params o.result })
        ((m.emission rules owner).emit.value c) ∧
      (rules.signature? m.name = none →
        m.Expands rules owner inside
          (fun name o =>
            .function { comment := (m.functionEmission rules owner).comment?, name } []
              o.params o.result)
          ((m.functionEmission rules owner).emit.value c)) ∧
      ∀ aliases : List String,
        let other : MethodDoc := { m with aliases }
        (other.emission rules owner).emit.diagnostics c =
            m.overloadReports rules owner inside ++ other.namesReports inside ∧
          (rules.signature? m.name = none →
            (other.functionEmission rules owner).emit.diagnostics c =
              m.overloadReports rules owner inside ++ other.namesReports inside) ∧
          ∀ d ∈ other.namesReports inside, d.kind = .reservedIdentifier := by
  intro inside
  refine ⟨m.expands_emission rules owner c, m.expands_functionEmission owner c, ?_⟩
  intro aliases other
  exact ⟨other.diagnostics_emission rules owner c, other.diagnostics_functionEmission owner c,
    fun _ hd => other.kind_of_mem_namesReports inside hd⟩

/-- A method with another name, of two overloads and a third that has no parameters. -/
def playMethod : MethodDoc where
  name := "play"
  aliases := ["start"]
  parameters := [[], [⟨"function", "Sound"⟩]]
  returns := ["nil", "Boolean", "Number"]

theorem expanded_play :
    RuleTable.empty.signature? "play" = none ∧
      ((playMethod.functionEmission .empty "sounds").emit.value {})[3]? =
        some (.function { name := "start" } [] [⟨"func", .reference "Sound" []⟩]
          (.keyword .boolean)) :=
  ⟨rfl, ((expanded playMethod .empty "sounds" {}).2.1 rfl).item (j := 1) (k := 1) rfl rfl rfl⟩

end MethodDoc

end ApiTypings
