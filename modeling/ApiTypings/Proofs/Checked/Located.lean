import ApiTypings.Checked.Session
import ApiTypings.Proofs.Checked.Made
import Mathlib.Data.Set.Insert

/-!
# Where things are reported

A session that goes through a computation step by step (`Session.Executes`) enters a declaration
before what is made within it and leaves it afterwards, and reports at the path that it is at.

* **`Made.executes_iff`** — what is made of names, types and declarations is executed in one way
  only, and that is how a session runs it: it is back where it was, and all reports have come behind
  the earlier ones.
* `Checked.ReportsAt` — all that is reported is at certain places. The places at which one
  computation after another reports are those of both, and a computation within a declaration
  reports at the places below.
* `Session.Grows` — both facts together, with the places as paths below the present one.

The rest of the module says that names, types and declarations are reported on where they are made.
-/

namespace ApiTypings

open Checked

namespace Session

/-! ### Step by step -/

/-- Goes through a computation, from one session to another. -/
inductive Executes : {α : Type} → Session → Checked α → α → Session → Prop
  /-- A value is there. -/
  | pure {α : Type} (s : Session) (a : α) : Executes s (Pure.pure a) a s
  /-- One computation is gone through after another. -/
  | bind {α β : Type} {s t u : Session} {x : Checked α} {f : α → Checked β} {a : α} {b : β} :
      Executes s x a t → Executes t (f a) b u → Executes s (x >>= f) b u
  /-- A declaration is entered, and left in the end. -/
  | within {α : Type} {s t : Session} {x : Checked α} {a : α} (name : String) :
      Executes (s.enter name) x a t → Executes s (Checked.within name x) a t.leave
  /-- The context is looked at. -/
  | context (s : Session) : Executes s Checked.context s.context s
  /-- A report comes behind the earlier ones. -/
  | report (s : Session) (kind : DiagnosticKind) (detail : String) :
      Executes s (Checked.report kind detail) () { s with
        diagnostics := s.diagnostics ++
          [(Diagnostic.plain kind s.context.location).withDetail detail] }

variable {α : Type} {s t : Session} {x : Checked α} {a : α}

/-- To run a computation within a declaration is to enter that, to run the computation, and to
leave. -/
theorem run_within (s : Session) (name : String) (x : Checked α) :
    s.run (within name x) = (((s.enter name).run x).1, ((s.enter name).run x).2.leave) := by
  simp [run, leave, enter, Context.enter, Checked.run, within]

/-- To go through a computation is to run it. -/
theorem Executes.run_eq (h : s.Executes x a t) : s.run x = (a, t) := by
  induction h with
  | pure s a => simp [run, Checked.run, Pure.pure]
  | @bind _ _ s t u x f a b _ _ ihx ihf =>
    obtain ⟨rfl, rfl⟩ := Prod.mk.inj ihx
    rw [← ihf]
    exact Prod.ext rfl (congrArg (Session.mk s.context) (List.append_assoc _ _ _).symm)
  | within name _ ih => rw [run_within, ih]
  | context s => simp [run, Checked.run, Checked.context]
  | report s kind detail => rfl

end Session

namespace Checked.Made

variable {kinds : List DiagnosticKind} {α : Type} {x : Checked α}

theorem exists_executes (h : Made kinds x) (s : Session) : ∃ a t, s.Executes x a t := by
  have hreport (s : Session) (condition : Bool) (kind : DiagnosticKind) (detail : String) :
      ∃ t, s.Executes (Checked.reportIf condition kind detail) () t := by
    cases condition with
    | true => exact ⟨_, .report s kind detail⟩
    | false => exact ⟨s, .pure s ()⟩
  induction h generalizing s with
  | pure a => exact ⟨a, s, .pure s a⟩
  | bind _ _ ihx ihf =>
    obtain ⟨a, t, hx⟩ := ihx s
    obtain ⟨b, u, hf⟩ := ihf a t
    exact ⟨b, u, .bind hx hf⟩
  | within name _ ih =>
    obtain ⟨a, t, hx⟩ := ih (s.enter name)
    exact ⟨a, t.leave, .within name hx⟩
  | reportIf condition detail _ _ =>
    obtain ⟨t, ht⟩ := hreport s condition _ detail
    exact ⟨(), t, ht⟩
  | requireKnown name _ =>
    obtain ⟨t, ht⟩ := hreport s (!s.context.isKnown name) .unknownType name
    exact ⟨(), t, .bind (.context s) ht⟩

/-- **There is one way to go through a computation**, and it is how a session runs it. -/
theorem executes_iff (h : Made kinds x) {s t : Session} {a : α} :
    s.Executes x a t ↔ s.run x = (a, t) := by
  constructor
  · exact Session.Executes.run_eq
  · intro hrun
    obtain ⟨b, u, hx⟩ := h.exists_executes s
    obtain ⟨rfl, rfl⟩ := Prod.mk.inj (hrun.symm.trans hx.run_eq)
    exact hx

end Checked.Made

/-! ### Places -/

/-- All that a computation reports in a context is at one of the places. -/
def Checked.ReportsAt (places : Set String) (k : Context) {α : Type} (x : Checked α) : Prop :=
  ∀ d ∈ x.diagnostics k, d.location ∈ places

namespace Checked

variable {places more : Set String} {k : Context} {α β : Type}

theorem ReportsAt.mono {x : Checked α} (h : ReportsAt places k x) (hp : places ⊆ more) :
    ReportsAt more k x :=
  fun d hd => hp (h d hd)

@[simp] theorem reportsAt_pure (a : α) : ReportsAt places k (pure a) :=
  fun _ hd => absurd hd List.not_mem_nil

@[simp] theorem reportsAt_bind {x : Checked α} {f : α → Checked β} :
    ReportsAt places k (x >>= f) ↔ ReportsAt places k x ∧ ReportsAt places k (f (x.value k)) := by
  rw [ReportsAt, diagnostics_bind, List.forall_mem_append]
  rfl

@[simp] theorem reportsAt_map {x : Checked α} {f : α → β} :
    ReportsAt places k (f <$> x) ↔ ReportsAt places k x := by
  rw [ReportsAt, diagnostics_map, ReportsAt]

@[simp] theorem reportsAt_within {name : String} {x : Checked α} :
    ReportsAt places k (within name x) ↔ ReportsAt places (k.enter name) x := Iff.rfl

theorem reportsAt_reportIf (condition : Bool) (kind : DiagnosticKind) (detail : String)
    (hk : k.location ∈ places) : ReportsAt places k (reportIf condition kind detail) := by
  intro d hd
  rw [diagnostics_reportIf] at hd
  split at hd
  · obtain rfl := List.mem_singleton.1 hd
    exact hk
  · exact absurd hd List.not_mem_nil

/-! ### Lists -/

@[simp] theorem reportsAt_each {f : α → Checked β} {as : List α} :
    ReportsAt places k (each f as) ↔ ∀ a ∈ as, ReportsAt places k (f a) := by
  simp only [ReportsAt, diagnostics_each, List.forall_mem_flatMap]

theorem reportsAt_eachAt {f : Nat → α → Checked β} (hf : ∀ i a, ReportsAt places k (f i a))
    (place : Nat) (as : List α) : ReportsAt places k (eachAt f place as) := by
  induction as generalizing place with
  | nil => exact reportsAt_pure []
  | cons a as ih =>
    exact reportsAt_bind.2 ⟨hf place a, reportsAt_bind.2 ⟨ih (place + 1), reportsAt_pure _⟩⟩

@[simp] theorem reportsAt_gather {f : α → Checked (List β)} {as : List α} :
    ReportsAt places k (gather f as) ↔ ∀ a ∈ as, ReportsAt places k (f a) := by
  simp only [ReportsAt, diagnostics_gather, List.forall_mem_flatMap]

/-! ### Names and types -/

section

variable (hk : k.location ∈ places)

include hk

@[simp] theorem reportsAt_checkedName (name : String) (check : NameCheck) :
    ReportsAt places k (checkedName name check) :=
  reportsAt_bind.2 ⟨reportsAt_reportIf _ _ _ hk, reportsAt_pure _⟩

@[simp] theorem reportsAt_requireKnown (name : String) :
    ReportsAt places k (requireKnown name) :=
  reportsAt_reportIf _ _ _ hk

@[simp] theorem reportsAt_documentedType (name : String) :
    ReportsAt places k (documentedType name) := by
  unfold documentedType
  split <;> simp [hk]

@[simp] theorem reportsAt_typeOf (spec : TypeSpec) : ReportsAt places k (typeOf spec) := by
  cases spec with
  | documented name => exact reportsAt_documentedType hk name
  | made t => exact reportsAt_pure t

@[simp] theorem reportsAt_luaMap (key value : TypeSpec) :
    ReportsAt places k (luaMap key value) := by
  simp [luaMap, hk]

@[simp] theorem reportsAt_union (parts : List TypeSpec) : ReportsAt places k (union parts) := by
  simp [union, hk]

@[simp] theorem reportsAt_intersection (parts : List TypeSpec) :
    ReportsAt places k (intersection parts) := by
  simp [intersection, hk]

@[simp] theorem reportsAt_item (type : TypeSpec) : ReportsAt places k (item type) := by
  simp [item, hk]

@[simp] theorem reportsAt_param (name : String) (type : TypeSpec) :
    ReportsAt places k (param name type) := by
  simp [param, hk]

@[simp] theorem reportsAt_functionType (params : List Param) (result : TypeSpec) :
    ReportsAt places k (functionType params result) := by
  simp [functionType, hk]

/-! ### Members and declarations -/

@[simp] theorem reportsAt_heritage (name : String) (args : List TypeExpr) :
    ReportsAt places k (heritage name args) := by
  simp [heritage, hk]

@[simp] theorem reportsAt_typeParam (name : String) (constraint fallback : Option TypeExpr) :
    ReportsAt places k (typeParam name constraint fallback) := by
  simp [typeParam, hk]

@[simp] theorem reportsAt_method (name : String) (params : List Param) (result : TypeSpec) :
    ReportsAt places k (method name params result) := by
  simp [method, hk]

@[simp] theorem reportsAt_property (name : String) (type : TypeSpec) :
    ReportsAt places k (property name type) := by
  simp [property, hk]

@[simp] theorem reportsAt_index (key : Param) (type : TypeSpec) :
    ReportsAt places k (index key type) := by
  simp [index, hk]

@[simp] theorem reportsAt_interface (name : String) (members : List Member)
    (modifiers : List Modifier) (parents contracts : List Heritage) :
    ReportsAt places k (interface name members modifiers parents contracts) := by
  simp [interface, hk]

@[simp] theorem reportsAt_constant (name : String) (type : TypeSpec) (modifiers : List Modifier) :
    ReportsAt places k (constant name type modifiers) := by
  simp [constant, hk]

@[simp] theorem reportsAt_function (name : String) (params : List Param) (result : TypeSpec)
    (modifiers : List Modifier) (typeParams : List TypeParam) :
    ReportsAt places k (function name params result modifiers typeParams) := by
  simp [function, hk]

@[simp] theorem reportsAt_block (name : String) (body : List Statement)
    (modifiers : List Modifier) (kind : BlockKind) :
    ReportsAt places k (block name body modifiers kind) := by
  simp [block, hk]

end

end Checked

/-! ### Sessions that grow -/

/-- The places at paths below that of a context. -/
def Context.below (k : Context) (paths : Set (List String)) : Set String :=
  {location | ∃ path ∈ paths, location = ".".intercalate (k.scope ++ path)}

namespace Context

variable {k : Context} {paths : Set (List String)}

theorem below_mono {more : Set (List String)} (hp : paths ⊆ more) : k.below paths ⊆ k.below more :=
  fun _ ⟨path, hmem, heq⟩ => ⟨path, hp hmem, heq⟩

theorem location_enter_mem_below {name : String} (h : [name] ∈ paths) :
    (k.enter name).location ∈ k.below paths :=
  ⟨[name], h, rfl⟩

theorem location_enter_enter_mem_below {name member : String} (h : [name, member] ∈ paths) :
    ((k.enter name).enter member).location ∈ k.below paths := by
  refine ⟨[name, member], h, ?_⟩
  rw [location, scope_enter, scope_enter, List.append_assoc]
  rfl

end Context

/-- A session can go through a computation, and then it is where it was and knows what it knew, and
what it has reported stands behind the earlier reports and is at the given paths below its own. -/
structure Session.Grows (s : Session) {α : Type} (x : Checked α) (paths : Set (List String)) :
    Prop where
  /-- There is a way through. -/
  executes : ∃ a t, s.Executes x a t
  /-- Whatever was entered has been left, and nothing else is known. -/
  context : ∀ {a t}, s.Executes x a t → t.context = s.context
  /-- The earlier reports are there, and those that have come are at these paths. -/
  diagnostics : ∀ {a t}, s.Executes x a t →
    ∃ added, t.diagnostics = s.diagnostics ++ added ∧
      ∀ d ∈ added, ∃ path ∈ paths, d.location = ".".intercalate (s.context.scope ++ path)

/-- **A session grows by what is reported at certain paths.** -/
theorem Checked.Made.grows {kinds : List DiagnosticKind} {α : Type} {x : Checked α}
    {s : Session} {paths : Set (List String)} (h : Made kinds x)
    (hx : ReportsAt (s.context.below paths) s.context x) : s.Grows x paths where
  executes := h.exists_executes s
  context ht := by
    obtain ⟨-, rfl⟩ := Prod.mk.inj ht.run_eq
    exact s.context_run x
  diagnostics ht := by
    obtain ⟨-, rfl⟩ := Prod.mk.inj ht.run_eq
    exact ⟨x.diagnostics s.context, s.diagnostics_run x, hx⟩

end ApiTypings
