import ApiTypings.Diagnostic

/-!
# Checked making

Declarations are made by computations that know which types there are and where they are
(`Context`), and that may report what is wrong with the documentation (`Checked`). Such a
computation can change neither: it enters a scope only for the length of another one
(`Checked.within`), and what it reports comes after all that was reported before.
-/

namespace ApiTypings

/-- The types that the Lua toolchain supplies. -/
def libraryTypes : List String := ["LuaTable", "LuaMap", "LuaMultiReturn"]

/-- What a computation knows: which types there are, and the names of the declarations that
it is within, the outermost first. -/
structure Context where
  known : List String := []
  scope : List String := []
  deriving DecidableEq, Repr

namespace Context

/-- Whether a type is known. -/
def isKnown (c : Context) (name : String) : Bool :=
  c.known.contains name || libraryTypes.contains name

/-- The dotted path of the declaration that is being made. -/
def location (c : Context) : String := ".".intercalate c.scope

/-- Within a declaration of the given name. -/
def enter (c : Context) (name : String) : Context := { c with scope := c.scope ++ [name] }

@[simp] theorem known_enter (c : Context) (name : String) : (c.enter name).known = c.known := rfl

@[simp] theorem scope_enter (c : Context) (name : String) :
    (c.enter name).scope = c.scope ++ [name] := rfl

end Context

/-- A value, and what was reported while it was made. -/
structure Reported (α : Type) where
  value : α
  diagnostics : Diagnostics

/-- A computation that may report diagnostics. -/
def Checked (α : Type) : Type := Context → Reported α

namespace Checked

variable {α β : Type}

/-- What a computation makes and reports in a context. -/
def run (x : Checked α) (c : Context) : Reported α := x c

/-- What a computation makes in a context. -/
def value (x : Checked α) (c : Context) : α := (x.run c).value

/-- What a computation reports in a context. -/
def diagnostics (x : Checked α) (c : Context) : Diagnostics := (x.run c).diagnostics

instance : Monad Checked where
  pure a := fun _ => ⟨a, []⟩
  bind x f := fun c =>
    let first := x c
    let second := f first.value c
    ⟨second.value, first.diagnostics ++ second.diagnostics⟩

instance [Inhabited α] : Inhabited (Checked α) := ⟨pure default⟩

@[simp] theorem value_pure (a : α) (c : Context) : (pure a : Checked α).value c = a := rfl

@[simp] theorem diagnostics_pure (a : α) (c : Context) :
    (pure a : Checked α).diagnostics c = [] := rfl

@[simp] theorem value_bind (x : Checked α) (f : α → Checked β) (c : Context) :
    (x >>= f).value c = (f (x.value c)).value c := rfl

@[simp] theorem diagnostics_bind (x : Checked α) (f : α → Checked β) (c : Context) :
    (x >>= f).diagnostics c = x.diagnostics c ++ (f (x.value c)).diagnostics c := rfl

@[simp] theorem value_map (f : α → β) (x : Checked α) (c : Context) :
    (f <$> x).value c = f (x.value c) := rfl

@[simp] theorem diagnostics_map (f : α → β) (x : Checked α) (c : Context) :
    (f <$> x).diagnostics c = x.diagnostics c := List.append_nil _

/-- Two computations that make and report the same in every context are equal. -/
theorem ext {x y : Checked α} (hv : ∀ c, x.value c = y.value c)
    (hd : ∀ c, x.diagnostics c = y.diagnostics c) : x = y := by
  funext c
  have hvc := hv c
  have hdc := hd c
  simp only [value, diagnostics, run] at hvc hdc
  cases hx : x c
  cases hy : y c
  simp_all

instance : LawfulMonad Checked := LawfulMonad.mk' Checked
  (fun x => ext (fun _ => rfl) fun c => List.append_nil (x.diagnostics c))
  (fun _ _ => ext (fun _ => rfl) fun _ => List.nil_append _)
  (fun _ _ _ => ext (fun _ => rfl) fun _ => List.append_assoc _ _ _)

/-- The context of the computation. -/
def context : Checked Context := fun c => ⟨c, []⟩

/-- Reports a diagnostic with a detail at the present location. -/
def report (kind : DiagnosticKind) (detail : String) : Checked Unit := fun c =>
  ⟨(), [(Diagnostic.plain kind c.location).withDetail detail]⟩

/-- A computation within a declaration of the given name. -/
def within (name : String) (x : Checked α) : Checked α := fun c => x (c.enter name)

@[simp] theorem value_context (c : Context) : context.value c = c := rfl

@[simp] theorem diagnostics_context (c : Context) : context.diagnostics c = [] := rfl

@[simp] theorem diagnostics_report (kind : DiagnosticKind) (detail : String) (c : Context) :
    (report kind detail).diagnostics c =
      [(Diagnostic.plain kind c.location).withDetail detail] := rfl

@[simp] theorem value_within (name : String) (x : Checked α) (c : Context) :
    (within name x).value c = x.value (c.enter name) := rfl

@[simp] theorem diagnostics_within (name : String) (x : Checked α) (c : Context) :
    (within name x).diagnostics c = x.diagnostics (c.enter name) := rfl

/-- Reports a diagnostic if a condition holds. -/
def reportIf (condition : Bool) (kind : DiagnosticKind) (detail : String) : Checked Unit :=
  if condition then report kind detail else pure ()

@[simp] theorem diagnostics_reportIf (condition : Bool) (kind : DiagnosticKind)
    (detail : String) (c : Context) :
    (reportIf condition kind detail).diagnostics c =
      if condition then [(Diagnostic.plain kind c.location).withDetail detail] else [] := by
  cases condition <;> rfl

/-- Makes something of every item, from the first to the last. -/
def each (f : α → Checked β) : List α → Checked (List β)
  | [] => pure []
  | a :: as => do
    let b ← f a
    let bs ← each f as
    pure (b :: bs)

/-- Makes something of every item and its place, from the first to the last; the places are
counted from `place`. -/
def eachAt (f : Nat → α → Checked β) (place : Nat) : List α → Checked (List β)
  | [] => pure []
  | a :: as => do
    let b ← f place a
    let bs ← eachAt f (place + 1) as
    pure (b :: bs)

/-- Makes several things of every item, and one list of all of them. -/
def gather (f : α → Checked (List β)) (as : List α) : Checked (List β) := do
  return (← each f as).flatten

@[simp] theorem value_each (f : α → Checked β) (as : List α) (c : Context) :
    (each f as).value c = as.map fun a => (f a).value c := by
  induction as with
  | nil => rfl
  | cons a as ih => simp [each, ih]

@[simp] theorem diagnostics_each (f : α → Checked β) (as : List α) (c : Context) :
    (each f as).diagnostics c = as.flatMap fun a => (f a).diagnostics c := by
  induction as with
  | nil => rfl
  | cons a as ih => simp [each, ih]

@[simp] theorem value_eachAt (f : Nat → α → Checked β) (place : Nat) (as : List α)
    (c : Context) :
    (eachAt f place as).value c = as.mapIdx fun i a => (f (place + i) a).value c := by
  induction as generalizing place with
  | nil => rfl
  | cons a as ih => simp [eachAt, ih, List.mapIdx_cons, Nat.add_assoc, Nat.add_comm 1]

@[simp] theorem diagnostics_eachAt (f : Nat → α → Checked β) (place : Nat) (as : List α)
    (c : Context) :
    (eachAt f place as).diagnostics c =
      (as.mapIdx fun i a => (f (place + i) a).diagnostics c).flatten := by
  induction as generalizing place with
  | nil => rfl
  | cons a as ih => simp [eachAt, ih, List.mapIdx_cons, Nat.add_assoc, Nat.add_comm 1]

@[simp] theorem value_gather (f : α → Checked (List β)) (as : List α) (c : Context) :
    (gather f as).value c = as.flatMap fun a => (f a).value c := by
  simp [gather, List.flatMap_def]

@[simp] theorem diagnostics_gather (f : α → Checked (List β)) (as : List α) (c : Context) :
    (gather f as).diagnostics c = as.flatMap fun a => (f a).diagnostics c := by
  simp [gather]

end Checked

end ApiTypings
