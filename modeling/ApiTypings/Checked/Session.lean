import ApiTypings.Checked.Basic

/-!
# Sessions

A session (`Session`) runs checked computations one after the other, keeps what they
report, and is where one enters and leaves declarations by hand. **`context_run`** and
**`diagnostics_run`** say that a computation leaves the context as it was and what was
reported before in its place.
-/

namespace ApiTypings

/-- Where one is, and what has been reported so far. -/
structure Session where
  context : Context
  diagnostics : Diagnostics := []
  deriving DecidableEq, Repr

namespace Session

/-- The session with the given known types. -/
def new (known : List String) : Session := { context := { known } }

/-- Runs a computation. -/
def run {α : Type} (s : Session) (x : Checked α) : α × Session :=
  let result := Checked.run x s.context
  (result.value, { s with diagnostics := s.diagnostics ++ result.diagnostics })

/-- Enters a declaration. -/
def enter (s : Session) (name : String) : Session :=
  { s with context := s.context.enter name }

/-- Leaves the innermost declaration, if there is one. -/
def leave (s : Session) : Session :=
  { s with context := { s.context with scope := s.context.scope.dropLast } }

/-- Leaves every declaration. -/
def leaveAll (s : Session) : Session :=
  { s with context := { s.context with scope := [] } }

@[simp] theorem value_run {α : Type} (s : Session) (x : Checked α) :
    (s.run x).1 = x.value s.context := rfl

@[simp] theorem context_run {α : Type} (s : Session) (x : Checked α) :
    (s.run x).2.context = s.context := rfl

@[simp] theorem diagnostics_run {α : Type} (s : Session) (x : Checked α) :
    (s.run x).2.diagnostics = s.diagnostics ++ x.diagnostics s.context := rfl

@[simp] theorem leave_enter (s : Session) (name : String) : (s.enter name).leave = s := by
  simp [leave, enter, Context.enter]

end Session

end ApiTypings
