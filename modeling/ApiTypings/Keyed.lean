/-!
# Values under keys

An association of keys with values that remembers the order in which the keys came
(`Keyed`). A key that comes again keeps its place. **`get?_update`** says what a key holds
after a change under any key.
-/

namespace ApiTypings

/-- Values under keys, in the order in which the keys came first. -/
structure Keyed (κ α : Type) where
  entries : List (κ × α)
  deriving Repr

namespace Keyed

variable {κ α : Type}

/-- No keys at all. -/
def empty : Keyed κ α := ⟨[]⟩

instance : Inhabited (Keyed κ α) := ⟨empty⟩

/-- Whether there are no keys. -/
def isEmpty (m : Keyed κ α) : Bool := m.entries.isEmpty

variable [DecidableEq κ]

/-- The value under a key, in a list of entries. -/
def lookup? (key : κ) : List (κ × α) → Option α
  | [] => none
  | (k, a) :: entries => if k = key then some a else lookup? key entries

/-- The value under a key. -/
def get? (m : Keyed κ α) (key : κ) : Option α := lookup? key m.entries

/-- A list of entries with another value under a key, found from the one that is there. -/
def change (key : κ) (f : Option α → α) : List (κ × α) → List (κ × α)
  | [] => [(key, f none)]
  | (k, a) :: entries => if k = key then (k, f (some a)) :: entries else (k, a) :: change key f entries

/-- The same with another value under a key, found from the one that is there; a new key
comes last. -/
def update (m : Keyed κ α) (key : κ) (f : Option α → α) : Keyed κ α := ⟨change key f m.entries⟩

/-- The same with the given value under a key; a new key comes last. -/
def insert (m : Keyed κ α) (key : κ) (a : α) : Keyed κ α := m.update key fun _ => a

/-- The pairs of a list, of which one with a key that came before replaces the value. -/
def ofList (pairs : List (κ × α)) : Keyed κ α :=
  pairs.foldl (fun m (key, a) => m.insert key a) empty

@[simp] theorem get?_empty (key : κ) : (empty : Keyed κ α).get? key = none := rfl

theorem lookup?_change (key other : κ) (f : Option α → α) (entries : List (κ × α)) :
    lookup? other (change key f entries) =
      if other = key then some (f (lookup? key entries)) else lookup? other entries := by
  induction entries with
  | nil =>
    by_cases h : key = other
    · simp [change, lookup?, h]
    · have h' : ¬ other = key := fun e => h e.symm
      simp [change, lookup?, h, h']
  | cons entry entries ih =>
    obtain ⟨k, a⟩ := entry
    by_cases hk : k = key
    · subst hk
      by_cases h : k = other
      · simp [change, lookup?, h]
      · have h' : ¬ other = k := fun e => h e.symm
        simp [change, lookup?, h, h']
    · by_cases ho : k = other
      · subst ho
        simp [change, lookup?, hk]
      · simp [change, lookup?, hk, ho, ih]

theorem get?_update (m : Keyed κ α) (key other : κ) (f : Option α → α) :
    (m.update key f).get? other = if other = key then some (f (m.get? key)) else m.get? other :=
  lookup?_change key other f m.entries

/-- After a change there is a key. -/
@[simp] theorem isEmpty_update (m : Keyed κ α) (key : κ) (f : Option α → α) :
    (m.update key f).isEmpty = false := by
  obtain ⟨entries⟩ := m
  cases entries with
  | nil => rfl
  | cons entry entries =>
    by_cases h : entry.1 = key <;> simp [update, isEmpty, change, h]

@[simp] theorem isEmpty_insert (m : Keyed κ α) (key : κ) (a : α) :
    (m.insert key a).isEmpty = false :=
  isEmpty_update m key _

theorem get?_insert (m : Keyed κ α) (key other : κ) (a : α) :
    (m.insert key a).get? other = if other = key then some a else m.get? other :=
  get?_update m key other _

end Keyed

end ApiTypings
