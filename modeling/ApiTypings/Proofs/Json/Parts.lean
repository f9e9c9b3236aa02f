import ApiTypings.Json.Value

/-!
# The parts of a value

A JSON value with all values in it (`Json.parts`), what can be said of such a part by itself
(`isDouble`, `keys`, `Legible`), and how many brackets are open at once in the text of a value
(`depth`).
**`Json.induction`** is the induction on values: what holds of an array or an object if it holds of
what is in it, holds of every value.
-/

namespace ApiTypings.Json

/-- Whether the value is a double. -/
def isDouble : Json → Bool
  | .num (.double _) => true
  | _ => false

/-- The keys of an object, in their order. -/
def keys : Json → List String
  | .obj entries => entries.map (·.1)
  | _ => []

mutual

/-- A value and all values in it. -/
def parts : Json → List Json
  | .arr items => .arr items :: itemParts items
  | .obj entries => .obj entries :: entryParts entries
  | v => [v]

/-- Values and all values in them. -/
def itemParts : List Json → List Json
  | [] => []
  | v :: vs => parts v ++ itemParts vs

/-- The values of entries and all values in them. -/
def entryParts : List (String × Json) → List Json
  | [] => []
  | (_, v) :: es => parts v ++ entryParts es

end

mutual

/-- How many brackets are open at once in the text of a value. -/
def depth : Json → Nat
  | .arr items => itemsDepth items + 1
  | .obj entries => entriesDepth entries + 1
  | _ => 0

/-- How many brackets are open at once in values. -/
def itemsDepth : List Json → Nat
  | [] => 0
  | v :: vs => max (depth v) (itemsDepth vs)

/-- How many brackets are open at once in the values of entries. -/
def entriesDepth : List (String × Json) → Nat
  | [] => 0
  | (_, v) :: es => max (depth v) (entriesDepth es)

end

/-- **Induction on values.** -/
theorem induction {motive : Json → Prop} (null : motive .null) (bool : ∀ b, motive (.bool b))
    (num : ∀ n, motive (.num n)) (str : ∀ s, motive (.str s))
    (arr : ∀ items, (∀ v ∈ items, motive v) → motive (.arr items))
    (obj : ∀ entries, (∀ e ∈ entries, motive e.2) → motive (.obj entries)) (v : Json) :
    motive v := by
  cases v with
  | null => exact null
  | bool b => exact bool b
  | num n => exact num n
  | str s => exact str s
  | arr items => exact arr items fun v _ => induction null bool num str arr obj v
  | obj entries => exact obj entries fun e _ => induction null bool num str arr obj e.2
termination_by v
decreasing_by
  · next hv =>
    have := List.sizeOf_lt_of_mem hv
    simp only [Json.arr.sizeOf_spec]
    omega
  · next he =>
    have := List.sizeOf_lt_of_mem he
    obtain ⟨key, v⟩ := e
    simp only [Json.obj.sizeOf_spec, Prod.mk.sizeOf_spec] at this ⊢
    omega

theorem mem_itemParts {items : List Json} {w : Json} :
    w ∈ itemParts items ↔ ∃ v ∈ items, w ∈ v.parts := by
  induction items with
  | nil => simp [itemParts]
  | cons v vs ih => simp [itemParts, ih]

theorem mem_entryParts {entries : List (String × Json)} {w : Json} :
    w ∈ entryParts entries ↔ ∃ e ∈ entries, w ∈ e.2.parts := by
  induction entries with
  | nil => simp [entryParts]
  | cons e es ih => simp [entryParts, ih]

theorem self_mem_parts (v : Json) : v ∈ v.parts := by
  cases v <;> exact List.mem_cons_self

/-- A value whose text tells it: it is no double, and its entries, if it has any, are sorted. -/
def Legible (v : Json) : Prop := v.isDouble = false ∧ v.keys.Pairwise (· < ·)

theorem legible_parts_of_mem_items {items : List Json} {v : Json}
    (h : ∀ w ∈ (arr items).parts, w.Legible) (hv : v ∈ items) : ∀ w ∈ v.parts, w.Legible :=
  fun w hw => h w (List.mem_cons_of_mem _ (mem_itemParts.2 ⟨v, hv, hw⟩))

theorem legible_parts_of_mem_entries {entries : List (String × Json)} {e : String × Json}
    (h : ∀ w ∈ (obj entries).parts, w.Legible) (he : e ∈ entries) : ∀ w ∈ e.2.parts, w.Legible :=
  fun w hw => h w (List.mem_cons_of_mem _ (mem_entryParts.2 ⟨e, he, hw⟩))

/-! ### Depths -/

theorem itemsDepth_le_iff {items : List Json} {n : Nat} :
    itemsDepth items ≤ n ↔ ∀ v ∈ items, v.depth ≤ n := by
  induction items with
  | nil => simp [itemsDepth]
  | cons v vs ih => rw [itemsDepth, Nat.max_le, ih, List.forall_mem_cons]

theorem entriesDepth_le_iff {entries : List (String × Json)} {n : Nat} :
    entriesDepth entries ≤ n ↔ ∀ e ∈ entries, e.2.depth ≤ n := by
  induction entries with
  | nil => simp [entriesDepth]
  | cons e es ih => rw [entriesDepth, Nat.max_le, ih, List.forall_mem_cons]

/-- An array needs one bracket more than what is in it. -/
theorem depth_arr_le_iff {items : List Json} {n : Nat} :
    (arr items).depth ≤ n ↔ ∃ m, n = m + 1 ∧ ∀ v ∈ items, v.depth ≤ m := by
  cases n with
  | zero => simp [depth]
  | succ m => simp [depth, itemsDepth_le_iff]

/-- An object needs one bracket more than what is in it. -/
theorem depth_obj_le_iff {entries : List (String × Json)} {n : Nat} :
    (obj entries).depth ≤ n ↔ ∃ m, n = m + 1 ∧ ∀ e ∈ entries, e.2.depth ≤ m := by
  cases n with
  | zero => simp [depth]
  | succ m => simp [depth, entriesDepth_le_iff]

end ApiTypings.Json
