import ApiTypings.Binary64.Decimal

/-!
# JSON values

JSON values (`Json`), their numbers (`Number`), and when two values are the same
(`Json.same`): whole numbers and doubles are never the same, and the two zeros among
the doubles are.
-/

namespace ApiTypings

/-- The least whole number that is not made a double: `-2 ^ 63`. -/
def leastWhole : Int := -0x8000000000000000

/-- The greatest whole number that is not made a double: `2 ^ 64 - 1`. -/
def greatestWhole : Int := 0xFFFFFFFFFFFFFFFF

/-- A JSON number: a whole number within 64 bits, signed or not, or a double. -/
inductive Number
  | whole (i : Int) (fits : leastWhole ≤ i ∧ i ≤ greatestWhole)
  | double (x : Binary64)
  deriving DecidableEq

namespace Number

/-- A whole number as a JSON number: beyond 64 bits it is the double nearest to it, and
beyond those there is none. -/
def ofInt? (i : Int) : Option Number :=
  if fits : leastWhole ≤ i ∧ i ≤ greatestWhole then some (.whole i fits)
  else (Binary64.ofDecimal? (i < 0) ⟨i.natAbs, 0⟩).map .double

/-- A natural number as a JSON number; one beyond the greatest counts as the greatest. -/
def ofNat (n : Nat) : Number :=
  .whole (min n greatestWhole.toNat : Nat) (by simp only [leastWhole, greatestWhole]; omega)

/-- Whether two numbers are the same. -/
def same : Number → Number → Bool
  | .whole i _, .whole j _ => i == j
  | .double x, .double y => x.same y
  | _, _ => false

theorem same_refl : ∀ n : Number, n.same n = true
  | .whole _ _ => by simp [same]
  | .double x => x.same_refl

end Number

/-- A JSON value. The entries of an object are in the order in which they are written. -/
inductive Json
  | null
  | bool (b : Bool)
  | num (n : Number)
  | str (s : String)
  | arr (items : List Json)
  | obj (entries : List (String × Json))

namespace Json

instance : Inhabited Json := ⟨.null⟩

mutual

/-- Whether two values are the same: same kind, same content. -/
def same : Json → Json → Bool
  | .null, .null => true
  | .bool a, .bool b => a == b
  | .num m, .num n => m.same n
  | .str s, .str t => s == t
  | .arr xs, .arr ys => sameItems xs ys
  | .obj xs, .obj ys => sameEntries xs ys
  | _, _ => false

/-- Whether two lists hold the same values in the same places. -/
def sameItems : List Json → List Json → Bool
  | [], [] => true
  | x :: xs, y :: ys => same x y && sameItems xs ys
  | _, _ => false

/-- Whether two lists hold the same keys with the same values in the same places. -/
def sameEntries : List (String × Json) → List (String × Json) → Bool
  | [], [] => true
  | (k, x) :: xs, (l, y) :: ys => k == l && same x y && sameEntries xs ys
  | _, _ => false

end

mutual

theorem same_refl : ∀ v : Json, same v v = true
  | .null => rfl
  | .bool _ => by simp [same]
  | .num n => by simp [same, n.same_refl]
  | .str _ => by simp [same]
  | .arr xs => by simp [same, sameItems_refl xs]
  | .obj xs => by simp [same, sameEntries_refl xs]

theorem sameItems_refl : ∀ xs : List Json, sameItems xs xs = true
  | [] => rfl
  | x :: xs => by simp [sameItems, same_refl x, sameItems_refl xs]

theorem sameEntries_refl : ∀ xs : List (String × Json), sameEntries xs xs = true
  | [] => rfl
  | (k, x) :: xs => by simp [sameEntries, same_refl x, sameEntries_refl xs]

end

/-! ### Access -/

/-- The value of the first entry with a key, if this is an object that has one. -/
def field? (v : Json) (key : String) : Option Json :=
  match v with
  | .obj entries => (entries.find? (·.1 == key)).map (·.2)
  | _ => none

end Json

end ApiTypings
