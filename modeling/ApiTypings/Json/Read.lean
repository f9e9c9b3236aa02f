import ApiTypings.Json.Skip

/-!
# Readers of JSON texts

Readers of the values that a JSON text can hold: texts, truth values, lists
(`readList`), values of any shape (`readValue`) and records (`readRecord`), whose fields
have readers of their own. A reader that opens a bracket gets the readers of what is
inside it, or none if no more brackets may be opened, so that nested readers are
defined by recursion on how many may be.

The entries of an object are kept sorted by their keys, and no key is there twice
(**`putEntry_sorted`**).
-/

namespace ApiTypings.Json

/-! ### Scalars -/

/-- What is wrong with a value of a kind that is not wanted, which the value itself may
have a fault before. -/
def wrongType (wanted : String) (text : List Char) : Fault :=
  let found {bound : Nat} (found : Found) : Except Fault (Step Unit bound) → Fault
    | .error fault => fault
    | .ok step => .before (.wrongType found wanted) step.unread
  match text with
  | [] => .within .expectedValue []
  | c :: unread =>
    if c = 'n' then found .null (spell ['u', 'l', 'l'] unread (length_lt_succ _))
    else if c = 't' then found (.bool true) (spell ['r', 'u', 'e'] unread (length_lt_succ _))
    else if c = 'f' then
      found (.bool false) (spell ['a', 'l', 's', 'e'] unread (length_lt_succ _))
    else if c = '-' ∨ c.isDigit then
      match number (c :: unread) with
      | .error fault => fault
      | .ok step => .before (.wrongType (.number step.value) wanted) step.unread
    else if c = '"' then
      match afterQuote unread with
      | .error fault => fault
      | .ok step => .before (.wrongType (.string step.value) wanted) step.unread
    else if c = '[' then .before (.wrongType .sequence wanted) (c :: unread)
    else if c = '\x7b' then .before (.wrongType .map wanted) (c :: unread)
    else .within .expectedValue (c :: unread)

/-- Goes to the first character of a value and on from there. -/
def fromToken {α : Type}
    (read : (c : Char) → (unread : List Char) → Except Fault (Step α (unread.length + 1))) :
    Reader α := fun text =>
  match h : skipSpace text with
  | [] => .error (.within (.unfinished .value) [])
  | c :: unread =>
    match read c unread with
    | .error fault => .error fault
    | .ok step => .ok (step.widen (length_of_skipSpace h))

/-- Reads a text within quotes. -/
def readString : Reader String := fromToken fun c unread =>
  if c = '"' then afterQuote unread else .error (wrongType "a string" (c :: unread))

/-- Reads a text within quotes, or `null`. -/
def readStringOrNull : Reader (Option String) := fromToken fun c unread =>
  if c = 'n' then
    (spell ['u', 'l', 'l'] unread (length_lt_succ _)).map (Step.map fun _ => none)
  else if c = '"' then (afterQuote unread).map (Step.map some)
  else .error (wrongType "a string" (c :: unread))

/-- Reads a truth value. -/
def readBool : Reader Bool := fromToken fun c unread =>
  if c = 't' then
    (spell ['r', 'u', 'e'] unread (length_lt_succ _)).map (Step.map fun _ => true)
  else if c = 'f' then
    (spell ['a', 'l', 's', 'e'] unread (length_lt_succ _)).map (Step.map fun _ => false)
  else .error (wrongType "a boolean" (c :: unread))

/-! ### Lists -/

/-- Reads the items of a list up to its closing bracket, and the bracket. Those read
before are in `read`, the last one first; a comma stands before every item but the
first. -/
def items {α : Type} {bound : Nat} (item : Reader α) (first : Bool) (read : List α)
    (text : List Char) (h : text.length < bound) : Except Fault (Step (List α) bound) :=
  match hs : skipSpace text with
  | [] => .error (.within (.unfinished .list) [])
  | c :: unread =>
    have lt := length_of_skipSpace hs
    if c = ']' then .ok ⟨read.reverse, unread, Nat.lt_trans lt h⟩
    else if first then
      match item (c :: unread) with
      | .error fault => .error fault
      | .ok step =>
        have := step.shorter
        have le := length_skipSpace text
        have : step.unread.length < text.length := by rw [hs] at le; omega
        items item false (step.value :: read) step.unread (by omega)
    else if c = ',' then
      match ho : skipSpace unread with
      | [] => .error (.within (.unfinished .value) [])
      | d :: after =>
        if d = ']' then .error (.within .trailingComma (d :: after))
        else
          match item (d :: after) with
          | .error fault => .error fault
          | .ok step =>
            have := step.shorter
            have le := length_skipSpace unread
            have : step.unread.length < text.length := by rw [ho] at le; omega
            items item false (step.value :: read) step.unread (by omega)
    else .error (.within .expectedItemEnd (c :: unread))
termination_by text.length

/-- The reader of what is inside a bracket, if one may be opened, given how many may. -/
def inside {α : Type} (reader : (depth : Nat) → Reader α) : (depth : Nat) → Option (Reader α)
  | 0 => none
  | depth + 1 => some (reader depth)

/-- Reads a list of what the reader inside reads; none means that no bracket may be opened. -/
def readList {α : Type} (inside : Option (Reader α)) : Reader (List α) :=
  fromToken fun c unread =>
    if c = '[' then
      match inside with
      | none => .error (.within .tooDeep (c :: unread))
      | some item => items item true [] unread (length_lt_succ _)
    else .error (wrongType "a sequence" (c :: unread))

/-! ### Values of any shape -/

/-- The entries, sorted by key, with one more; it replaces an entry with the same key. -/
def putEntry (key : String) (v : Json) : List (String × Json) → List (String × Json)
  | [] => [(key, v)]
  | (k, w) :: entries =>
    if key < k then (key, v) :: (k, w) :: entries
    else if key = k then (key, v) :: entries
    else (k, w) :: putEntry key v entries

/-- The keys after one more entry are those before and the new one. -/
theorem mem_keys_putEntry (key : String) (v : Json) (entries : List (String × Json))
    (k : String) :
    k ∈ (putEntry key v entries).map (·.1) ↔ k = key ∨ k ∈ entries.map (·.1) := by
  induction entries with
  | nil => simp [putEntry]
  | cons entry entries ih =>
    obtain ⟨l, w⟩ := entry
    unfold putEntry
    split
    · simp
    · split
      · next h => subst h; simp
      · simp only [List.map_cons, List.mem_cons, ih]
        exact or_left_comm

/-- Sorted entries with distinct keys stay so. -/
theorem putEntry_sorted (key : String) (v : Json) {entries : List (String × Json)}
    (h : (entries.map (·.1)).Pairwise (· < ·)) :
    ((putEntry key v entries).map (·.1)).Pairwise (· < ·) := by
  induction entries with
  | nil => simp [putEntry]
  | cons entry entries ih =>
    obtain ⟨l, w⟩ := entry
    have hl := List.pairwise_cons.1 h
    unfold putEntry
    split
    · next hlt =>
      refine List.pairwise_cons.2 ⟨fun k hk => ?_, h⟩
      rcases List.mem_cons.1 hk with rfl | hk
      · exact hlt
      · exact String.lt_trans hlt (hl.1 k hk)
    · next hlt =>
      split
      · next he =>
        subst he
        exact h
      · next hne =>
        refine List.pairwise_cons.2 ⟨fun k hk => ?_, ih hl.2⟩
        rcases (mem_keys_putEntry key v entries k).1 hk with rfl | hk
        · exact Decidable.byContradiction fun hgt =>
            hne (String.le_antisymm (String.not_lt.1 hgt) (String.not_lt.1 hlt))
        · exact hl.1 k hk

/-- Goes to the key of the next entry of an object and over its opening quote; none if the
object ends. -/
def nextKey {bound : Nat} (first : Bool) (text : List Char) (h : text.length ≤ bound) :
    Except Fault (Step Bool bound) :=
  match hs : skipSpace text with
  | [] => .error (.within (.unfinished .object) [])
  | c :: unread =>
    have lt := length_of_skipSpace hs
    if c = '\x7d' then .ok ⟨false, unread, by omega⟩
    else if first then
      if c = '"' then .ok ⟨true, unread, by omega⟩
      else .error (.within .keyNotString (c :: unread))
    else if c = ',' then
      match ho : skipSpace unread with
      | [] => .error (.within (.unfinished .value) [])
      | d :: after =>
        have := length_of_skipSpace ho
        if d = '"' then .ok ⟨true, after, by omega⟩
        else if d = '\x7d' then .error (.within .trailingComma (d :: after))
        else .error (.within .keyNotString (d :: after))
    else .error (.within .expectedEntryEnd (c :: unread))

/-- Reads the colon after a key. -/
def colon : Reader Unit := fun text =>
  match h : skipSpace text with
  | [] => .error (.within (.unfinished .object) [])
  | c :: unread =>
    if c = ':' then .ok ⟨(), unread, length_of_skipSpace h⟩
    else .error (.within .expectedColon (c :: unread))

/-- Reads the entries of an object up to its closing brace, and the brace. -/
def entries {bound : Nat} (value : Reader Json) (first : Bool) (read : List (String × Json))
    (text : List Char) (h : text.length < bound) :
    Except Fault (Step (List (String × Json)) bound) :=
  match nextKey first text (Nat.le_refl text.length) with
  | .error fault => .error fault
  | .ok ⟨false, unread, lt⟩ => .ok ⟨read, unread, Nat.lt_trans lt h⟩
  | .ok ⟨true, unread, lt⟩ =>
    match afterQuote unread with
    | .error fault => .error fault
    | .ok key =>
      match colon key.unread with
      | .error fault => .error fault
      | .ok mark =>
        match value mark.unread with
        | .error fault => .error fault
        | .ok step =>
          have := key.shorter
          have := mark.shorter
          have := step.shorter
          entries value false (putEntry key.value step.value read) step.unread (by omega)
termination_by text.length

/-- Reads a value of any shape, given the reader of what is inside its brackets. -/
def readAny (inside : Option (Reader Json)) : Reader Json := fromToken fun c unread =>
  if c = 'n' then
    (spell ['u', 'l', 'l'] unread (length_lt_succ _)).map (Step.map fun _ => .null)
  else if c = 't' then
    (spell ['r', 'u', 'e'] unread (length_lt_succ _)).map (Step.map fun _ => .bool true)
  else if c = 'f' then
    (spell ['a', 'l', 's', 'e'] unread (length_lt_succ _)).map (Step.map fun _ => .bool false)
  else if c = '-' ∨ c.isDigit then (number (c :: unread)).map (Step.map .num)
  else if c = '"' then (afterQuote unread).map (Step.map .str)
  else if c = '[' then
    match inside with
    | none => .error (.within .tooDeep (c :: unread))
    | some value =>
      (items value true [] unread (length_lt_succ _)).map (Step.map .arr)
  else if c = '\x7b' then
    match inside with
    | none => .error (.within .tooDeep (c :: unread))
    | some value =>
      (entries value true [] unread (length_lt_succ _)).map (Step.map .obj)
  else .error (.within .expectedValue (c :: unread))

/-- Reads a value of any shape in which at most `depth` brackets are open at once. -/
def readValue : (depth : Nat) → Reader Json
  | 0 => readAny none
  | depth + 1 => readAny (some (readValue depth))

/-! ### Records -/

/-- A field of a record: its name, whether a record must have it, and the reader of its
value, which answers how the value changes a record that lacks it. -/
structure Slot (ρ : Type) where
  name : String
  required : Bool
  read : Reader (ρ → ρ)

namespace Slot

/-- A slot for a text. -/
def string {ρ : Type} (name : String) (required : Bool) (put : String → ρ → ρ) : Slot ρ :=
  ⟨name, required, readString.map put⟩

/-- A slot for a truth value, which may be left out. -/
def bool {ρ : Type} (name : String) (put : Bool → ρ → ρ) : Slot ρ :=
  ⟨name, false, readBool.map put⟩

/-- A slot for a list, which may be left out. -/
def list {ρ α : Type} (name : String) (read : Reader (List α)) (put : List α → ρ → ρ) : Slot ρ :=
  ⟨name, false, read.map put⟩

end Slot

/-- What must follow after all fields of a record that is written as a list. -/
def listEnd {bound : Nat} (text : List Char) (h : text.length ≤ bound) :
    Except Fault (Step Unit bound) :=
  match hs : skipSpace text with
  | [] => .error (.within (.unfinished .list) [])
  | c :: unread =>
    have lt := length_of_skipSpace hs
    if c = ']' then .ok ⟨(), unread, by omega⟩
    else if c = ',' then
      match skipSpace unread with
      | [] => .error (.within .trailingCharacters [])
      | d :: after =>
        .error (.within (if d = ']' then .trailingComma else .trailingCharacters) (d :: after))
    else .error (.within .trailingCharacters (c :: unread))

/-- Reads the fields of a record that is written as a list, in their order. The fields at
the end may be left out if they have defaults. -/
def listedFields {ρ : Type} {bound : Nat} (title : String) (count : Nat) (index : Nat)
    (slots : List (Slot ρ)) (r : ρ) (text : List Char) (h : text.length ≤ bound) :
    Except Fault (Step ρ bound) :=
  match slots with
  | [] => (listEnd text h).map (Step.map fun _ => r)
  | slot :: slots =>
    match hs : skipSpace text with
    | [] => .error (.within (.unfinished .list) [])
    | c :: unread =>
      have lt := length_of_skipSpace hs
      have le := length_skipSpace text
      if c = ']' then
        match (slot :: slots).findIdx? (·.required) with
        | some i => .error (.before (.wrongLength (index + i) title count) unread)
        | none => .ok ⟨r, unread, by omega⟩
      else if index = 0 then
        match slot.read (c :: unread) with
        | .error fault => .error fault
        | .ok step =>
          have := step.shorter
          listedFields title count (index + 1) slots (step.value r) step.unread
            (by rw [hs] at le; omega)
      else if c = ',' then
        match ho : skipSpace unread with
        | [] => .error (.within (.unfinished .value) [])
        | d :: after =>
          have le' := length_skipSpace unread
          if d = ']' then .error (.within .trailingComma (d :: after))
          else
            match slot.read (d :: after) with
            | .error fault => .error fault
            | .ok step =>
              have := step.shorter
              listedFields title count (index + 1) slots (step.value r) step.unread
                (by rw [ho] at le'; omega)
      else .error (.within .expectedItemEnd (c :: unread))

/-- What is wrong with a field that comes a second time. It shows before the text that
goes on the record, or after the brace that ends it. -/
def duplicateField (name : String) (text : List Char) : Fault :=
  match skipSpace text with
  | '\x7d' :: unread => .before (.duplicateField name) unread
  | unread => .before (.duplicateField name) unread

/-- Reads the fields of a record with their names, in any order, up to its closing brace,
and the brace. Of fields that are none of its own it skips the values. -/
def namedFields {ρ : Type} {bound : Nat} (slots : List (Slot ρ)) (seen : List String) (r : ρ)
    (first : Bool) (text : List Char) (h : text.length < bound) : Except Fault (Step ρ bound) :=
  match nextKey first text (Nat.le_refl text.length) with
  | .error fault => .error fault
  | .ok ⟨false, unread, lt⟩ =>
    match slots.find? fun slot => slot.required && !seen.contains slot.name with
    | some slot => .error (.before (.missingField slot.name) unread)
    | none => .ok ⟨r, unread, Nat.lt_trans lt h⟩
  | .ok ⟨true, unread, lt⟩ =>
    match afterQuote unread with
    | .error fault => .error fault
    | .ok key =>
      have := key.shorter
      match slots.find? (·.name == key.value) with
      | none =>
        match colon key.unread with
        | .error fault => .error fault
        | .ok mark =>
          match skipRest .value [] mark.unread (length_lt_succ _) with
          | .error fault => .error fault
          | .ok step =>
            have := mark.shorter
            have := step.shorter
            namedFields slots seen r false step.unread (by omega)
      | some slot =>
        if seen.contains slot.name then .error (duplicateField slot.name key.unread)
        else
          match colon key.unread with
          | .error fault => .error fault
          | .ok mark =>
            match slot.read mark.unread with
            | .error fault => .error fault
            | .ok step =>
              have := mark.shorter
              have := step.shorter
              namedFields slots (slot.name :: seen) (step.value r) false step.unread (by omega)
termination_by text.length

/-- Reads a record, which begins as `blank`: an object with its fields, or a list of their
values. No slots at all means that no bracket may be opened. -/
def readRecord {ρ : Type} (title : String) (blank : ρ) (inside : Option (List (Slot ρ))) :
    Reader ρ := fromToken fun c unread =>
  if c = '[' ∨ c = '\x7b' then
    match inside with
    | none => .error (.within .tooDeep (c :: unread))
    | some slots =>
      if c = '[' then listedFields title slots.length 0 slots blank unread (length_le_succ _)
      else namedFields slots [] blank true unread (length_lt_succ _)
  else .error (wrongType ("struct " ++ title) (c :: unread))

/-- Reads a list of texts. -/
def readStrings (depth : Nat) : Reader (List String) := readList (inside (fun _ => readString) depth)

/-! ### Whole texts -/

/-- How many brackets may be open at once in a text. -/
def depthLimit : Nat := 127

/-- Reads a whole text, after which only blanks may follow. -/
def readAll {α : Type} (reader : Reader α) (text : String) : Except Fault α := do
  let step ← reader text.toList
  match skipSpace step.unread with
  | [] => pure step.value
  | c :: unread => .error (.within .trailingCharacters (c :: unread))

end ApiTypings.Json
