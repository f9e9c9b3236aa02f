import ApiTypings.Proofs.Json.Values

/-!
# Reading records that were written

A record is written as an object with its fields. Read again, each field finds its slot by its
name, no name comes twice, and no required field is missing: then the fields fill the record
(`Fills`), one after the other, and the record is read as it is written (**`reads_record`**). What
may be written after the colon of a field is a text, a truth value, a list (`reads_list`) or another
record.
-/

namespace ApiTypings.Json

variable {α ρ : Type} {bound : Nat} {rest : List Char}

/-! ### Texts and truth values -/

theorem reads_string (s : String) : Reads readString (str s).chars s := by
  intro rest hr
  rw [chars_str_append]
  exact fromToken_cons rfl (answers_afterQuote s rest)

theorem reads_stringOrNull (s : String) : Reads readStringOrNull (str s).chars (some s) := by
  intro rest hr
  rw [chars_str_append]
  exact fromToken_cons rfl ((answers_afterQuote s rest).map some)

theorem reads_bool (b : Bool) : Reads readBool (bool b).chars b := by
  intro rest hr
  cases b with
  | true => exact fromToken_cons rfl ((answers_spell ['r', 'u', 'e'] (length_lt_succ _)).map _)
  | false =>
    exact fromToken_cons rfl ((answers_spell ['a', 'l', 's', 'e'] (length_lt_succ _)).map _)

/-! ### Lists -/

/-- **A list is read as it is written** if its items are, where a bracket may still be opened. -/
theorem reads_list {reader : Nat → Reader α} {f : α → Json} {as : List α} {depth : Nat}
    (hd : (arr (as.map f)).depth ≤ depth) (hbegins : ∀ a ∈ as, Begins (f a).chars)
    (hitem : ∀ a ∈ as, ∀ m, (f a).depth ≤ m → Reads (reader m) (f a).chars a) :
    Reads (readList (inside reader depth)) (arr (as.map f)).chars as := by
  obtain ⟨m, rfl, hm⟩ := depth_arr_le_iff.1 hd
  have hitems (a : α) (ha : a ∈ as) : Begins (f a).chars ∧ Reads (reader m) (f a).chars a :=
    ⟨hbegins a ha, hitem a ha m (hm (f a) (List.mem_map_of_mem ha))⟩
  intro rest hr
  rw [chars, List.cons_append]
  refine fromToken_cons rfl ?_
  exact answers_items rfl hitems true [] (length_lt_succ _)

/-! ### Records -/

/-- **The entries of an object fill a record**, of which the fields with the names in `seen` are
there: each finds the slot of its name, which is none of those, and in the end no required field is
missing. -/
inductive Fills (slots : List (Slot ρ)) : List String → ρ → List (String × Json) → ρ → Prop
  | done {seen : List String} {r : ρ} :
      (slots.find? fun slot => slot.required && !seen.contains slot.name) = none →
      Fills slots seen r [] r
  | field {seen : List String} {r r' : ρ} {key : String} {v : Json} {es : List (String × Json)}
      {slot : Slot ρ} {put : ρ → ρ} :
      slots.find? (·.name == key) = some slot → seen.contains slot.name = false →
      Reads slot.read v.chars put → Fills slots (slot.name :: seen) (put r) es r' →
      Fills slots seen r ((key, v) :: es) r'

theorem answers_namedFields_end {slots : List (Slot ρ)} {seen : List String} {r : ρ} (first : Bool)
    (hnone : (slots.find? fun slot => slot.required && !seen.contains slot.name) = none)
    (h : ('\x7d' :: rest).length < bound) :
    Answers (namedFields slots seen r first ('\x7d' :: rest) h) r rest := by
  obtain ⟨_, hend⟩ := answers_nextKey_end first (Nat.le_refl ('\x7d' :: rest).length)
  refine ⟨Nat.lt_of_succ_lt h, ?_⟩
  rw [namedFields]
  simp only [hend, hnone]

/-- A field is read into its slot, and then the others. -/
theorem answers_namedFields_field {slots : List (Slot ρ)} {slot : Slot ρ} {seen : List String}
    {r r' : ρ} {key : String} {put : ρ → ρ} {text unread : List Char} (first : Bool)
    (hslot : slots.find? (·.name == key) = some slot) (hseen : seen.contains slot.name = false)
    (hread : Answers (slot.read text) put unread)
    (h : (keyChars first key ++ text).length < bound)
    (hrest : ∀ h' : unread.length < bound,
      Answers (namedFields slots (slot.name :: seen) (put r) false unread h') r' rest) :
    Answers (namedFields slots seen r first (keyChars first key ++ text) h) r' rest := by
  obtain ⟨name, mark, ⟨_, hkey⟩, ⟨_, hname⟩, ⟨_, hcolon⟩⟩ := exists_answers_key first key text
  obtain ⟨_, hvalue⟩ := hread
  rw [namedFields]
  simp only [hkey, hname, hslot, hseen, hcolon, hvalue, Bool.false_eq_true, if_false]
  exact hrest _

/-- **The fields of a record are read as they are written.** -/
theorem Fills.answers {slots : List (Slot ρ)} {seen : List String} {r r' : ρ}
    {es : List (String × Json)} (hf : Fills slots seen r es r') (first : Bool)
    (h : (entryChars first es ++ rest).length < bound) :
    Answers (namedFields slots seen r first (entryChars first es ++ rest) h) r' rest := by
  induction hf generalizing first with
  | done hnone => exact answers_namedFields_end first hnone h
  | @field seen r r' key v es slot put hslot hseen hread _ ih =>
    have hv := hread _ (ended_entryChars es rest)
    simp only [entryChars_cons_append] at h ⊢
    exact answers_namedFields_field first hslot hseen hv h (ih false)

/-- **A record is read as it is written.** -/
theorem reads_record {title : String} {blank r : ρ} {slots : List (Slot ρ)}
    {es : List (String × Json)} (hf : Fills slots [] blank es r) :
    Reads (readRecord title blank (some slots)) (obj es).chars r := by
  intro rest hr
  rw [chars, List.cons_append]
  refine fromToken_cons rfl ?_
  exact hf.answers true (length_lt_succ _)

end ApiTypings.Json
