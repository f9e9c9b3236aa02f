import ApiTypings.Proofs.Json.Parts
import ApiTypings.Proofs.Json.Tokens

/-!
# Reading values that were written

The loops over the items of a list and over the entries of an object go step by step: an item is
read from where it begins (`Begins`) and then the others, up to the bracket that closes the list
(**`answers_items`**); an entry is put behind those with lesser keys (`putEntry_of_lt`), so that
entries that are sorted by their keys come back in their order (**`answers_entries`**). By induction
a value of any shape is then read as it is written (**`reads_value`**), as long as it holds no
doubles and opens no more brackets than may be open.
-/

namespace ApiTypings.Json

variable {α : Type} {bound : Nat} {a : α} {rest : List Char}

/-- A text that a value can begin: no blank stands before it, and it does not close a list. -/
def Begins (text : List Char) : Prop := ∃ c cs, text = c :: cs ∧ isSpace c = false ∧ c ≠ ']'

/-! ### Lists -/

theorem answers_items_end {item : Reader α} {first : Bool} {read : List α}
    (h : (']' :: rest).length < bound) :
    Answers (items item first read (']' :: rest) h) read.reverse rest := by
  rw [items]
  exact ⟨Nat.lt_of_succ_lt h, rfl⟩

/-- The first item is read, and then the others. -/
theorem answers_items_first {item : Reader α} {read as : List α} {text unread : List Char}
    (hb : Begins text) (hi : Answers (item text) a unread) (h : text.length < bound)
    (hrest : ∀ h' : unread.length < bound,
      Answers (items item false (a :: read) unread h') as rest) :
    Answers (items item true read text h) as rest := by
  obtain ⟨c, cs, rfl, hc, hne⟩ := hb
  obtain ⟨shorter, hstep⟩ := hi
  rw [items]
  split
  · next hs =>
    rw [skipSpace_cons hc] at hs
    cases hs
  · next hs =>
    rw [skipSpace_cons hc] at hs
    cases hs
    simp only [hne, if_false, if_true, hstep]
    exact hrest _

/-- Another item is read, and then the others. -/
theorem answers_items_next {item : Reader α} {read as : List α} {text unread : List Char}
    (hb : Begins text) (hi : Answers (item text) a unread) (h : (',' :: text).length < bound)
    (hrest : ∀ h' : unread.length < bound,
      Answers (items item false (a :: read) unread h') as rest) :
    Answers (items item false read (',' :: text) h) as rest := by
  obtain ⟨c, cs, rfl, hc, hne⟩ := hb
  obtain ⟨shorter, hstep⟩ := hi
  have hcomma : ',' ≠ ']' := by decide
  rw [items]
  split
  · next hs =>
    rw [skipSpace_cons rfl] at hs
    cases hs
  · next hs =>
    rw [skipSpace_cons rfl] at hs
    cases hs
    simp only [hcomma, Bool.false_eq_true, if_false, if_true]
    split
    · next ho =>
      rw [skipSpace_cons hc] at ho
      cases ho
    · next ho =>
      rw [skipSpace_cons hc] at ho
      cases ho
      simp only [hne, if_false, hstep]
      exact hrest _

theorem Begins.append {text : List Char} (hb : Begins text) (rest : List Char) :
    Begins (text ++ rest) := by
  obtain ⟨c, cs, rfl, hc, hne⟩ := hb
  exact ⟨c, cs ++ rest, rfl, hc, hne⟩

theorem ended_itemChars (vs : List Json) (rest : List Char) :
    Ended (itemChars false vs ++ rest) := by
  cases vs with
  | nil => exact .bracket _
  | cons v vs => exact .comma _

/-- **The items of a list are read as they are written** if each of them is. -/
theorem answers_items {item : Reader α} {f : α → Json} {as : List α} {vs : List Json}
    (hvs : as.map f = vs) (hitem : ∀ a ∈ as, Begins (f a).chars ∧ Reads item (f a).chars a)
    (first : Bool) (read : List α) (h : (itemChars first vs ++ rest).length < bound) :
    Answers (items item first read (itemChars first vs ++ rest) h) (read.reverse ++ as) rest := by
  induction as generalizing first read vs with
  | nil =>
    subst hvs
    rw [List.append_nil]
    exact answers_items_end h
  | cons a as ih =>
    subst hvs
    obtain ⟨hb, hread⟩ := hitem a List.mem_cons_self
    have hmore := hread _ (ended_itemChars (as.map f) rest)
    have hrest (h' : (itemChars false (as.map f) ++ rest).length < bound) :
        Answers (items item false (a :: read) (itemChars false (as.map f) ++ rest) h')
          (read.reverse ++ a :: as) rest := by
      have hall := ih rfl (fun b hb => hitem b (List.mem_cons_of_mem _ hb)) false (a :: read) h'
      rwa [List.reverse_cons, List.append_assoc, List.singleton_append] at hall
    cases first with
    | true =>
      simp only [List.map_cons, itemChars, separator, if_true, List.nil_append,
        List.append_assoc] at h ⊢
      exact answers_items_first (hb.append _) hmore h hrest
    | false =>
      simp only [List.map_cons, itemChars, separator, Bool.false_eq_true, if_false,
        List.cons_append, List.nil_append, List.append_assoc] at h ⊢
      exact answers_items_next (hb.append _) hmore h hrest

/-! ### Entries -/

theorem answers_nextKey_end (first : Bool) (h : ('\x7d' :: rest).length ≤ bound) :
    Answers (nextKey first ('\x7d' :: rest) h) false rest :=
  ⟨h, rfl⟩

theorem answers_nextKey (first : Bool) (rest : List Char)
    (h : (separator first ++ '"' :: rest).length ≤ bound) :
    Answers (nextKey first (separator first ++ '"' :: rest) h) true rest := by
  cases first with
  | true => exact ⟨h, rfl⟩
  | false => exact ⟨Nat.le_of_succ_le h, rfl⟩

theorem answers_colon (rest : List Char) : Answers (colon (':' :: rest)) () rest :=
  ⟨length_lt_cons ':' rest, rfl⟩

/-- What stands before the value of an entry. -/
def keyChars (first : Bool) (key : String) : List Char := separator first ++ quoted key ++ [':']

theorem entryChars_cons_append (first : Bool) (key : String) (v : Json)
    (es : List (String × Json)) (rest : List Char) :
    entryChars first ((key, v) :: es) ++ rest =
      keyChars first key ++ (v.chars ++ (entryChars false es ++ rest)) := by
  simp [entryChars, keyChars]

/-- What stands before the value of an entry is read in three steps, up to the value. -/
theorem exists_answers_key (first : Bool) (key : String) (text : List Char) : ∃ name mark,
    Answers (nextKey first (keyChars first key ++ text) (Nat.le_refl _)) true name ∧
      Answers (afterQuote name) key mark ∧ Answers (colon mark) () text := by
  have htext : keyChars first key ++ text =
      separator first ++ '"' :: (key.toList.flatMap escaped ++ '"' :: ':' :: text) := by
    simp [keyChars, quoted]
  rw [htext]
  exact ⟨_, _, answers_nextKey first _ (Nat.le_refl _), answers_afterQuote key _,
    answers_colon text⟩

/-- An entry is read, and then the others. -/
theorem answers_entries_entry {value : Reader Json} {read es : List (String × Json)} {v : Json}
    {text unread : List Char} (first : Bool) (key : String) (hv : Answers (value text) v unread)
    (h : (keyChars first key ++ text).length < bound)
    (hrest : ∀ h' : unread.length < bound,
      Answers (entries value false (putEntry key v read) unread h') es rest) :
    Answers (entries value first read (keyChars first key ++ text) h) es rest := by
  obtain ⟨name, mark, ⟨_, hkey⟩, ⟨_, hname⟩, ⟨_, hcolon⟩⟩ := exists_answers_key first key text
  obtain ⟨_, hvalue⟩ := hv
  rw [entries]
  simp only [hkey, hname, hcolon, hvalue]
  exact hrest _

/-- An entry with the greatest key comes behind all others. -/
theorem putEntry_of_lt {key : String} {v : Json} {es : List (String × Json)}
    (h : ∀ e ∈ es, e.1 < key) : putEntry key v es = es ++ [(key, v)] := by
  induction es with
  | nil => rfl
  | cons e es ih =>
    obtain ⟨k, w⟩ := e
    have hk : k < key := h (k, w) List.mem_cons_self
    have hne : key ≠ k := fun he => String.lt_irrefl key (he ▸ hk)
    have hlt : ¬ key < k := fun hlt => String.lt_irrefl k (String.lt_trans hk hlt)
    rw [putEntry, if_neg hlt, if_neg hne, ih fun e he => h e (List.mem_cons_of_mem _ he)]
    rfl

theorem ended_entryChars (es : List (String × Json)) (rest : List Char) :
    Ended (entryChars false es ++ rest) := by
  cases es with
  | nil => exact .brace _
  | cons e es => exact .comma _

/-- **The entries of an object are read as they are written**, if they are sorted by their keys and
the value of each is read. -/
theorem answers_entries {value : Reader Json} (es : List (String × Json))
    (hvalue : ∀ e ∈ es, Reads value e.2.chars e.2) (first : Bool) (read : List (String × Json))
    (hs : ((read ++ es).map (·.1)).Pairwise (· < ·))
    (h : (entryChars first es ++ rest).length < bound) :
    Answers (entries value first read (entryChars first es ++ rest) h) (read ++ es) rest := by
  induction es generalizing first read with
  | nil =>
    rw [entries, List.append_nil]
    exact ⟨Nat.lt_of_succ_lt h, rfl⟩
  | cons e es ih =>
    obtain ⟨key, v⟩ := e
    have hlt : ∀ e ∈ read, e.1 < key := by
      rw [List.map_append, List.pairwise_append] at hs
      exact fun e he => hs.2.2 e.1 (List.mem_map_of_mem he) key List.mem_cons_self
    have happend : read ++ (key, v) :: es = putEntry key v read ++ es := by
      rw [putEntry_of_lt hlt, List.append_assoc, List.singleton_append]
    rw [happend] at hs ⊢
    have hv := hvalue (key, v) List.mem_cons_self _ (ended_entryChars es rest)
    simp only [entryChars_cons_append] at h ⊢
    exact answers_entries_entry first key hv h fun h' =>
      ih (fun e he => hvalue e (List.mem_cons_of_mem _ he)) false _ hs h'

/-! ### Values of any shape -/

theorem readValue_eq (depth : Nat) : readValue depth = readAny (inside readValue depth) := by
  cases depth <;> rfl

theorem begins_quoted (s : String) : Begins (quoted s) := ⟨'"', _, rfl, rfl, by decide⟩

theorem begins_arr (items : List Json) : Begins (arr items).chars := ⟨'[', _, rfl, rfl, by decide⟩

theorem begins_obj (entries : List (String × Json)) : Begins (obj entries).chars :=
  ⟨'\x7b', _, rfl, rfl, by decide⟩

/-- The text of a value that is no double begins with one of its tokens. -/
theorem begins_chars {v : Json} (hd : v.isDouble = false) : Begins v.chars := by
  cases v with
  | null => exact ⟨'n', _, rfl, rfl, by decide⟩
  | bool b =>
    cases b with
    | true => exact ⟨'t', _, rfl, rfl, by decide⟩
    | false => exact ⟨'f', _, rfl, rfl, by decide⟩
  | num n =>
    cases n with
    | whole i fits =>
      obtain ⟨c, cs, hcs, hc⟩ := exists_chars_whole fits
      refine ⟨c, cs, hcs, isSpace_of_number hc, ?_⟩
      rintro rfl
      exact absurd hc (by decide)
    | double x => cases hd
  | str s => exact begins_quoted s
  | arr items => exact begins_arr items
  | obj entries => exact begins_obj entries

theorem chars_str_append (s : String) (rest : List Char) :
    (str s).chars ++ rest = '"' :: (s.toList.flatMap escaped ++ '"' :: rest) := by
  simp [chars, quoted]

/-- A number is told from the other values by its first character. -/
theorem reads_readAny_number {i : Int} (fits : leastWhole ≤ i ∧ i ≤ greatestWhole)
    (inside : Option (Reader Json)) :
    Reads (readAny inside) (num (.whole i fits)).chars (num (.whole i fits)) := by
  intro rest hr
  obtain ⟨c, cs, hcs, hc⟩ := exists_chars_whole fits
  have hread := reads_number fits rest hr
  have hne {letter : Char} (hl : ¬ (letter = '-' ∨ letter.isDigit = true)) : c ≠ letter :=
    fun he => hl (he ▸ hc)
  rw [hcs] at hread
  rw [chars, hcs]
  refine fromToken_cons (isSpace_of_number hc) ?_
  rw [if_neg (hne (by decide)), if_neg (hne (by decide)), if_neg (hne (by decide)), if_pos hc]
  exact hread.map num

/-- **A value is read as it is written**, if it holds no doubles, its objects are sorted by their
keys and as many brackets may be open as it opens. -/
theorem reads_value {v : Json} (hv : ∀ w ∈ v.parts, w.Legible) {depth : Nat}
    (hd : v.depth ≤ depth) : Reads (readValue depth) v.chars v := by
  rw [readValue_eq]
  induction v using induction generalizing depth with
  | null =>
    intro rest hr
    exact fromToken_cons rfl ((answers_spell ['u', 'l', 'l'] (length_lt_succ _)).map _)
  | bool b =>
    intro rest hr
    cases b with
    | true => exact fromToken_cons rfl ((answers_spell ['r', 'u', 'e'] (length_lt_succ _)).map _)
    | false =>
      exact fromToken_cons rfl ((answers_spell ['a', 'l', 's', 'e'] (length_lt_succ _)).map _)
  | num n =>
    cases n with
    | whole i fits => exact reads_readAny_number fits _
    | double x => exact absurd (hv _ (self_mem_parts _)).1 Bool.noConfusion
  | str s =>
    intro rest hr
    rw [chars_str_append]
    exact fromToken_cons rfl ((answers_afterQuote s rest).map str)
  | arr items ih =>
    -- the bracket is one of those that may be open, and the items have the others
    obtain ⟨m, rfl, hm⟩ := depth_arr_le_iff.1 hd
    have hitem (v : Json) (hmem : v ∈ items) :
        Begins (id v).chars ∧ Reads (readValue m) (id v).chars v := by
      have hparts := legible_parts_of_mem_items hv hmem
      refine ⟨begins_chars (hparts v (self_mem_parts v)).1, ?_⟩
      rw [readValue_eq]
      exact ih v hmem hparts (hm v hmem)
    intro rest hr
    rw [chars, List.cons_append]
    refine fromToken_cons rfl ?_
    exact (answers_items (List.map_id items) hitem true [] (length_lt_succ _)).map arr
  | obj entries ih =>
    obtain ⟨m, rfl, hm⟩ := depth_obj_le_iff.1 hd
    have hentry (e : String × Json) (hmem : e ∈ entries) : Reads (readValue m) e.2.chars e.2 := by
      rw [readValue_eq]
      exact ih e hmem (legible_parts_of_mem_entries hv hmem) (hm e hmem)
    intro rest hr
    rw [chars, List.cons_append]
    refine fromToken_cons rfl ?_
    exact (answers_entries entries hentry true [] (hv _ (self_mem_parts _)).2
      (length_lt_succ _)).map obj

end ApiTypings.Json
