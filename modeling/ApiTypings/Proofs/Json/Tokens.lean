import ApiTypings.Json.Read
import ApiTypings.Json.Text
import Mathlib.Tactic.SplitIfs

/-!
# Reading tokens that were written

What a reader makes of a text that was written for it. A reader answers with a value and what is
left of the text (`Answers`), and it reads a text as a value if it does so whatever follows the text
(`Reads`). Only what may follow a value matters for that (`Ended`), because the end of a number
shows in the next character alone.

The words of a text are read (`answers_spell`), its numbers as long as they are whole
(**`answers_number`**) and what stands within quotes, however it is escaped
(**`answers_afterQuote`**).
-/

namespace ApiTypings.Json

/-- The outcome of reading is a value, and what is left of the text. -/
def Answers {α : Type} {bound : Nat} (outcome : Except Fault (Step α bound)) (a : α)
    (rest : List Char) : Prop :=
  ∃ shorter, outcome = .ok ⟨a, rest, shorter⟩

/-- What may follow a value: nothing, a comma or what closes a bracket. -/
inductive Ended : List Char → Prop
  | nil : Ended []
  | comma (cs : List Char) : Ended (',' :: cs)
  | bracket (cs : List Char) : Ended (']' :: cs)
  | brace (cs : List Char) : Ended ('\x7d' :: cs)

/-- **A reader reads a text as a value**, whatever follows. -/
def Reads {α : Type} (reader : Reader α) (text : List Char) (a : α) : Prop :=
  ∀ rest, Ended rest → Answers (reader (text ++ rest)) a rest

variable {α β : Type} {bound : Nat} {a : α} {rest : List Char}

theorem Answers.map {outcome : Except Fault (Step α bound)} (h : Answers outcome a rest)
    (f : α → β) : Answers (outcome.map (Step.map f)) (f a) rest := by
  obtain ⟨shorter, rfl⟩ := h
  exact ⟨shorter, rfl⟩

theorem Reads.map {reader : Reader α} {text : List Char} (h : Reads reader text a) (f : α → β) :
    Reads (reader.map f) text (f a) :=
  fun rest hr => (h rest hr).map f

/-! ### Blanks and words -/

theorem skipSpace_cons {c : Char} {cs : List Char} (hc : isSpace c = false) :
    skipSpace (c :: cs) = c :: cs :=
  List.dropWhile_cons_of_neg (by rw [hc]; exact Bool.false_ne_true)

/-- From a token on, a reader goes on with the characters of the token. -/
theorem fromToken_cons
    {read : (c : Char) → (unread : List Char) → Except Fault (Step α (unread.length + 1))}
    {c : Char} {cs : List Char} (hc : isSpace c = false) (h : Answers (read c cs) a rest) :
    Answers (fromToken read (c :: cs)) a rest := by
  obtain ⟨shorter, he⟩ := h
  unfold fromToken
  split
  · next hs =>
    rw [skipSpace_cons hc] at hs
    cases hs
  · next d ds hs =>
    rw [skipSpace_cons hc] at hs
    cases hs
    exact ⟨shorter, by rw [he]; rfl⟩

theorem answers_spell (letters : List Char) (h : (letters ++ rest).length < bound) :
    Answers (spell letters (letters ++ rest) h) () rest := by
  induction letters generalizing bound with
  | nil => exact ⟨h, by simp [spell]⟩
  | cons letter letters ih =>
    simp only [List.cons_append, spell, if_true]
    exact ih _

/-! ### Numbers -/

theorem leadingDigits_of_ended (h : Ended rest) : leadingDigits rest = [] := by
  cases h <;> rfl

theorem leadingDigits_append {digits : List Char} (hd : ∀ c ∈ digits, c.isDigit = true)
    (hr : Ended rest) : leadingDigits (digits ++ rest) = digits := by
  have hrest := leadingDigits_of_ended hr
  rw [leadingDigits] at hrest ⊢
  rw [List.takeWhile_append_of_pos hd, hrest, List.append_nil]

theorem afterDigits_append {digits : List Char} (hd : ∀ c ∈ digits, c.isDigit = true)
    (hr : Ended rest) : afterDigits (digits ++ rest) = rest := by
  have hrest : afterDigits rest = rest := by cases hr <;> rfl
  rw [afterDigits] at hrest ⊢
  rw [List.dropWhile_append_of_pos hd, hrest]

/-- No zero stands before another digit. -/
theorem head?_toDigits_ne {n : Nat} (h : 0 < n) : (Nat.toDigits 10 n).head? ≠ some '0' := by
  induction n using Nat.strongRecOn with
  | ind n ih =>
    by_cases hn : n < 10
    · have hdigit : ∀ m < 10, 0 < m → [Nat.digitChar m].head? ≠ some '0' := by decide
      rw [Nat.toDigits_of_lt_base hn]
      exact hdigit n hn h
    · have hpos : 0 < n / 10 := by omega
      have hlt : n / 10 < n := by omega
      rw [Nat.toDigits_of_base_le (by decide) (by omega), List.head?_append]
      cases hd : (Nat.toDigits 10 (n / 10)).head? with
      | none => exact absurd (List.head?_eq_none_iff.1 hd) Nat.toDigits_ne_nil
      | some c =>
        have hc := ih (n / 10) hlt hpos
        rw [hd] at hc
        simpa using hc

theorem isDigit_of_mem_toDigits {n : Nat} : ∀ c ∈ Nat.toDigits 10 n, c.isDigit = true :=
  fun _ hc => Nat.isDigit_of_mem_toDigits (by decide) (by decide) hc

theorem answers_wholeDigits (n : Nat) (hr : Ended rest) :
    Answers (wholeDigits (Nat.toDigits 10 n ++ rest)) (Nat.toDigits 10 n) rest := by
  rcases Nat.eq_zero_or_pos n with rfl | hn
  · have hread : wholeDigits ('0' :: rest) = .ok ⟨['0'], rest, length_lt_cons '0' rest⟩ := by
      simp [wholeDigits, leadingDigits_of_ended hr]
    exact ⟨_, hread⟩
  · have hzero := head?_toDigits_ne hn
    have hdigits := isDigit_of_mem_toDigits (n := n)
    cases hd : Nat.toDigits 10 n with
    | nil => exact absurd hd Nat.toDigits_ne_nil
    | cons c cs =>
      rw [hd] at hzero hdigits
      have hc : c ≠ '0' := fun he => hzero (by rw [he]; rfl)
      have hcs : ∀ d ∈ cs, d.isDigit = true := fun d hmem =>
        hdigits d (List.mem_cons_of_mem _ hmem)
      have shorter : rest.length < (c :: cs ++ rest).length := by
        rw [List.length_append, List.length_cons]
        omega
      refine ⟨shorter, ?_⟩
      simp [wholeDigits, hc, hdigits c List.mem_cons_self, leadingDigits_append hcs hr,
        afterDigits_append hcs hr]

theorem answers_fractionDigits (hr : Ended rest) : Answers (fractionDigits rest) none rest := by
  cases hr <;> exact ⟨_, rfl⟩

theorem answers_exponentPart (hr : Ended rest) : Answers (exponentPart rest) none rest := by
  cases hr <;> exact ⟨_, rfl⟩

theorem answers_unsigned {negative : Bool} {n : Nat} {number : Number}
    (hn : numberOf? negative (Nat.toDigits 10 n) none none = some number) (hr : Ended rest) :
    Answers (unsigned negative (Nat.toDigits 10 n ++ rest)) number rest := by
  obtain ⟨hw, whole⟩ := answers_wholeDigits n hr
  obtain ⟨hf, fraction⟩ := answers_fractionDigits hr
  obtain ⟨he, exponent⟩ := answers_exponentPart hr
  refine ⟨hw, ?_⟩
  simp only [unsigned, whole, bind, Except.bind, fraction, exponent]
  rw [hn]

theorem natOfDigits_toDigits (n : Nat) : natOfDigits (Nat.toDigits 10 n) = n :=
  Nat.ofDigitChars_toDigits (by decide) (by decide)

/-- A whole number is read off its digits. -/
theorem numberOf?_toDigits {i : Int} (fits : leastWhole ≤ i ∧ i ≤ greatestWhole) :
    numberOf? (decide (i < 0)) (Nat.toDigits 10 i.natAbs) none none = some (.whole i fits) := by
  have hsign : (if decide (i < 0) = true then -(i.natAbs : Int) else i.natAbs) = i := by
    split
    · next h =>
      have := of_decide_eq_true h
      omega
    · next h =>
      have := mt decide_eq_true h
      omega
  have hzero : (decide (i < 0) && i.natAbs == 0) = false := by
    simp
    omega
  simp only [numberOf?, Option.getD_none, List.append_nil, natOfDigits_toDigits, hzero, hsign,
    Bool.false_eq_true, if_false, Number.ofInt?, dif_pos fits]

/-- A whole number begins with a minus or with a digit. -/
theorem exists_chars_whole {i : Int} (fits : leastWhole ≤ i ∧ i ≤ greatestWhole) :
    ∃ c cs, (Number.whole i fits).chars = c :: cs ∧ (c = '-' ∨ c.isDigit = true) := by
  by_cases hi : i < 0
  · exact ⟨'-', Nat.toDigits 10 i.natAbs, by simp [Number.chars, hi], .inl rfl⟩
  · cases hd : Nat.toDigits 10 i.natAbs with
    | nil => exact absurd hd Nat.toDigits_ne_nil
    | cons c cs =>
      exact ⟨c, cs, by simp [Number.chars, hi, hd],
        .inr (isDigit_of_mem_toDigits c (hd ▸ List.mem_cons_self))⟩

theorem isSpace_of_number {c : Char} (hc : c = '-' ∨ c.isDigit = true) : isSpace c = false := by
  cases hs : isSpace c with
  | false => rfl
  | true =>
    simp only [isSpace, Bool.or_eq_true, decide_eq_true_eq] at hs
    rcases hs with ((rfl | rfl) | rfl) | rfl <;> exact absurd hc (by decide)

/-- **A whole number is read as it is written.** -/
theorem reads_number {i : Int} (fits : leastWhole ≤ i ∧ i ≤ greatestWhole) :
    Reads number (Number.whole i fits).chars (.whole i fits) := by
  intro rest hr
  have hunsigned := answers_unsigned (numberOf?_toDigits fits) hr
  by_cases hi : i < 0
  · obtain ⟨shorter, hread⟩ := hunsigned
    have hchars : (Number.whole i fits).chars = '-' :: Nat.toDigits 10 i.natAbs := by
      rw [Number.chars, if_pos hi, List.singleton_append]
    rw [decide_eq_true hi] at hread
    rw [hchars, List.cons_append]
    refine ⟨Nat.lt_succ_of_lt shorter, ?_⟩
    simp only [number, hread]
    rfl
  · have hchars : (Number.whole i fits).chars = Nat.toDigits 10 i.natAbs := by
      rw [Number.chars, if_neg hi, List.nil_append]
    rw [decide_eq_false hi] at hunsigned
    rw [hchars]
    cases hd : Nat.toDigits 10 i.natAbs with
    | nil => exact absurd hd Nat.toDigits_ne_nil
    | cons c cs =>
      have hc := isDigit_of_mem_toDigits c (hd ▸ List.mem_cons_self)
      rw [hd] at hunsigned
      -- a digit is no minus
      have hread : number (c :: cs ++ rest) = unsigned false (c :: cs ++ rest) := by
        rw [number]
        rintro unread he
        cases he
        cases hc
      rwa [hread]

/-! ### Texts within quotes -/

theorem answers_escape_letter {letter c : Char} (h : letterEscape? letter = some c)
    (rest : List Char) : Answers (escape (letter :: rest)) c rest :=
  ⟨length_lt_cons letter rest, by simp only [escape, h]⟩

/-- A control character is the first half of no pair, and its two digits spell it. -/
theorem answers_escape_control {c : Char} (h : c.toNat < 0x20) (rest : List Char) :
    Answers (escape ('u' :: '0' :: '0' :: hexDigit (c.toNat / 16) :: hexDigit (c.toNat % 16) ::
      rest)) c rest := by
  have hspelt : ∀ n < 0x20, hexNumber? '0' '0' (hexDigit (n / 16)) (hexDigit (n % 16)) = some n ∧
      isLowSurrogate n = false ∧ isHighSurrogate n = false := by decide
  obtain ⟨hnumber, hlow, hhigh⟩ := hspelt c.toNat h
  have hu : letterEscape? 'u' = none := rfl
  refine ⟨by simp only [List.length_cons]; omega, ?_⟩
  simp only [escape, hu, unicodeEscape, hexDigits, hnumber, bind, Except.bind, hlow, hhigh,
    Bool.false_eq_true, if_false, if_true, Step.map, Char.ofNat_toNat]
  rfl

/-- A character is written after a backslash in a way that is read as it, or it is written as it is
and may be. -/
theorem escaped_cases (c : Char) :
    (∃ es, escaped c = '\\' :: es ∧ ∀ rest, Answers (escape (es ++ rest)) c rest) ∨
      escaped c = [c] ∧ c ≠ '"' ∧ c ≠ '\\' ∧ ¬ c.toNat < 0x20 := by
  have hletter (letter c : Char) (h : letterEscape? letter = some c) :
      ∃ es, ['\\', letter] = '\\' :: es ∧ ∀ rest, Answers (escape (es ++ rest)) c rest :=
    ⟨[letter], rfl, answers_escape_letter h⟩
  unfold escaped
  split_ifs with hq hb hbs ht hn hf hr hc
  · exact .inl (hletter _ _ (by rw [hq]; rfl))
  · exact .inl (hletter _ _ (by rw [hb]; rfl))
  · exact .inl (hletter _ _ (by rw [hbs]; rfl))
  · exact .inl (hletter _ _ (by rw [ht]; rfl))
  · exact .inl (hletter _ _ (by rw [hn]; rfl))
  · exact .inl (hletter _ _ (by rw [hf]; rfl))
  · exact .inl (hletter _ _ (by rw [hr]; rfl))
  · exact .inl ⟨_, rfl, answers_escape_control hc⟩
  · exact .inr ⟨rfl, hq, hb, hc⟩

/-- A character is read as it is written within quotes. -/
theorem quotedChars_escaped (c : Char) {read text : List Char}
    (h : (escaped c ++ text).length < bound) (h' : text.length < bound) :
    quotedChars read (escaped c ++ text) h = quotedChars (c :: read) text h' := by
  rcases escaped_cases c with ⟨es, he, hread⟩ | ⟨he, hq, hb, hc⟩
  · obtain ⟨shorter, hstep⟩ := hread text
    simp only [he, List.cons_append]
    rw [quotedChars]
    simp [hstep]
  · simp only [he, List.cons_append, List.nil_append]
    rw [quotedChars]
    simp [hq, hb, hc]

theorem answers_quotedChars (cs rest read : List Char)
    (h : (cs.flatMap escaped ++ '"' :: rest).length < bound) :
    Answers (quotedChars read (cs.flatMap escaped ++ '"' :: rest) h) (read.reverse ++ cs) rest := by
  induction cs generalizing read with
  | nil =>
    refine ⟨Nat.lt_of_succ_lt h, ?_⟩
    simp only [List.flatMap_nil, List.nil_append, List.append_nil]
    rw [quotedChars]
    simp
  | cons c cs ih =>
    simp only [List.flatMap_cons, List.append_assoc] at h ⊢
    have h' : (cs.flatMap escaped ++ '"' :: rest).length < bound := by
      rw [List.length_append] at h
      omega
    rw [quotedChars_escaped c h h']
    have hrest := ih (c :: read) h'
    rwa [List.reverse_cons, List.append_assoc, List.singleton_append] at hrest

/-- **A text is read as it is written within quotes**, up to the closing one. -/
theorem answers_afterQuote (s : String) (rest : List Char) :
    Answers (afterQuote (s.toList.flatMap escaped ++ '"' :: rest)) s rest := by
  have hread := (answers_quotedChars s.toList rest [] (length_lt_succ _)).map String.ofList
  rwa [List.reverse_nil, List.nil_append, String.ofList_toList] at hread

end ApiTypings.Json
