import ApiTypings.Layout.TypeExpr

/-!
# Printed types as words and marks

A printed type is a row of words and marks (`Token`), spelled one after the other
(**`TypeExpr.toList_print`**).

Nothing stands between a word and what follows it, so that a row can be told from its spelling only
if no word follows another one (`Lexical`). For such rows, **`eq_of_spell_eq`**: with the same
spelling, they are the same. The rows of types are such ones, if all names in them are names and
nothing else (`Printable.lexical_tokens`).
-/

namespace ApiTypings

open Layout Piece Text

/-! ### Names -/

/-- A name begins with a letter of ASCII, an underscore or a dollar sign. -/
def isNameStart (c : Char) : Bool := c.isAlpha || c == '_' || c == '$'

/-- In a name, there may be digits besides. -/
def isNameChar (c : Char) : Bool := isNameStart c || c.isDigit

/-- Whether the text is the name of something: written as names are, and no keyword. -/
def isName (s : String) : Bool :=
  match s.toList with
  | [] => false
  | c :: cs => isNameStart c && cs.all isNameChar && Keyword.all.all (·.word != s)

/-- The text is a word. -/
def IsWord (s : String) : Prop := s.toList ≠ [] ∧ ∀ c ∈ s.toList, isNameChar c

theorem isName_iff {s : String} :
    isName s ↔ ∃ c cs, s.toList = c :: cs ∧ isNameStart c ∧ (∀ d ∈ cs, isNameChar d) ∧
      ∀ k : Keyword, s ≠ k.word := by
  have hwords : Keyword.all.all (·.word != s) ↔ ∀ k : Keyword, s ≠ k.word := by
    simp only [List.all_eq_true, bne_iff_ne, ne_eq]
    exact ⟨fun h k hk => h k k.mem_all hk.symm, fun h k _ hk => h k hk.symm⟩
  rw [isName]
  split
  case h_1 h => simp [h]
  case h_2 c cs h =>
    rw [Bool.and_eq_true_iff, Bool.and_eq_true_iff, List.all_eq_true, hwords, h]
    constructor
    · rintro ⟨⟨hc, hcs⟩, hk⟩
      exact ⟨c, cs, rfl, hc, hcs, hk⟩
    · rintro ⟨c', cs', heq, hc, hcs, hk⟩
      obtain ⟨rfl, rfl⟩ := List.cons.inj heq
      exact ⟨⟨hc, hcs⟩, hk⟩

theorem isWord_of_isName {s : String} (h : isName s) : IsWord s := by
  obtain ⟨c, cs, hs, hc, hcs, -⟩ := isName_iff.1 h
  have hc : isNameChar c := by simp [isNameChar, hc]
  exact ⟨hs ▸ List.cons_ne_nil c cs, hs ▸ List.forall_mem_cons.2 ⟨hc, hcs⟩⟩

theorem ne_word_of_isName {s : String} (h : isName s) (k : Keyword) : s ≠ k.word := by
  obtain ⟨-, -, -, -, -, hk⟩ := isName_iff.1 h
  exact hk k

theorem Keyword.isWord_word (k : Keyword) : IsWord k.word := by
  cases k <;> exact ⟨by decide +kernel, List.all_eq_true.1 (by decide +kernel)⟩

/-- All names in the type are names, and its unions and intersections have two parts at least. -/
inductive Printable : TypeExpr → Prop
  | keyword (k : Keyword) : Printable (.keyword k)
  | reference {name : String} {args : List TypeExpr} (hname : isName name)
      (hargs : ∀ arg ∈ args, Printable arg) : Printable (.reference name args)
  | union {parts : List TypeExpr} (htwo : 2 ≤ parts.length)
      (hparts : ∀ part ∈ parts, Printable part) : Printable (.union parts)
  | intersection {parts : List TypeExpr} (htwo : 2 ≤ parts.length)
      (hparts : ∀ part ∈ parts, Printable part) : Printable (.intersection parts)
  | tuple {items : List (TupleItem TypeExpr)}
      (hlabels : ∀ item ∈ items, ∀ label ∈ item.label, isName label)
      (htypes : ∀ item ∈ items, Printable item.type) : Printable (.tuple items)
  | function {params : List Param} {result : TypeExpr} (hnames : ∀ p ∈ params, isName p.name)
      (htypes : ∀ p ∈ params, Printable p.type) (hresult : Printable result) :
      Printable (.function params result)

namespace Layout

/-! ### Words and marks -/

/-- What stands between words. -/
inductive Mark
  | openParen
  | closeParen
  | openAngle
  | closeAngle
  | openBracket
  | closeBracket
  | comma
  | colon
  | bar
  | ampersand
  | arrow
  deriving DecidableEq, Repr

/-- How a mark is spelled. -/
def Mark.text : Mark → String
  | openParen => "("
  | closeParen => ")"
  | openAngle => "<"
  | closeAngle => ">"
  | openBracket => "["
  | closeBracket => "]"
  | comma => ", "
  | colon => ": "
  | bar => " | "
  | ampersand => " & "
  | arrow => " => "

/-- A word or a mark. -/
inductive Token
  | word (s : String)
  | mark (m : Mark)
  deriving DecidableEq, Repr

/-- How a word or a mark is spelled. -/
def Token.text : Token → String
  | word s => s
  | mark m => m.text

/-- How words and marks in a row are spelled. -/
def spell (ts : List Token) : List Char := ts.flatMap (·.text.toList)

@[simp] theorem spell_nil : spell [] = [] := rfl

@[simp] theorem spell_cons (t : Token) (ts : List Token) :
    spell (t :: ts) = t.text.toList ++ spell ts := List.flatMap_cons

@[simp] theorem spell_append (ts more : List Token) :
    spell (ts ++ more) = spell ts ++ spell more := List.flatMap_append

/-- The row does not begin with a word. -/
def Wordless : List Token → Prop
  | .word _ :: _ => False
  | _ => True

/-- In the row no word follows another one. -/
def Lexical : List Token → Prop
  | [] => True
  | .word s :: ts => IsWord s ∧ Wordless ts ∧ Lexical ts
  | .mark _ :: ts => Lexical ts

/-! ### Rows from their spelling -/

/-- No mark begins as a word does. -/
theorem Mark.exists_text (m : Mark) : ∃ c cs, m.text.toList = c :: cs ∧ isNameChar c = false := by
  cases m <;> exact ⟨_, _, rfl, by decide⟩

/-- No mark is the beginning of another one. -/
theorem Mark.eq_of_begins {m n : Mark} (h : m.text.toList <+: n.text.toList) : m = n := by
  cases m <;> cases n <;> first | rfl | exact absurd h (by decide)

theorem Mark.eq_of_append {m n : Mark} {xs ys : List Char}
    (h : m.text.toList ++ xs = n.text.toList ++ ys) : m = n ∧ xs = ys := by
  have hmn : m = n := by
    have hm : m.text.toList <+: n.text.toList ++ ys := ⟨xs, h⟩
    rcases List.prefix_or_prefix_of_prefix hm (List.prefix_append _ ys) with hmn | hnm
    · exact eq_of_begins hmn
    · exact (eq_of_begins hnm).symm
  exact ⟨hmn, List.append_cancel_left (hmn ▸ h)⟩

/-- Where no word begins, no character of a word is spelled. -/
theorem Wordless.takeWhile_spell {ts : List Token} (h : Wordless ts) :
    (spell ts).takeWhile isNameChar = [] := by
  match ts with
  | [] => rfl
  | .word _ :: _ => exact h.elim
  | .mark m :: ts =>
    obtain ⟨c, cs, hm, hc⟩ := m.exists_text
    simp [Token.text, hm, hc]

/-- A word goes on until something else than a word begins. -/
theorem takeWhile_word {s : String} {ts : List Token} (hs : IsWord s) (hts : Wordless ts) :
    (spell (.word s :: ts)).takeWhile isNameChar = s.toList := by
  rw [spell_cons, Token.text, List.takeWhile_append_of_pos hs.2, hts.takeWhile_spell,
    List.append_nil]

theorem spell_ne_nil {t : Token} {ts : List Token} (h : Lexical (t :: ts)) :
    spell (t :: ts) ≠ [] := by
  rw [spell_cons]
  refine List.append_ne_nil_of_left_ne_nil ?_ _
  cases t with
  | word s => exact h.1.1
  | mark m =>
    obtain ⟨c, cs, hm, -⟩ := m.exists_text
    exact List.ne_nil_of_mem (hm ▸ List.mem_cons_self)

/-- A mark is not spelled as a word that something follows. -/
theorem spell_mark_ne {m : Mark} {s : String} {ts us : List Token} (hs : IsWord s)
    (hus : Wordless us) : spell (.mark m :: ts) ≠ spell (.word s :: us) := by
  intro h
  have hm := (show Wordless (.mark m :: ts) from trivial).takeWhile_spell
  rw [h, takeWhile_word hs hus] at hm
  exact hs.1 hm

/-- **Rows with the same spelling are the same.** -/
theorem eq_of_spell_eq {ts us : List Token} (hts : Lexical ts) (hus : Lexical us)
    (h : spell ts = spell us) : ts = us := by
  induction ts generalizing us with
  | nil =>
    cases us with
    | nil => rfl
    | cons u us => exact absurd h.symm (spell_ne_nil hus)
  | cons t ts ih =>
    -- the first characters show which of the two, a word or a mark, is spelled, and how far it goes
    match t, us with
    | t, [] => exact absurd h (spell_ne_nil hts)
    | .mark m, .mark n :: us =>
      rw [spell_cons, spell_cons] at h
      obtain ⟨rfl, hrest⟩ := Mark.eq_of_append h
      have hus : Lexical us := hus
      rw [ih hts hus hrest]
    | .mark m, .word s :: us => exact absurd h (spell_mark_ne hus.1 hus.2.1)
    | .word s, .mark m :: us => exact absurd h.symm (spell_mark_ne hts.1 hts.2.1)
    | .word s, .word s' :: us =>
      have hword : s.toList = s'.toList := by
        rw [← takeWhile_word hts.1 hts.2.1, h, takeWhile_word hus.1 hus.2.1]
      obtain rfl := String.toList_inj.1 hword
      rw [spell_cons, spell_cons] at h
      rw [ih hts.2.2 hus.2.2 (List.append_cancel_left h)]

/-! ### The rows of types -/

/-- Rows with a mark before each of them, but not before the first one of all. -/
def separated (m : Mark) (first : Bool) : List (List Token) → List Token
  | [] => []
  | ts :: more => (if first then [] else [.mark m]) ++ ts ++ separated m false more

/-- A row in parentheses if they are needed. -/
def grouped (isCompound : Bool) (ts : List Token) : List Token :=
  if isCompound then .mark .openParen :: ts ++ [.mark .closeParen] else ts

/-- The arguments of a generic type, in angle brackets. -/
def angled : List (List Token) → List Token
  | [] => []
  | args => .mark .openAngle :: separated .comma true args ++ [.mark .closeAngle]

/-- A row with a name before it. -/
def labelled (label : Option String) (ts : List Token) : List Token :=
  match label with
  | none => ts
  | some name => .word name :: .mark .colon :: ts

end Layout

theorem TupleItem.sizeOf_type_lt (item : TupleItem TypeExpr) : sizeOf item.type < sizeOf item := by
  rw [show sizeOf item = 1 + sizeOf item.label + sizeOf item.type by cases item; rfl]
  omega

theorem Binding.sizeOf_type_lt (p : Param) : sizeOf p.type < sizeOf p := by
  rw [show sizeOf p = 1 + sizeOf p.name + sizeOf p.type by cases p; rfl]
  omega

namespace TypeExpr

/-- The words and marks of a type. -/
def tokens : TypeExpr → List Token
  | .keyword k => [.word k.word]
  | .reference name args => .word name :: angled (args.map tokens)
  | .union parts => separated .bar true (parts.map fun part => grouped part.isCompound part.tokens)
  | .intersection parts =>
    separated .ampersand true (parts.map fun part => grouped part.isCompound part.tokens)
  | .tuple items =>
    .mark .openBracket ::
      separated .comma true (items.map fun item => labelled item.label item.type.tokens) ++
        [.mark .closeBracket]
  | .function params result =>
    .mark .openParen ::
      separated .comma true (params.map fun p => labelled (some p.name) p.type.tokens) ++
        .mark .closeParen :: .mark .arrow :: result.tokens
termination_by t => sizeOf t
decreasing_by
  · decreasing_tactic
  · decreasing_tactic
  · decreasing_tactic
  · have hitem := List.sizeOf_lt_of_mem ‹item ∈ items›
    have htype := item.sizeOf_type_lt
    rw [tuple.sizeOf_spec]
    omega
  · have hp := List.sizeOf_lt_of_mem ‹p ∈ params›
    have htype := p.sizeOf_type_lt
    rw [function.sizeOf_spec]
    omega
  · decreasing_tactic

end TypeExpr

namespace Layout

/-! ### The spelling of types -/

/-- Pieces that are printed without accents. -/
def plainText (pieces : List Piece) : List Char := (renderAll .plain pieces).toList

@[simp] theorem plainText_nil : plainText [] = [] := by simp [plainText, renderAll]

@[simp] theorem plainText_append (pieces more : List Piece) :
    plainText (pieces ++ more) = plainText pieces ++ plainText more := by
  simp [plainText]

@[simp] theorem plainText_text_cons (s : String) (pieces : List Piece) :
    plainText (.text s :: pieces) = s.toList ++ plainText pieces := by
  simp [plainText, renderAll, Piece.render, String.join_cons]

@[simp] theorem plainText_accented (a : Accent) (s : String) :
    plainText (accented a s) = s.toList := by
  cases a <;> simp [plainText, accented, renderAll, Piece.render, Palette.code, Palette.plain]

theorem plainText_between (first : Bool) (m : Mark) :
    plainText (between first m.text) = spell (if first then [] else [.mark m]) := by
  cases first <;> simp [between, Token.text]

@[simp] theorem plainText_comma (first : Bool) :
    plainText (between first ", ") = spell (if first then [] else [.mark .comma]) :=
  plainText_between first .comma

theorem plainText_grouped {isCompound : Bool} {pieces : List Piece} {ts : List Token}
    (h : plainText pieces = spell ts) :
    plainText (if isCompound then [.text "("] ++ pieces ++ [.text ")"] else pieces) =
      spell (grouped isCompound ts) := by
  cases isCompound <;> simp [grouped, h, Token.text, Mark.text]

end Layout

namespace TypeExpr

mutual

/-- A type is printed as its words and marks are spelled. -/
theorem plainText_pieces : ∀ t : TypeExpr, plainText t.pieces = spell t.tokens
  | .keyword k => by simp [pieces, tokens, Token.text]
  | .reference name [] => by simp [pieces, tokens, angled, Token.text]
  | .reference name (arg :: args) => by
    have hargs := plainText_listPieces true (arg :: args)
    rw [List.map_cons] at hargs
    simp [pieces, tokens, angled, hargs, Token.text, Mark.text]
  | .union parts => by rw [pieces, tokens, ← plainText_partPieces]; rfl
  | .intersection parts => by rw [pieces, tokens, ← plainText_partPieces]; rfl
  | .tuple items => by
    simp [pieces, tokens, plainText_itemPieces true items, Token.text, Mark.text]
  | .function params result => by
    simp [pieces, tokens, plainText_paramPieces true params, plainText_pieces result, Token.text,
      Mark.text]

theorem plainText_listPieces (first : Bool) : ∀ ts : List TypeExpr,
    plainText (listPieces first ts) = spell (separated .comma first (ts.map tokens))
  | [] => by simp [listPieces, separated]
  | t :: ts => by
    simp [listPieces, separated, plainText_pieces t, plainText_listPieces false ts]

theorem plainText_partPieces (m : Mark) (first : Bool) : ∀ ts : List TypeExpr,
    plainText (partPieces m.text first ts) =
      spell (separated m first (ts.map fun t => grouped t.isCompound t.tokens))
  | [] => by simp [partPieces, separated]
  | t :: ts => by
    rw [partPieces, plainText_append, plainText_append, plainText_between,
      plainText_grouped (plainText_pieces t), plainText_partPieces m false ts]
    simp [separated]

theorem plainText_itemPieces (first : Bool) : ∀ items : List (TupleItem TypeExpr),
    plainText (itemPieces first items) =
      spell (separated .comma first (items.map fun item => labelled item.label item.type.tokens))
  | [] => by simp [itemPieces, separated]
  | ⟨none, t⟩ :: items => by
    simp [itemPieces, separated, labelled, plainText_pieces t, plainText_itemPieces false items]
  | ⟨some label, t⟩ :: items => by
    simp [itemPieces, separated, labelled, plainText_pieces t, plainText_itemPieces false items,
      Token.text, Mark.text]

theorem plainText_paramPieces (first : Bool) : ∀ params : List Param,
    plainText (paramPieces first params) =
      spell (separated .comma first (params.map fun p => labelled (some p.name) p.type.tokens))
  | [] => by simp [paramPieces, separated]
  | ⟨name, t⟩ :: params => by
    simp [paramPieces, separated, labelled, plainText_pieces t, plainText_paramPieces false params,
      Token.text, Mark.text]

end

/-- **A printed type is the spelling of its words and marks.** -/
theorem toList_print (indent : Nat) (t : TypeExpr) :
    (t.print { indent, palette := .plain }).toList = spell t.tokens :=
  t.plainText_pieces

end TypeExpr

namespace Layout

/-! ### No word follows another one -/

theorem Wordless.append {ts more : List Token} (hts : Wordless ts) (hmore : Wordless more) :
    Wordless (ts ++ more) := by
  cases ts with
  | nil => exact hmore
  | cons t ts => cases t <;> exact hts

theorem Lexical.append {ts more : List Token} (hts : Lexical ts) (hmore : Lexical more)
    (hw : Wordless more) : Lexical (ts ++ more) := by
  induction ts with
  | nil => exact hmore
  | cons t ts ih =>
    cases t with
    | word s => exact ⟨hts.1, hts.2.1.append hw, ih hts.2.2⟩
    | mark m => exact ih hts

theorem Lexical.append_mark {ts more : List Token} {m : Mark} (hts : Lexical ts)
    (hmore : Lexical more) : Lexical (ts ++ .mark m :: more) := by
  have hmarked : Lexical (.mark m :: more) := hmore
  exact hts.append hmarked trivial

theorem wordless_separated (m : Mark) (rows : List (List Token)) :
    Wordless (separated m false rows) := by
  cases rows <;> trivial

theorem lexical_separated {m : Mark} {first : Bool} {rows : List (List Token)}
    (h : ∀ row ∈ rows, Lexical row) : Lexical (separated m first rows) := by
  induction rows generalizing first with
  | nil => trivial
  | cons row rows ih =>
    obtain ⟨hrow, hrows⟩ := List.forall_mem_cons.1 h
    have hmore : Lexical (separated m false rows) := ih hrows
    have hrest := hrow.append hmore (wordless_separated m rows)
    cases first <;> simpa [separated, Lexical] using hrest

theorem Lexical.grouped {isCompound : Bool} {ts : List Token} (h : Lexical ts) :
    Lexical (grouped isCompound ts) := by
  cases isCompound with
  | false => exact h
  | true => exact h.append_mark trivial

theorem lexical_angled {args : List (List Token)} (h : ∀ arg ∈ args, Lexical arg) :
    Lexical (angled args) := by
  cases args with
  | nil => trivial
  | cons arg args => exact (lexical_separated h).append_mark trivial

theorem wordless_angled (args : List (List Token)) : Wordless (angled args) := by
  cases args <;> trivial

theorem Lexical.labelled {label : Option String} {ts : List Token} (h : Lexical ts)
    (hlabel : ∀ name ∈ label, isName name) : Lexical (labelled label ts) := by
  cases label with
  | none => exact h
  | some name => exact ⟨isWord_of_isName (hlabel name rfl), trivial, h⟩

end Layout

/-- In the row of a type no word follows another one. -/
theorem Printable.lexical_tokens {t : TypeExpr} (ht : Printable t) : Lexical t.tokens := by
  induction ht with
  | keyword k =>
    rw [TypeExpr.tokens]
    exact ⟨k.isWord_word, trivial, trivial⟩
  | reference hname _ ih =>
    rw [TypeExpr.tokens]
    exact ⟨isWord_of_isName hname, wordless_angled _, lexical_angled (List.forall_mem_map.2 ih)⟩
  | union _ _ ih | intersection _ _ ih =>
    rw [TypeExpr.tokens]
    exact lexical_separated (List.forall_mem_map.2 fun part hpart => (ih part hpart).grouped)
  | tuple hlabels _ ih =>
    rw [TypeExpr.tokens]
    have hitems := List.forall_mem_map.2 fun item hitem =>
      (ih item hitem).labelled (hlabels item hitem)
    exact (lexical_separated hitems).append_mark trivial
  | function hnames _ _ ih ihresult =>
    rw [TypeExpr.tokens]
    have hparams := List.forall_mem_map.2 fun p hp =>
      (ih p hp).labelled fun name (hname : name ∈ some p.name) =>
        Option.some.inj hname ▸ hnames p hp
    have hresult : Lexical (.mark .arrow :: _) := ihresult
    exact (lexical_separated hparams).append_mark hresult

end ApiTypings
