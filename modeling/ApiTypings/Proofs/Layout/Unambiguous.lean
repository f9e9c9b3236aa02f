import ApiTypings.Proofs.Layout.Tokens

/-!
# No two types are printed alike

**`TypeExpr.eq_of_print_eq`** — types whose names are names, and whose unions and intersections have
two parts at least, can be told from their texts.

As words and marks can be told from their spelling, it is enough to look at these. A row is read
from its beginning (`ReadsOff`): a type that comes first in it is one type only, and ends at one
place only. What stands behind it matters, and depends on where the type stands: behind a type in a
list something ends (`Mark.ends`), whereas the part of a union may have the next part behind it
(`Mark.closes`), which is why it is put in parentheses.

* `begins_tokens` — no type begins as what has a label does, so that what comes after an opening
  parenthesis tells parameters from a part of a union.
* `readOff_separated` — a list is read off if its items are.
* `Printable.readsOff` — types are read off, by induction on the type.
-/

namespace ApiTypings

namespace Layout

/-! ### What stands behind a type -/

/-- The mark ends a list, or an item in it. -/
def Mark.ends : Mark → Bool
  | comma | closeParen | closeAngle | closeBracket => true
  | _ => false

/-- The mark stands between the parts of a type. -/
def Mark.joins : Mark → Bool
  | bar | ampersand => true
  | _ => false

/-- The mark can stand behind a part of a type. -/
def Mark.closes (m : Mark) : Bool := m.ends || m.joins

theorem Mark.closes_of_ends {m : Mark} (h : m.ends) : m.closes := by simp [closes, h]

theorem Mark.closes_of_joins {m : Mark} (h : m.joins) : m.closes := by simp [closes, h]

theorem Mark.not_ends_of_joins {m : Mark} (h : m.joins) : ¬ m.ends := by
  cases m <;> first | decide | exact absurd h (by decide)

/-- The row is empty, or begins with one of some marks. -/
def StopsBy (p : Mark → Bool) : List Token → Prop
  | [] => True
  | .mark m :: _ => p m
  | .word _ :: _ => False

theorem StopsBy.closes {ts : List Token} (h : StopsBy Mark.ends ts) : StopsBy Mark.closes ts := by
  match ts with
  | [] => trivial
  | .mark _ :: _ => exact Mark.closes_of_ends h
  | .word _ :: _ => exact h.elim

theorem StopsBy.separated {p : Mark → Bool} {m : Mark} (hm : p m) (rows : List (List Token))
    {ts : List Token} (h : StopsBy p ts) : StopsBy p (separated m false rows ++ ts) := by
  cases rows with
  | nil => exact h
  | cons row rows => exact hm

/-! ### Reading off -/

variable {α : Type}

theorem separated_map_cons (m : Mark) (row : α → List Token) (a : α) (as : List α)
    (ts : List Token) :
    separated m true ((a :: as).map row) ++ ts =
      row a ++ (separated m false (as.map row) ++ ts) := by
  simp [separated]

/-- Where the row of `a` stands before one of some marks, no other row of its kind does, and what
stands behind it is no other either. -/
def ReadsOff (row : α → List Token) (Kind : α → Prop) (p : Mark → Bool) (a : α) : Prop :=
  ∀ ⦃b : α⦄ ⦃r r' : List Token⦄, Kind b → StopsBy p r → StopsBy p r' → row a ++ r = row b ++ r' →
    a = b ∧ r = r'

section Lists

variable {row : α → List Token} {Kind : α → Prop} {p : Mark → Bool} {m : Mark} {as bs : List α}
  {r r' : List Token}

theorem readOff_separated (hm : p m) (has : ∀ a ∈ as, ReadsOff row Kind p a)
    (hbs : ∀ b ∈ bs, Kind b) (hr : StopsBy p r) (hr' : StopsBy p r')
    (hne : ∀ x, r ≠ .mark m :: x) (hne' : ∀ x, r' ≠ .mark m :: x)
    (h : separated m false (as.map row) ++ r = separated m false (bs.map row) ++ r') :
    as = bs ∧ r = r' := by
  induction as generalizing bs with
  | nil =>
    cases bs with
    | nil => exact ⟨rfl, h⟩
    | cons b bs => exact absurd h (by simpa [separated] using hne _)
  | cons a as ih =>
    cases bs with
    | nil => exact absurd h.symm (by simpa [separated] using hne' _)
    | cons b bs =>
      rw [List.forall_mem_cons] at has hbs
      have hrow : row a ++ (separated m false (as.map row) ++ r) =
          row b ++ (separated m false (bs.map row) ++ r') := by
        simpa [separated] using h
      -- behind the first rows stands the mark, or what stands behind the last ones
      obtain ⟨rfl, hrest⟩ := has.1 hbs.1 (hr.separated hm _) (hr'.separated hm _) hrow
      obtain ⟨rfl, hr⟩ := ih has.2 hbs.2 hrest
      exact ⟨rfl, hr⟩

/-- A list that may be empty is read off up to a mark that ends it, if no item begins with one. -/
theorem readOff_delimited {c : Mark} (hc : c.ends) (hcomma : c ≠ .comma)
    (hrow : ∀ a, Kind a → ∀ x y, StopsBy Mark.ends x → row a ++ x ≠ .mark c :: y)
    (has : ∀ a ∈ as, Kind a ∧ ReadsOff row Kind Mark.ends a) (hbs : ∀ b ∈ bs, Kind b)
    (h : separated .comma true (as.map row) ++ .mark c :: r =
      separated .comma true (bs.map row) ++ .mark c :: r') :
    as = bs ∧ r = r' := by
  have hstop (ts : List Token) : StopsBy Mark.ends (.mark c :: ts) := hc
  have hne (ts x : List Token) : .mark c :: ts ≠ .mark .comma :: x := by simp [hcomma]
  match as, bs with
  | [], [] => exact ⟨rfl, (List.cons.inj h).2⟩
  | [], b :: bs =>
    rw [separated_map_cons] at h
    exact absurd h.symm (hrow b (hbs b List.mem_cons_self) _ _ ((hstop _).separated rfl _))
  | a :: as, [] =>
    rw [separated_map_cons] at h
    exact absurd h (hrow a (has a List.mem_cons_self).1 _ _ ((hstop _).separated rfl _))
  | a :: as, b :: bs =>
    rw [List.forall_mem_cons] at has hbs
    rw [separated_map_cons, separated_map_cons] at h
    obtain ⟨rfl, hrest⟩ := has.1.2 hbs.1 ((hstop _).separated rfl _) ((hstop _).separated rfl _) h
    obtain ⟨rfl, hr⟩ := readOff_separated rfl (fun a ha => (has.2 a ha).2) hbs.2 (hstop _) (hstop _)
      (hne _) (hne _) hrest
    exact ⟨rfl, (List.cons.inj hr).2⟩

end Lists

/-! ### How types begin -/

/-- The row begins with a word that is no label, or with a mark that something follows. -/
def Begins : List Token → Prop
  | [] => False
  | .word _ :: ts => ∀ x, ts ≠ .mark .colon :: x
  | .mark m :: _ => m = .openParen ∨ m = .openBracket

end Layout

open Layout

namespace TypeExpr

/-- The row of a part of a union or an intersection. -/
def partTokens (t : TypeExpr) : List Token := grouped t.isCompound t.tokens

theorem tokens_union (parts : List TypeExpr) :
    (union parts).tokens = separated .bar true (parts.map partTokens) := by
  rw [tokens]; rfl

theorem tokens_intersection (parts : List TypeExpr) :
    (intersection parts).tokens = separated .ampersand true (parts.map partTokens) := by
  rw [tokens]; rfl

theorem angled_cons_append (arg : List Token) (args : List (List Token)) (r : List Token) :
    angled (arg :: args) ++ r =
      .mark .openAngle :: (separated .comma true (arg :: args) ++ .mark .closeAngle :: r) := by
  simp [angled]

theorem tokens_tuple_append (items : List (TupleItem TypeExpr)) (r : List Token) :
    (tuple items).tokens ++ r = .mark .openBracket ::
      (separated .comma true (items.map fun item => labelled item.label item.type.tokens) ++
        .mark .closeBracket :: r) := by
  simp [tokens]

theorem tokens_function_append (params : List Param) (result : TypeExpr) (r : List Token) :
    (function params result).tokens ++ r = .mark .openParen ::
      (separated .comma true (params.map fun p => labelled (some p.name) p.type.tokens) ++
        .mark .closeParen :: .mark .arrow :: (result.tokens ++ r)) := by
  simp [tokens]

theorem partTokens_of_compound {t : TypeExpr} (h : t.isCompound) (ts : List Token) :
    t.partTokens ++ ts = .mark .openParen :: (t.tokens ++ .mark .closeParen :: ts) := by
  simp [partTokens, grouped, h]

theorem partTokens_of_not_compound {t : TypeExpr} (h : t.isCompound = false) :
    t.partTokens = t.tokens := by
  simp [partTokens, grouped, h]

variable {t u : TypeExpr} {r r' : List Token}

theorem begins_word {s : String} (hr : StopsBy Mark.closes r) : Begins (.word s :: r) := by
  rintro x rfl
  exact absurd hr (show ¬ Mark.closes .colon by decide)

/-- A type that needs no parentheses has none. -/
theorem begins_of_not_compound (h : t.isCompound = false) (hr : StopsBy Mark.closes r) :
    Begins (t.tokens ++ r) ∧ ∀ x, t.tokens ++ r ≠ .mark .openParen :: x := by
  cases t with
  | keyword k =>
    rw [tokens]
    exact ⟨begins_word hr, nofun⟩
  | reference name args =>
    rw [tokens]
    cases args with
    | nil => exact ⟨begins_word hr, nofun⟩
    | cons arg args => exact ⟨nofun, nofun⟩
  | tuple items =>
    rw [tokens]
    exact ⟨.inr rfl, nofun⟩
  | union parts | intersection parts | function params result => cases h

theorem begins_partTokens (hr : StopsBy Mark.closes r) : Begins (t.partTokens ++ r) := by
  cases h : t.isCompound with
  | true =>
    rw [partTokens_of_compound h]
    exact .inl rfl
  | false =>
    rw [partTokens_of_not_compound h]
    exact (begins_of_not_compound h hr).1

theorem begins_parts {m : Mark} {parts : List TypeExpr} (hm : m.joins) (htwo : 2 ≤ parts.length)
    (hr : StopsBy Mark.closes r) : Begins (separated m true (parts.map partTokens) ++ r) := by
  match parts, htwo with
  | part :: parts, _ =>
    rw [separated_map_cons]
    exact begins_partTokens (hr.separated (Mark.closes_of_joins hm) _)

/-- **A type does not begin as what has a label does.** -/
theorem begins_tokens (ht : Printable t) (hr : StopsBy Mark.closes r) : Begins (t.tokens ++ r) := by
  cases ht with
  | keyword | reference | tuple => exact (begins_of_not_compound rfl hr).1
  | union htwo =>
    rw [tokens_union]
    exact begins_parts rfl htwo hr
  | intersection htwo =>
    rw [tokens_intersection]
    exact begins_parts rfl htwo hr
  | function =>
    rw [tokens]
    exact .inl rfl

theorem not_begins_of_ends {m : Mark} (hm : m.ends) : ¬ Begins (.mark m :: r) := by
  rintro (rfl | rfl) <;> cases hm

/-- Parameters begin with a label, if there are any. -/
theorem not_begins_params (params : List Param) :
    ¬ Begins (separated .comma true (params.map fun p => labelled (some p.name) p.type.tokens) ++
      .mark .closeParen :: r) := by
  cases params with
  | nil => exact not_begins_of_ends rfl
  | cons p params => exact fun h => h _ rfl

/-! ### Types are read off -/

theorem readOff_labelled {label label' : Option String} (ht : Printable t) (hu : Printable u)
    (htype : ReadsOff tokens Printable Mark.ends t) (hr : StopsBy Mark.ends r)
    (hr' : StopsBy Mark.ends r')
    (h : labelled label t.tokens ++ r = labelled label' u.tokens ++ r') :
    label = label' ∧ t = u ∧ r = r' := by
  match label, label' with
  | none, none => exact ⟨rfl, htype hu hr hr' h⟩
  | none, some name =>
    have hbegins := begins_tokens ht hr.closes
    rw [show t.tokens ++ r = _ from h] at hbegins
    exact (hbegins _ rfl).elim
  | some name, none =>
    have hbegins := begins_tokens hu hr'.closes
    rw [← show _ = u.tokens ++ r' from h] at hbegins
    exact (hbegins _ rfl).elim
  | some name, some name' =>
    simp only [labelled, List.cons_append, List.cons.injEq, Token.word.injEq, true_and] at h
    exact ⟨congrArg some h.1, htype hu hr hr' h.2⟩

theorem labelled_ne_mark {label : Option String} {c : Mark} (ht : Printable t) (hc : c.ends)
    (hr : StopsBy Mark.ends r) (x : List Token) : labelled label t.tokens ++ r ≠ .mark c :: x := by
  cases label with
  | none => exact fun h => not_begins_of_ends hc (h ▸ begins_tokens ht hr.closes)
  | some name => exact nofun

/-- A type in parentheses is read off if it is without them. -/
theorem readsOff_part_of_compound (hc : t.isCompound)
    (h : ReadsOff tokens Printable Mark.ends t) : ReadsOff partTokens Printable Mark.closes t := by
  intro u r r' hu hr hr' heq
  rw [partTokens_of_compound hc] at heq
  cases hcu : u.isCompound with
  | true =>
    rw [partTokens_of_compound hcu] at heq
    have hclose (ts : List Token) : StopsBy Mark.ends (.mark .closeParen :: ts) := rfl
    obtain ⟨rfl, hrest⟩ := h hu (hclose r) (hclose r') (List.cons.inj heq).2
    exact ⟨rfl, (List.cons.inj hrest).2⟩
  | false =>
    rw [partTokens_of_not_compound hcu] at heq
    exact absurd heq.symm ((begins_of_not_compound hcu hr').2 _)

section Parts

variable {m n : Mark} {parts parts' : List TypeExpr}

/-- A part of a type is not the whole of another one. -/
theorem part_ne_parts (ht : ReadsOff partTokens Printable Mark.closes t) (hm : m.joins)
    (htwo : 2 ≤ parts.length) (hparts : ∀ part ∈ parts, Printable part)
    (hr : StopsBy Mark.ends r) (hr' : StopsBy Mark.ends r') :
    t.partTokens ++ r ≠ separated m true (parts.map partTokens) ++ r' := by
  intro h
  match parts, htwo with
  | part :: next :: parts, _ =>
    rw [separated_map_cons] at h
    obtain ⟨-, rfl⟩ := ht (hparts part List.mem_cons_self) hr.closes
      (hr'.closes.separated (Mark.closes_of_joins hm) _) h
    exact Mark.not_ends_of_joins hm hr

/-- The parts of a type are not a part of another one. -/
theorem parts_ne_part (hu : Printable u) (hm : m.joins) (htwo : 2 ≤ parts.length)
    (hparts : ∀ part ∈ parts, ReadsOff partTokens Printable Mark.closes part)
    (hr : StopsBy Mark.ends r) (hr' : StopsBy Mark.ends r') :
    separated m true (parts.map partTokens) ++ r ≠ u.partTokens ++ r' := by
  intro h
  match parts, htwo with
  | part :: next :: parts, _ =>
    rw [separated_map_cons] at h
    obtain ⟨-, rfl⟩ := hparts part List.mem_cons_self hu
      (hr.closes.separated (Mark.closes_of_joins hm) _) hr'.closes h
    exact Mark.not_ends_of_joins hm hr'

/-- Parts are read off, and so is what joins them. -/
theorem readOff_parts (hm : m.joins) (hn : n.joins) (htwo : 2 ≤ parts.length)
    (htwo' : 2 ≤ parts'.length)
    (hparts : ∀ part ∈ parts, ReadsOff partTokens Printable Mark.closes part)
    (hparts' : ∀ part ∈ parts', Printable part) (hr : StopsBy Mark.ends r)
    (hr' : StopsBy Mark.ends r')
    (h : separated m true (parts.map partTokens) ++ r =
      separated n true (parts'.map partTokens) ++ r') :
    m = n ∧ parts = parts' ∧ r = r' := by
  match parts, parts', htwo, htwo' with
  | part :: next :: parts, part' :: next' :: parts', _, _ =>
    rw [List.forall_mem_cons] at hparts hparts'
    rw [separated_map_cons, separated_map_cons] at h
    obtain ⟨rfl, hrest⟩ := hparts.1 hparts'.1
      (hr.closes.separated (Mark.closes_of_joins hm) _)
      (hr'.closes.separated (Mark.closes_of_joins hn) _) h
    obtain rfl : m = n := Token.mark.inj (List.cons.inj hrest).1
    have hne {ts : List Token} (hts : StopsBy Mark.ends ts) : ∀ x, ts ≠ .mark m :: x := by
      rintro x rfl
      exact Mark.not_ends_of_joins hm hts
    obtain ⟨hsame, rfl⟩ := readOff_separated (Mark.closes_of_joins hm) hparts.2 hparts'.2 hr.closes
      hr'.closes (hne hr) (hne hr') hrest
    exact ⟨rfl, by rw [hsame], rfl⟩

/-- The parts of a type are not parameters and a result. -/
theorem parts_ne_function {params : List Param} {result : TypeExpr} (hm : m.joins)
    (htwo : 2 ≤ parts.length) (hparts : ∀ part ∈ parts, Printable part)
    (hr : StopsBy Mark.ends r) :
    separated m true (parts.map partTokens) ++ r ≠ (function params result).tokens ++ r' := by
  intro h
  match parts, htwo with
  | part :: parts, _ =>
    have hpart : Printable part := hparts part List.mem_cons_self
    rw [separated_map_cons, tokens_function_append] at h
    cases hc : part.isCompound with
    | true =>
      -- both rows begin with a parenthesis, but what follows has a label in one of them only
      rw [partTokens_of_compound hc] at h
      refine not_begins_params params ((List.cons.inj h).2 ▸ begins_tokens hpart ?_)
      exact rfl
    | false =>
      rw [partTokens_of_not_compound hc] at h
      exact (begins_of_not_compound hc
        (hr.closes.separated (Mark.closes_of_joins hm) _)).2 _ h

/-- What is read off as parts is a union or an intersection of them. -/
theorem readOff_joined (hm : m.joins) (htwo : 2 ≤ parts.length)
    (hparts : ∀ part ∈ parts, Printable part)
    (ih : ∀ part ∈ parts, ReadsOff partTokens Printable Mark.closes part) (hu : Printable u)
    (hr : StopsBy Mark.ends r) (hr' : StopsBy Mark.ends r')
    (h : separated m true (parts.map partTokens) ++ r = u.tokens ++ r') :
    r = r' ∧ (m = .bar ∧ union parts = u ∨ m = .ampersand ∧ intersection parts = u) := by
  have hprintable := hu
  cases hu with
  | keyword | reference | tuple =>
    rw [← partTokens_of_not_compound rfl] at h
    exact absurd h (parts_ne_part hprintable hm htwo ih hr hr')
  | union htwo' hparts' =>
    rw [tokens_union] at h
    obtain ⟨rfl, rfl, rfl⟩ := readOff_parts hm rfl htwo htwo' ih hparts' hr hr' h
    exact ⟨rfl, .inl ⟨rfl, rfl⟩⟩
  | intersection htwo' hparts' =>
    rw [tokens_intersection] at h
    obtain ⟨rfl, rfl, rfl⟩ := readOff_parts hm rfl htwo htwo' ih hparts' hr hr' h
    exact ⟨rfl, .inr ⟨rfl, rfl⟩⟩
  | function => exact absurd h (parts_ne_function hm htwo hparts hr)

end Parts

/-- A type that needs no parentheses is read off if it is as a part. -/
theorem readsOff_of_not_compound (hc : t.isCompound = false)
    (h : ReadsOff partTokens Printable Mark.closes t) : ReadsOff tokens Printable Mark.ends t := by
  intro u r r' hu hr hr' heq
  have hprintable := hu
  rw [← partTokens_of_not_compound hc] at heq
  cases hu with
  | keyword | reference | tuple =>
    rw [← partTokens_of_not_compound rfl] at heq
    exact h hprintable hr.closes hr'.closes heq
  | union htwo hparts =>
    rw [tokens_union] at heq
    exact absurd heq (part_ne_parts h rfl htwo hparts hr hr')
  | intersection htwo hparts =>
    rw [tokens_intersection] at heq
    exact absurd heq (part_ne_parts h rfl htwo hparts hr hr')
  | function =>
    rw [partTokens_of_not_compound hc, tokens_function_append] at heq
    exact absurd heq ((begins_of_not_compound hc hr.closes).2 _)

/-- The items of a tuple are read off if their types are. -/
theorem readsOff_item {item : TupleItem TypeExpr} (ht : Printable item.type)
    (h : ReadsOff tokens Printable Mark.ends item.type) :
    ReadsOff (fun item : TupleItem TypeExpr => labelled item.label item.type.tokens)
      (fun item => Printable item.type) Mark.ends item := by
  intro other r r' hother hr hr' heq
  obtain ⟨hlabel, htype, hrest⟩ := readOff_labelled ht hother h hr hr' heq
  cases item
  cases other
  simp only at hlabel htype
  exact ⟨by rw [hlabel, htype], hrest⟩

/-- Parameters are read off if their types are. -/
theorem readsOff_param {p : Param} (ht : Printable p.type)
    (h : ReadsOff tokens Printable Mark.ends p.type) :
    ReadsOff (fun p : Param => labelled (some p.name) p.type.tokens)
      (fun p => Printable p.type) Mark.ends p := by
  intro other r r' hother hr hr' heq
  obtain ⟨hlabel, htype, hrest⟩ := readOff_labelled ht hother h hr hr' heq
  cases p
  cases other
  simp only [Option.some.injEq] at hlabel htype
  exact ⟨by rw [hlabel, htype], hrest⟩

/-- For a type that needs no parentheses, only other such types have to be looked at. -/
theorem readsOff_part_of_not_compound (hc : t.isCompound = false)
    (h : ∀ ⦃u r r'⦄, u.isCompound = false → Printable u → StopsBy Mark.closes r →
      StopsBy Mark.closes r' → t.tokens ++ r = u.tokens ++ r' → t = u ∧ r = r') :
    ReadsOff partTokens Printable Mark.closes t := by
  intro u r r' hu hr hr' heq
  rw [partTokens_of_not_compound hc] at heq
  cases hcu : u.isCompound with
  | true =>
    rw [partTokens_of_compound hcu] at heq
    exact absurd heq ((begins_of_not_compound hc hr).2 _)
  | false =>
    rw [partTokens_of_not_compound hcu] at heq
    exact h hcu hu hr hr' heq

theorem readsOff_keyword (k : Keyword) :
    ReadsOff partTokens Printable Mark.closes (.keyword k) := by
  refine readsOff_part_of_not_compound rfl fun u r r' hc hu _ _ heq => ?_
  rw [tokens] at heq
  cases hu with
  | keyword j =>
    rw [tokens] at heq
    injection heq with hword hrest
    exact ⟨congrArg _ (Keyword.word_injective (Token.word.inj hword)), hrest⟩
  | reference hname =>
    rw [tokens] at heq
    injection heq with hword
    exact absurd (Token.word.inj hword).symm (ne_word_of_isName hname k)
  | tuple =>
    rw [tokens_tuple_append] at heq
    cases heq
  | union | intersection | function => cases hc

theorem readOff_angled {args args' : List TypeExpr} (hargs : ∀ arg ∈ args, Printable arg)
    (hargs' : ∀ arg ∈ args', Printable arg)
    (ih : ∀ arg ∈ args, ReadsOff tokens Printable Mark.ends arg) (hr : StopsBy Mark.closes r)
    (hr' : StopsBy Mark.closes r')
    (h : angled (args.map tokens) ++ r = angled (args'.map tokens) ++ r') :
    args = args' ∧ r = r' := by
  match args, args' with
  | [], [] => exact ⟨rfl, h⟩
  | [], arg' :: args' =>
    rw [List.map_cons, angled_cons_append] at h
    rw [show r = _ from h] at hr
    exact absurd hr Bool.false_ne_true
  | arg :: args, [] =>
    rw [List.map_cons, angled_cons_append] at h
    rw [← show _ = r' from h] at hr'
    exact absurd hr' Bool.false_ne_true
  | arg :: args, arg' :: args' =>
    rw [List.map_cons, List.map_cons, angled_cons_append, angled_cons_append] at h
    exact readOff_delimited rfl (by decide)
      (fun t ht x y hx => (labelled_ne_mark ht rfl hx y : labelled none t.tokens ++ x ≠ _))
      (fun arg harg => ⟨hargs arg harg, ih arg harg⟩) hargs' (List.cons.inj h).2

/-- A reference is read off if its arguments are. -/
theorem readsOff_reference {name : String} {args : List TypeExpr} (hname : isName name)
    (hargs : ∀ arg ∈ args, Printable arg)
    (ih : ∀ arg ∈ args, ReadsOff tokens Printable Mark.ends arg) :
    ReadsOff partTokens Printable Mark.closes (.reference name args) := by
  refine readsOff_part_of_not_compound rfl fun u r r' hc hu hr hr' heq => ?_
  rw [tokens] at heq
  cases hu with
  | keyword j =>
    rw [tokens] at heq
    injection heq with hword
    exact absurd (Token.word.inj hword) (ne_word_of_isName hname j)
  | @reference name' args' hname' hargs' =>
    rw [tokens] at heq
    injection heq with hword hrest
    obtain rfl := Token.word.inj hword
    obtain ⟨rfl, hr⟩ := readOff_angled hargs hargs' ih hr hr' hrest
    exact ⟨rfl, hr⟩
  | tuple =>
    rw [tokens_tuple_append] at heq
    cases heq
  | union | intersection | function => cases hc

/-- A tuple is read off if the types of its items are. -/
theorem readsOff_tuple {items : List (TupleItem TypeExpr)}
    (htypes : ∀ item ∈ items, Printable item.type)
    (ih : ∀ item ∈ items, ReadsOff tokens Printable Mark.ends item.type) :
    ReadsOff partTokens Printable Mark.closes (.tuple items) := by
  refine readsOff_part_of_not_compound rfl fun u r r' hc hu hr hr' heq => ?_
  rw [tokens_tuple_append] at heq
  cases hu with
  | keyword | reference =>
    rw [tokens] at heq
    cases heq
  | tuple _ htypes' =>
    rw [tokens_tuple_append] at heq
    obtain ⟨rfl, rfl⟩ := readOff_delimited rfl (by decide)
      (fun item hitem x y hx => labelled_ne_mark hitem rfl hx y)
      (fun item hitem => ⟨htypes item hitem, readsOff_item (htypes item hitem) (ih item hitem)⟩)
      htypes' (List.cons.inj heq).2
    exact ⟨rfl, rfl⟩
  | union | intersection | function => cases hc

/-- A function is read off if its parameters and its result are. -/
theorem readsOff_function {params : List Param} {result : TypeExpr}
    (hparams : ∀ p ∈ params, Printable p.type)
    (ih : ∀ p ∈ params, ReadsOff tokens Printable Mark.ends p.type)
    (ihresult : ReadsOff tokens Printable Mark.ends result) :
    ReadsOff tokens Printable Mark.ends (function params result) := by
  intro u r r' hu hr hr' heq
  cases hu with
  | keyword | reference | tuple =>
    rw [tokens_function_append] at heq
    exact absurd heq.symm ((begins_of_not_compound rfl hr'.closes).2 _)
  | union htwo hparts =>
    rw [tokens_union] at heq
    exact absurd heq.symm (parts_ne_function rfl htwo hparts hr')
  | intersection htwo hparts =>
    rw [tokens_intersection] at heq
    exact absurd heq.symm (parts_ne_function rfl htwo hparts hr')
  | function _ htypes hresult =>
    rw [tokens_function_append, tokens_function_append] at heq
    obtain ⟨rfl, hrest⟩ := readOff_delimited rfl (by decide)
      (fun p hp x y hx => labelled_ne_mark hp rfl hx y)
      (fun p hp => ⟨hparams p hp, readsOff_param (hparams p hp) (ih p hp)⟩) htypes
      (List.cons.inj heq).2
    obtain ⟨rfl, rfl⟩ := ihresult hresult hr hr' (List.cons.inj hrest).2
    exact ⟨rfl, rfl⟩

end TypeExpr

open TypeExpr in
/-- **Types are read off**, by themselves and as parts of other types. -/
theorem Printable.readsOff {t : TypeExpr} (ht : Printable t) :
    ReadsOff tokens Printable Mark.ends t ∧ ReadsOff partTokens Printable Mark.closes t := by
  -- a type without parentheses is read off as a part first, one with parentheses as a whole
  induction ht with
  | keyword k =>
    have hpart := readsOff_keyword k
    exact ⟨readsOff_of_not_compound rfl hpart, hpart⟩
  | reference hname hargs ih =>
    have hpart := readsOff_reference hname hargs fun arg harg => (ih arg harg).1
    exact ⟨readsOff_of_not_compound rfl hpart, hpart⟩
  | tuple _ htypes ih =>
    have hpart := readsOff_tuple htypes fun item hitem => (ih item hitem).1
    exact ⟨readsOff_of_not_compound rfl hpart, hpart⟩
  | @union parts htwo hparts ih =>
    have hwhole : ReadsOff tokens Printable Mark.ends (.union parts) := by
      intro u r r' hu hr hr' heq
      rw [tokens_union] at heq
      obtain ⟨rfl, ⟨-, rfl⟩ | ⟨hbar, -⟩⟩ := readOff_joined rfl htwo hparts
        (fun part hpart => (ih part hpart).2) hu hr hr' heq
      · exact ⟨rfl, rfl⟩
      · cases hbar
    exact ⟨hwhole, readsOff_part_of_compound rfl hwhole⟩
  | @intersection parts htwo hparts ih =>
    have hwhole : ReadsOff tokens Printable Mark.ends (.intersection parts) := by
      intro u r r' hu hr hr' heq
      rw [tokens_intersection] at heq
      obtain ⟨rfl, ⟨hampersand, -⟩ | ⟨-, rfl⟩⟩ := readOff_joined rfl htwo hparts
        (fun part hpart => (ih part hpart).2) hu hr hr' heq
      · cases hampersand
      · exact ⟨rfl, rfl⟩
    exact ⟨hwhole, readsOff_part_of_compound rfl hwhole⟩
  | function _ htypes _ ih ihresult =>
    have hwhole := readsOff_function htypes (fun p hp => (ih p hp).1) ihresult.1
    exact ⟨hwhole, readsOff_part_of_compound rfl hwhole⟩

/-- **Types that are printed alike are the same.** -/
theorem TypeExpr.eq_of_print_eq {t u : TypeExpr} {indent : Nat} (ht : Printable t)
    (hu : Printable u)
    (h : t.print { indent, palette := .plain } = u.print { indent, palette := .plain }) :
    t = u := by
  have hspell : spell t.tokens = spell u.tokens := by
    rw [← toList_print indent, h, toList_print]
  have htokens : t.tokens = u.tokens :=
    eq_of_spell_eq ht.lexical_tokens hu.lexical_tokens hspell
  have hempty : StopsBy Mark.ends [] := trivial
  exact (ht.readsOff.1 hu hempty hempty (by rw [htokens])).1

/-- A function whose result is of one type or another, as it is printed. -/
def filterText : String := "(value: A) => boolean | B"

/-- A function whose result is of one type or another. -/
def filterType : TypeExpr :=
  .function [⟨"value", .reference "A" []⟩] (.union [.keyword .boolean, .reference "B" []])

/-- A function, or something of another type. -/
def filterOrOther : TypeExpr :=
  .union [.function [⟨"value", .reference "A" []⟩] (.keyword .boolean), .reference "B" []]

/-- A function is not taken for a union with a function in it. -/
theorem TypeExpr.eq_of_print_eq_filter :
    Printable filterType ∧ Printable filterOrOther ∧
      filterType.print { indent := 4, palette := .plain } = filterText ∧
      filterOrOther.print { indent := 4, palette := .plain } = "((value: A) => boolean) | B" ∧
      ∀ t, Printable t → t.print { indent := 4, palette := .plain } = filterText →
        t = filterType := by
  have hA : Printable (.reference "A" []) := .reference (by decide) nofun
  have hB : Printable (.reference "B" []) := .reference (by decide) nofun
  have hfunction {result : TypeExpr} (hresult : Printable result) :
      Printable (.function [⟨"value", .reference "A" []⟩] result) :=
    .function (List.forall_mem_singleton.2 (by decide)) (List.forall_mem_singleton.2 hA) hresult
  have hunion {t : TypeExpr} (ht : Printable t) : Printable (.union [t, .reference "B" []]) :=
    .union (Nat.le_refl 2) (List.forall_mem_cons.2 ⟨ht, List.forall_mem_singleton.2 hB⟩)
  have hfilter : Printable filterType := hfunction (hunion (.keyword .boolean))
  have hother : Printable filterOrOther := hunion (hfunction (.keyword .boolean))
  have htext : filterType.print { indent := 4, palette := .plain } = filterText := by
    decide +kernel
  exact ⟨hfilter, hother, htext, by decide +kernel,
    fun t ht h => eq_of_print_eq ht hfilter (h.trans htext.symm)⟩

end ApiTypings
