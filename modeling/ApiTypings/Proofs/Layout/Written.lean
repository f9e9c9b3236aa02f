import ApiTypings.Layout.Statement
import ApiTypings.Proofs.Declaration.Identifiers

/-!
# What types and declarations are written with

But for comments, there are texts of two kinds in what is printed: those that are the same for all
declarations, which have few characters (`isFixed`), and identifiers. So if all identifiers are
spelt with an alphabet that holds these few (`Alphabet`), then so is what is printed. And where an
accent begins, it ends before another one does.

The two are what it is for pieces to be well written (`Written`). There is a lemma for each way in
which pieces are put together.

* `TypeExpr.written_pieces` — types.
* **`Statement.written_headline`, `Member.written_declaring`** — the lines that declarations and
  members have of their own.
-/

namespace ApiTypings

open Layout Piece

namespace Layout

/-! ### Alphabets -/

/-- The characters of the texts that are the same for all declarations. No line break is among them,
as every declaration has its line to itself. -/
@[simp] def isFixed (c : Char) : Bool := c.isLower || " :;,=-|&<>()[]\x7b\x7d".toList.contains c

/-- Characters to spell texts with, the fixed ones among them. -/
structure Alphabet where
  Holds : Char → Prop
  holds_fixed : ∀ c, isFixed c → Holds c

namespace Alphabet

/-- All characters but one, which is not fixed. -/
def without (c : Char) (h : ¬ isFixed c) : Alphabet where
  Holds d := d ≠ c
  holds_fixed _ hd he := h (he ▸ hd)

variable {A : Alphabet} {s t : String} {names more : List String}

/-- The text is spelt with characters of the alphabet. -/
def Spells (A : Alphabet) (s : String) : Prop := ∀ c ∈ s.toList, A.Holds c

@[simp] theorem spells_fixed (h : s.toList.all isFixed) : A.Spells s := fun c hc =>
  A.holds_fixed c (List.all_eq_true.1 h c hc)

theorem spells_without {c : Char} {h : ¬ isFixed c} : (without c h).Spells s ↔ c ∉ s.toList :=
  List.forall_mem_ne'

@[simp] theorem spells_append : A.Spells (s ++ t) ↔ A.Spells s ∧ A.Spells t := by
  simp [Spells, or_imp, forall_and]

/-- All the names are spelt with characters of the alphabet. -/
def SpellsAll (A : Alphabet) (names : List String) : Prop := ∀ name ∈ names, A.Spells name

theorem spellsAll_without {c : Char} {h : ¬ isFixed c} :
    (without c h).SpellsAll names ↔ ∀ name ∈ names, c ∉ name.toList :=
  forall₂_congr fun _ _ => spells_without

@[simp] theorem spellsAll_nil : A.SpellsAll [] := List.forall_mem_nil _

@[simp] theorem spellsAll_cons :
    A.SpellsAll (s :: names) ↔ A.Spells s ∧ A.SpellsAll names := List.forall_mem_cons

@[simp] theorem spellsAll_append :
    A.SpellsAll (names ++ more) ↔ A.SpellsAll names ∧ A.SpellsAll more := List.forall_mem_append

theorem spellsAll_flatMap {α : Type} {f : α → List String} {as : List α} :
    A.SpellsAll (as.flatMap f) ↔ ∀ a ∈ as, A.SpellsAll (f a) := List.forall_mem_flatMap

end Alphabet

open Alphabet

/-! ### Well-written pieces -/

/-- Whether there is an accent after a piece, if there is one before it or none: no accent begins
in another one, and none ends that has not begun. -/
def Piece.after : Bool → Piece → Option Bool
  | inAccent, .text _ => some inAccent
  | false, .accent _ => some true
  | true, .plain => some false
  | true, .accent _ | false, .plain => none

/-- The pieces are spelt with an alphabet, and every accent in them ends. -/
structure Written (A : Alphabet) (pieces : List Piece) : Prop where
  spelt : A.Spells (renderAll .plain pieces)
  closed : pieces.foldlM Piece.after false = some false

variable {A : Alphabet} {pieces more : List Piece}

@[simp] theorem written_nil : Written A [] := ⟨spells_fixed rfl, rfl⟩

@[simp] theorem written_append (h : Written A pieces) :
    Written A (pieces ++ more) ↔ Written A more := by
  have hspells : A.Spells (renderAll .plain (pieces ++ more)) ↔
      A.Spells (renderAll .plain more) := by
    simp [h.spelt]
  have hclosed : (pieces ++ more).foldlM Piece.after false = more.foldlM Piece.after false := by
    simp [h.closed]
  exact ⟨fun w => ⟨hspells.1 w.spelt, hclosed ▸ w.closed⟩,
    fun w => ⟨hspells.2 w.spelt, hclosed.trans w.closed⟩⟩

@[simp] theorem render_plain_accent (a : Text.Accent) : render .plain (accent a) = "" := by
  cases a <;> rfl

@[simp] theorem render_plain_plain : render .plain Piece.plain = "" := rfl

@[simp] theorem written_text_cons {s : String} :
    Written A (text s :: pieces) ↔ A.Spells s ∧ Written A pieces := by
  have hspells : A.Spells (renderAll .plain (text s :: pieces)) ↔
      A.Spells s ∧ A.Spells (renderAll .plain pieces) := by
    simp
  constructor
  · rintro ⟨hspelt, hclosed⟩
    exact ⟨(hspells.1 hspelt).1, (hspells.1 hspelt).2, hclosed⟩
  · rintro ⟨hs, hspelt, hclosed⟩
    exact ⟨hspells.2 ⟨hs, hspelt⟩, hclosed⟩

theorem spells_renderAll_texts {p : Text.Palette} {texts : List String} :
    A.Spells (renderAll p (texts.map text)) ↔ A.SpellsAll texts := by
  induction texts with
  | nil => simp
  | cons s texts ih => simp [ih]

theorem foldlM_after_texts (inAccent : Bool) (texts : List String) :
    (texts.map text).foldlM Piece.after inAccent = some inAccent := by
  induction texts with
  | nil => rfl
  | cons s texts ih => cases inAccent <;> simpa [Piece.after] using ih

/-- An accent may go on over several texts. -/
theorem written_accent {a : Text.Accent} {texts : List String} :
    Written A (accent a :: (texts.map text ++ Piece.plain :: pieces)) ↔
      A.SpellsAll texts ∧ Written A pieces := by
  have hspells : A.Spells (renderAll .plain (accent a :: (texts.map text ++ .plain :: pieces))) ↔
      A.SpellsAll texts ∧ A.Spells (renderAll .plain pieces) := by
    simp [spells_renderAll_texts]
  have hclosed : (accent a :: (texts.map text ++ .plain :: pieces)).foldlM Piece.after false =
      pieces.foldlM Piece.after false := by
    simp [Piece.after, foldlM_after_texts]
  constructor
  · rintro ⟨hspelt, h⟩
    exact ⟨(hspells.1 hspelt).1, (hspells.1 hspelt).2, hclosed ▸ h⟩
  · rintro ⟨htexts, hspelt, h⟩
    exact ⟨hspells.2 ⟨htexts, hspelt⟩, hclosed.trans h⟩

@[simp] theorem written_accented_append {a : Text.Accent} {s : String} :
    Written A (accented a s ++ pieces) ↔ A.Spells s ∧ Written A pieces := by
  have h : Written A (accent a :: ([s].map text ++ .plain :: pieces)) ↔
      A.SpellsAll [s] ∧ Written A pieces := written_accent
  have hs : A.SpellsAll [s] ↔ A.Spells s := by simp
  rwa [hs] at h

@[simp] theorem written_accented {a : Text.Accent} {s : String} :
    Written A (accented a s) ↔ A.Spells s := by
  rw [← List.append_nil (accented a s), written_accented_append, and_iff_left written_nil]

theorem written_between {separator : String} (hs : A.Spells separator) (first : Bool) :
    Written A (between first separator) := by
  cases first
  · exact written_text_cons.2 ⟨hs, written_nil⟩
  · exact written_nil

@[simp] theorem written_comma (first : Bool) : Written A (between first ", ") :=
  written_between (spells_fixed (by decide)) first

end Layout

/-! ### Types -/

open Alphabet

variable {A : Alphabet}

theorem Keyword.spells_word (k : Keyword) : A.Spells k.word := by
  cases k <;> exact Alphabet.spells_fixed (by decide)

namespace TypeExpr

mutual

/-- A type is well written with an alphabet that spells its names. -/
theorem written_pieces : ∀ t : TypeExpr, A.SpellsAll t.identifiers → Written A t.pieces
  | .keyword k, _ => by simp [pieces, k.spells_word]
  | .reference name [], h => by
    rw [identifiers, spellsAll_cons] at h
    rw [pieces, written_accented]
    exact h.1
  | .reference name (arg :: args), h => by
    rw [identifiers, spellsAll_cons] at h
    have hargs := written_listPieces true (arg :: args) h.2
    simp [pieces, h.1, hargs]
  | .union parts, h => written_partPieces (by decide) true parts h
  | .intersection parts, h => written_partPieces (by decide) true parts h
  | .tuple items, h => by
    have hitems := written_itemPieces true items h
    simp [pieces, hitems]
  | .function params result, h => by
    rw [identifiers, spellsAll_append] at h
    have hparams := written_paramPieces true params h.1
    have hresult := written_pieces result h.2
    simp [pieces, hparams, hresult]

theorem written_listPieces (first : Bool) :
    ∀ ts : List TypeExpr, A.SpellsAll (listIdentifiers ts) → Written A (listPieces first ts)
  | [], _ => written_nil
  | t :: ts, h => by
    rw [listIdentifiers, spellsAll_append] at h
    have ht := written_pieces t h.1
    have hts := written_listPieces false ts h.2
    simp [listPieces, ht, hts]

theorem written_partPieces {separator : String} (hs : separator.toList.all isFixed)
    (first : Bool) : ∀ ts : List TypeExpr, A.SpellsAll (listIdentifiers ts) →
      Written A (partPieces separator first ts)
  | [], _ => written_nil
  | t :: ts, h => by
    rw [listIdentifiers, spellsAll_append] at h
    have ht := written_pieces t h.1
    have hts := written_partPieces hs false ts h.2
    cases hc : t.isCompound <;>
      simp [partPieces, written_between (spells_fixed hs), hc, ht, hts]

theorem written_itemPieces (first : Bool) :
    ∀ items : List (TupleItem TypeExpr), A.SpellsAll (itemIdentifiers items) →
      Written A (itemPieces first items)
  | [], _ => written_nil
  | ⟨label, t⟩ :: items, h => by
    rw [itemIdentifiers, spellsAll_append, spellsAll_append] at h
    have ht := written_pieces t h.1.2
    have hitems := written_itemPieces false items h.2
    cases label with
    | none => simp [itemPieces, ht, hitems]
    | some name =>
      have hname := (spellsAll_cons.1 h.1.1).1
      simp [itemPieces, hname, ht, hitems]

theorem written_paramPieces (first : Bool) :
    ∀ params : List (Binding TypeExpr), A.SpellsAll (paramIdentifiers params) →
      Written A (paramPieces first params)
  | [], _ => written_nil
  | ⟨name, t⟩ :: params, h => by
    rw [paramIdentifiers, List.cons_append, spellsAll_cons, spellsAll_append] at h
    have ht := written_pieces t h.2.1
    have hparams := written_paramPieces false params h.2.2
    simp [paramPieces, h.1, ht, hparams]

end

end TypeExpr

/-! ### Declarations -/

namespace Heritage

theorem written_pieces {h : Heritage} (hs : A.SpellsAll h.identifiers) : Written A h.pieces := by
  obtain ⟨name, args⟩ := h
  obtain ⟨hname, hargs⟩ := spellsAll_cons.1 hs
  cases args with
  | nil => exact written_accented.2 hname
  | cons arg args =>
    have hlist := TypeExpr.written_listPieces true (arg :: args) hargs
    simp only at hname
    simp [pieces, hname, hlist]

theorem written_listPieces (first : Bool) {hs : List Heritage}
    (h : ∀ t ∈ hs, A.SpellsAll t.identifiers) : Written A (listPieces first hs) := by
  induction hs generalizing first with
  | nil => exact written_nil
  | cons t ts ih =>
    obtain ⟨ht, hts⟩ := List.forall_mem_cons.1 h
    simp [listPieces, written_pieces ht, ih false hts]

theorem written_clause {word : String} (hw : word.toList.all isFixed) {types : List Heritage}
    (h : ∀ t ∈ types, A.SpellsAll t.identifiers) : Written A (clause word types) := by
  rw [clause]
  split
  · exact written_nil
  · simp [spells_fixed hw, written_listPieces true h]

end Heritage

namespace TypeParam

theorem written_pieces {p : TypeParam} (h : A.SpellsAll p.identifiers) : Written A p.pieces := by
  rw [identifiers, spellsAll_cons, spellsAll_append, spellsAll_flatMap, spellsAll_flatMap] at h
  obtain ⟨hname, hconstraint, hfallback⟩ := h
  have hextends : ∀ t ∈ p.constraint, Written A t.pieces := fun t ht =>
    t.written_pieces (hconstraint t (Option.mem_toList.2 ht))
  have hdefault : ∀ t ∈ p.fallback, Written A t.pieces := fun t ht =>
    t.written_pieces (hfallback t (Option.mem_toList.2 ht))
  obtain ⟨name, constraint, fallback⟩ := p
  simp only at hname
  cases constraint <;> cases fallback <;> simp_all [pieces]

theorem written_listPieces (first : Bool) {ps : List TypeParam}
    (h : ∀ p ∈ ps, A.SpellsAll p.identifiers) : Written A (listPieces first ps) := by
  induction ps generalizing first with
  | nil => exact written_nil
  | cons p ps ih =>
    obtain ⟨hp, hps⟩ := List.forall_mem_cons.1 h
    simp [listPieces, written_pieces hp, ih false hps]

theorem written_clause {params : List TypeParam} (h : ∀ p ∈ params, A.SpellsAll p.identifiers) :
    Written A (clause params) := by
  rw [clause]
  split
  · exact written_nil
  · simp [written_listPieces true h]

end TypeParam

/-- The line that declares a member is well written. -/
theorem Member.written_declaring : ∀ {signature : Signature},
    A.SpellsAll signature.identifiers → Written A (declaring signature)
  | .method name params result, h => by
    rw [Signature.identifiers, List.cons_append, spellsAll_cons, spellsAll_append] at h
    have hparams := TypeExpr.written_paramPieces true params h.2.1
    have hresult := TypeExpr.written_pieces result h.2.2
    simp [declaring, h.1, hparams, hresult]
  | .property name type, h => by
    rw [Signature.identifiers, spellsAll_cons] at h
    have htype := TypeExpr.written_pieces type h.2
    simp [declaring, h.1, htype]
  | .index key type, h => by
    rw [Signature.identifiers, List.cons_append, spellsAll_cons, spellsAll_append] at h
    have hkey := TypeExpr.written_pieces key.type h.2.1
    have htype := TypeExpr.written_pieces type h.2.2
    simp [declaring, Param.pieces, h.1, hkey, htype]

theorem Modifier.written_pieces (modifiers : List Modifier) : Written A (pieces modifiers) := by
  induction modifiers with
  | nil => exact written_nil
  | cons m ms ih =>
    rw [pieces, List.flatMap_cons, ← pieces]
    cases m <;> simp [word, ih]

namespace Statement

theorem written_opening {head : Head} {keyword : String} (hk : keyword.toList.all isFixed)
    (hn : A.Spells head.name) : Written A (opening head keyword) := by
  simp [opening, Modifier.written_pieces, spells_fixed hk, hn]

theorem written_blockOpening {head : Head} (hn : A.Spells head.name) :
    ∀ kind, Written A (blockOpening head kind)
  | .everywhere => by simp [blockOpening, Modifier.written_pieces]
  | .named => written_opening (by decide) hn

/-- The line that a declaration is on, or begins with if it is a block. -/
def headline : Statement → List Piece
  | .interface head parents contracts _ =>
    opening head "interface" ++ Heritage.clause "extends" parents ++
      Heritage.clause "implements" contracts ++ [text " \x7b"]
  | .function head typeParams params result =>
    opening head "function" ++ TypeParam.clause typeParams ++ [text "("] ++
      TypeExpr.paramPieces true params ++ [text "): "] ++ result.pieces ++ [text ";"]
  | .constant head type => opening head "const" ++ [text ": "] ++ type.pieces ++ [text ";"]
  | .block head kind _ => blockOpening head kind ++ [text " \x7b"]

/-- The line that a declaration is on is well written. -/
theorem written_headline :
    ∀ {s : Statement}, A.SpellsAll s.identifiers → Written A s.headline
  | .interface head parents contracts members, h => by
    rw [identifiers, List.cons_append, spellsAll_cons, spellsAll_append, spellsAll_flatMap] at h
    obtain ⟨hname, htypes, -⟩ := h
    obtain ⟨hparents, hcontracts⟩ := List.forall_mem_append.1 htypes
    have hextends := Heritage.written_clause (by decide : "extends".toList.all isFixed) hparents
    have himplements :=
      Heritage.written_clause (by decide : "implements".toList.all isFixed) hcontracts
    simp [headline, written_opening, hname, hextends, himplements]
  | .function head typeParams params result, h => by
    rw [identifiers, List.cons_append, List.cons_append, spellsAll_cons, spellsAll_append,
      spellsAll_append, spellsAll_flatMap] at h
    obtain ⟨hname, ⟨htypeParams, hparams⟩, hresult⟩ := h
    have hparamPieces := TypeExpr.written_paramPieces true params hparams
    simp [headline, written_opening, hname, TypeParam.written_clause htypeParams, hparamPieces,
      result.written_pieces hresult]
  | .constant head type, h => by
    rw [identifiers, spellsAll_cons] at h
    simp [headline, written_opening, h.1, type.written_pieces h.2]
  | .block head kind body, h => by
    rw [identifiers, spellsAll_cons] at h
    simp [headline, written_blockOpening h.1]

end Statement

end ApiTypings
