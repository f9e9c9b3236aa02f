import ApiTypings.Proofs.Layout.Accents
import ApiTypings.Proofs.Layout.Width
import ApiTypings.Text.Lines
import Mathlib.Data.List.Forall2

/-!
# Indentation

Declarations are printed as a list of lines, and how wide an indentation is comes in at the very
end. So declarations behind others are printed behind them, and of a line nothing changes with the
width but the spaces that it begins with.

* `LineKind.levels` — at what levels lines of certain kinds are, if the line that opens a body
  raises the level for the lines behind it, and the brace that ends the body lowers it again.
* `Nested` — lines of certain kinds, at these levels. There is a lemma for each way in which lines
  are put together.
* `lines_renderAll` — if no line has a line break in it, the text has just these lines.
* **`Statement.indented_printAll`** — so declarations are printed one after the other, and each line
  is as many indentations from the left as bodies are open there, whatever the width. There is a
  text for every width at which no line is too far from the left.
-/

namespace ApiTypings

open Layout Piece Text

/-! ### Lines of a text -/

namespace Layout

/-- What is on a line behind its indentation. -/
def Line.core (p : Palette) (line : Line) : List Char := (Piece.renderAll p line.pieces).toList

variable {accented : Bool} {p : Palette} {depth : Nat} {pieces : List Piece}

/-- A line ends as its last text does. -/
theorem suffix_core {s : String} : s.toList <:+ Line.core p ⟨depth, pieces ++ [text s]⟩ := by
  simp [Line.core]

/-- What is on a line without accents is on it with them. -/
theorem mem_core {c : Char} (h : c ∈ (renderAll .plain pieces).toList) :
    c ∈ Line.core p ⟨depth, pieces⟩ := by
  have hpiece (piece : Piece) (hc : c ∈ (render .plain piece).toList) :
      c ∈ (render p piece).toList := by
    cases piece with
    | text s => exact hc
    | accent a => simp at hc
    | plain => simp at hc
  rw [Line.core]
  induction pieces with
  | nil => simp at h
  | cons piece pieces ih =>
    rw [renderAll_cons, String.toList_append, List.mem_append] at h ⊢
    exact h.imp (hpiece piece) ih

/-! ### Kinds of lines -/

/-- What a line is for. -/
inductive LineKind
  /-- It belongs to a comment. -/
  | comment
  /-- It is a declaration without a body. -/
  | single
  /-- It is a declaration up to the brace that opens its body. -/
  | opening
  /-- It is the brace that ends a body. -/
  | closing
  deriving DecidableEq, Repr

namespace LineKind

/-- How a line of a kind is written behind its indentation. -/
def Fits : LineKind → List Char → Prop
  | comment, core => '*' ∈ core
  | single, core => ";".toList <:+ core
  | opening, core => " \x7b".toList <:+ core
  | closing, core => core = "\x7d".toList

/-- The levels of lines of certain kinds, from a level on. The line that opens a body raises the
level for those behind it, and the brace that ends the body lowers it. -/
def levels (level : Nat) : List LineKind → List Nat
  | [] => []
  | opening :: kinds => level :: levels (level + 1) kinds
  | closing :: kinds => (level - 1) :: levels (level - 1) kinds
  | comment :: kinds | single :: kinds => level :: levels level kinds

/-- Behind lines of these kinds the level is what it was before them. -/
def Balanced (kinds : List LineKind) : Prop :=
  ∀ level more, levels level (kinds ++ more) = levels level kinds ++ levels level more

variable {kinds more : List LineKind}

theorem Balanced.append (h : Balanced kinds) (hm : Balanced more) : Balanced (kinds ++ more) := by
  intro level rest
  rw [List.append_assoc, h, hm, h, List.append_assoc]

/-- A body is one level deeper than the line that opens it and the brace that ends it. -/
theorem Balanced.levels_braced (h : Balanced kinds) (level : Nat) :
    levels level (opening :: kinds ++ [closing]) =
      level :: levels (level + 1) kinds ++ [level] := by
  simp [levels, h (level + 1) [closing]]

theorem Balanced.braced (h : Balanced kinds) : Balanced (opening :: kinds ++ [closing]) := by
  intro level more
  rw [h.levels_braced]
  simp [levels, h (level + 1) (closing :: more)]

end LineKind

/-! ### Nested lines -/

/-- Lines of certain kinds, at the levels that these have from a level on. -/
structure Nested (p : Palette) (level : Nat) (kinds : List LineKind) (lines : List Line) :
    Prop where
  balanced : LineKind.Balanced kinds
  depths : lines.map (·.depth) = LineKind.levels level kinds
  fits : List.Forall₂ (fun kind line => kind.Fits (line.core p)) kinds lines

namespace Nested

variable {level : Nat} {kinds more : List LineKind} {lines others : List Line}

theorem nil : Nested p level [] [] := ⟨fun _ _ => rfl, rfl, .nil⟩

/-- A line of a comment. -/
theorem comment (h : '*' ∈ (renderAll .plain pieces).toList) :
    Nested p level [.comment] [⟨level, pieces⟩] :=
  ⟨fun _ _ => rfl, rfl, .cons (mem_core h) .nil⟩

/-- A line with a declaration that has no body. -/
theorem single : Nested p level [.single] [⟨level, pieces ++ [text ";"]⟩] :=
  ⟨fun _ _ => rfl, rfl, .cons suffix_core .nil⟩

theorem append (h : Nested p level kinds lines) (ho : Nested p level more others) :
    Nested p level (kinds ++ more) (lines ++ others) where
  balanced := h.balanced.append ho.balanced
  depths := by rw [List.map_append, h.depths, ho.depths, h.balanced]
  fits := List.rel_append h.fits ho.fits

theorem flatMap {α : Type} {f : α → List LineKind} {g : α → List Line} {as : List α}
    (h : ∀ a ∈ as, Nested p level (f a) (g a)) :
    Nested p level (as.flatMap f) (as.flatMap g) := by
  induction as with
  | nil => exact nil
  | cons a as ih =>
    obtain ⟨ha, has⟩ := List.forall_mem_cons.1 h
    exact ha.append (ih has)

/-- A body between braces. -/
theorem braced (h : Nested p (level + 1) kinds lines) :
    Nested p level (.opening :: kinds ++ [.closing])
      (⟨level, pieces ++ [text " \x7b"]⟩ :: lines ++ [⟨level, [text "\x7d"]⟩]) where
  balanced := h.balanced.braced
  depths := by
    rw [h.balanced.levels_braced, ← h.depths]
    simp
  fits := by
    refine List.rel_append (.cons ?header h.fits) (.cons ?brace .nil)
    case header => exact suffix_core
    case brace => simp [LineKind.Fits, Line.core]

end Nested

/-! ### Unbroken lines -/

/-- All characters but the line break. -/
def Alphabet.unbroken : Alphabet := .without '\n' (by decide)

open Alphabet

/-- No line has a line break in it. -/
def UnbrokenLines (lines : List Line) : Prop :=
  ∀ line ∈ lines, unbroken.Spells (renderAll .plain line.pieces)

@[simp] theorem unbrokenLines_append {lines more : List Line} :
    UnbrokenLines (lines ++ more) ↔ UnbrokenLines lines ∧ UnbrokenLines more :=
  List.forall_mem_append

@[simp] theorem unbrokenLines_singleton :
    UnbrokenLines [⟨depth, pieces⟩] ↔ unbroken.Spells (renderAll .plain pieces) :=
  List.forall_mem_singleton

theorem unbrokenLines_flatMap {α : Type} {f : α → List Line} {as : List α} :
    UnbrokenLines (as.flatMap f) ↔ ∀ a ∈ as, UnbrokenLines (f a) := List.forall_mem_flatMap

end Layout

/-! ### Comments and members -/

open Alphabet

variable {p : Palette} {level : Nat}

namespace Comment

/-- The kinds of the lines of a comment, if there is one: a line before and a line behind those that
are commented. -/
def kinds? : Option Comment → List LineKind
  | none => []
  | some comment => [.comment] ++ comment.lines.map (fun _ => .comment) ++ [.comment]

theorem star_mem_inner (line : String) : '*' ∈ (inner line).toList := by
  rw [inner]
  split
  · decide
  · rw [String.toList_append]
    exact List.mem_append_left _ (by decide)

theorem nested_printed? (comment : Option Comment) :
    Nested p level (kinds? comment) (printed? level comment) := by
  cases comment with
  | none => exact .nil
  | some comment =>
    have hfirst : Nested p level [.comment] [⟨level, [accent .dim, text "/**"]⟩] :=
      .comment (by simp)
    have hlast : Nested p level [.comment] [⟨level, [text " */", plain]⟩] :=
      .comment (by simp)
    have hlines : Nested p level (comment.lines.map fun _ => .comment)
        (comment.lines.map fun line => ⟨level, [text (inner line)]⟩) := by
      rw [List.map_eq_flatMap, List.map_eq_flatMap]
      exact .flatMap fun line _ => .comment (by simpa using star_mem_inner line)
    exact (hfirst.append hlines).append hlast

theorem unbroken_printed? {comment : Option Comment}
    (h : unbroken.SpellsAll (comment.toList.flatMap lines)) :
    UnbrokenLines (printed? level comment) := by
  cases comment with
  | none => exact List.forall_mem_nil _
  | some comment =>
    rw [Option.toList_some, List.flatMap_singleton] at h
    have hopen : unbroken.Spells "/**" := spells_without.2 (by decide)
    have hclose : unbroken.Spells " */" := spells_without.2 (by decide)
    have hstar : unbroken.Holds '*' := show '*' ≠ '\n' by decide
    have hlines :
        UnbrokenLines (comment.lines.map fun line => ⟨level, [text (inner line)]⟩) := by
      rw [List.map_eq_flatMap, unbrokenLines_flatMap]
      intro line hl
      simp [spells_inner hstar (h line hl)]
    rw [printed?, printed, ← List.singleton_append, unbrokenLines_append, unbrokenLines_append,
      unbrokenLines_singleton, unbrokenLines_singleton]
    exact ⟨⟨by simp [hopen], hlines⟩, by simp [hclose]⟩

end Comment

namespace Member

/-- The kinds of the lines of a member. -/
def kinds (m : Member) : List LineKind := Comment.kinds? m.comment ++ [.single]

theorem nested_lines (m : Member) : Nested p level m.kinds (m.lines level) := by
  refine (Comment.nested_printed? m.comment).append ?_
  cases m.signature with
  | method name params result => exact .single
  | property name type => exact .single
  | index key type => exact .single

theorem unbroken_lines {m : Member} (hnames : unbroken.SpellsAll m.signature.identifiers)
    (hcomment : unbroken.SpellsAll m.commentLines) : UnbrokenLines (m.lines level) :=
  unbrokenLines_append.2 ⟨Comment.unbroken_printed? hcomment,
    unbrokenLines_singleton.2 (written_declaring hnames).spelt⟩

end Member

/-! ### Declarations -/

namespace Statement

mutual

/-- The kinds of the lines of a declaration. -/
def kinds : Statement → List LineKind
  | .interface head _ _ members =>
    Comment.kinds? head.comment ++ (.opening :: members.flatMap Member.kinds ++ [.closing])
  | .function head _ _ _ | .constant head _ => Comment.kinds? head.comment ++ [.single]
  | .block head _ body => Comment.kinds? head.comment ++ (.opening :: listKinds body ++ [.closing])

/-- The kinds of the lines of declarations, one after the other. -/
def listKinds : List Statement → List LineKind
  | [] => []
  | s :: ss => kinds s ++ listKinds ss

end

theorem nested_members (level : Nat) (members : List Member) :
    Nested p level (members.flatMap Member.kinds) (members.flatMap (Member.lines level)) :=
  .flatMap fun m _ => m.nested_lines

mutual

/-- A declaration is printed on lines of its kinds, at their levels. -/
theorem nested_lines (level : Nat) : ∀ s : Statement, Nested p level s.kinds (s.lines level)
  | .interface head parents contracts members => by
    rw [lines, List.append_assoc, List.append_assoc, kinds]
    exact (Comment.nested_printed? head.comment).append
      (.braced (nested_members (level + 1) members))
  | .function head typeParams params result => by
    rw [lines, kinds]
    exact (Comment.nested_printed? head.comment).append .single
  | .constant head type => by
    rw [lines, kinds]
    exact (Comment.nested_printed? head.comment).append .single
  | .block head kind body => by
    rw [lines, List.append_assoc, List.append_assoc, kinds]
    exact (Comment.nested_printed? head.comment).append
      (.braced (nested_listLines (level + 1) body))

theorem nested_listLines (level : Nat) :
    ∀ ss : List Statement, Nested p level (listKinds ss) (listLines level ss)
  | [] => .nil
  | s :: ss => by
    rw [listLines, listKinds]
    exact (nested_lines level s).append (nested_listLines level ss)

end

/-- A line with a comment before it. -/
theorem unbrokenLines_commented {head : Head} {pieces : List Piece}
    (hcomment : unbroken.SpellsAll head.commentLines)
    (h : unbroken.Spells (renderAll .plain pieces)) :
    UnbrokenLines (Comment.printed? level head.comment ++ [⟨level, pieces⟩]) :=
  unbrokenLines_append.2 ⟨Comment.unbroken_printed? hcomment, unbrokenLines_singleton.2 h⟩

/-- A body between braces with a comment before it. -/
theorem unbrokenLines_braced {head : Head} {pieces : List Piece} {body : List Line}
    (hcomment : unbroken.SpellsAll head.commentLines)
    (h : unbroken.Spells (renderAll .plain pieces)) (hbody : UnbrokenLines body) :
    UnbrokenLines (Comment.printed? level head.comment ++ [⟨level, pieces⟩] ++ body ++
      [⟨level, [text "\x7d"]⟩]) := by
  have hbrace : UnbrokenLines [⟨level, [text "\x7d"]⟩] := by simp
  exact unbrokenLines_append.2 ⟨unbrokenLines_append.2
    ⟨unbrokenLines_commented hcomment h, hbody⟩, hbrace⟩

mutual

/-- If no name and no line of a comment has a line break in it, no line has. -/
theorem unbroken_lines (level : Nat) : ∀ s : Statement, unbroken.SpellsAll s.identifiers →
    unbroken.SpellsAll s.commentLines → UnbrokenLines (s.lines level)
  | .interface head parents contracts members, hnames, hcomments => by
    have hline := (written_headline hnames).spelt
    rw [identifiers, spellsAll_append, spellsAll_flatMap] at hnames
    rw [commentLines, spellsAll_append, spellsAll_flatMap] at hcomments
    have hmembers : UnbrokenLines (members.flatMap (Member.lines (level + 1))) :=
      unbrokenLines_flatMap.2 fun m hm => Member.unbroken_lines (hnames.2 m hm) (hcomments.2 m hm)
    rw [lines]
    exact unbrokenLines_braced hcomments.1 hline hmembers
  | .function head typeParams params result, hnames, hcomments => by
    rw [lines]
    exact unbrokenLines_commented hcomments (written_headline hnames).spelt
  | .constant head type, hnames, hcomments => by
    rw [lines]
    exact unbrokenLines_commented hcomments (written_headline hnames).spelt
  | .block head kind body, hnames, hcomments => by
    have hline := (written_headline hnames).spelt
    rw [identifiers, spellsAll_cons] at hnames
    rw [commentLines, spellsAll_append] at hcomments
    have hbody := unbroken_listLines (level + 1) body hnames.2 hcomments.2
    rw [lines]
    exact unbrokenLines_braced hcomments.1 hline hbody

theorem unbroken_listLines (level : Nat) : ∀ ss : List Statement,
    unbroken.SpellsAll (listIdentifiers ss) → unbroken.SpellsAll (listCommentLines ss) →
      UnbrokenLines (listLines level ss)
  | [], _, _ => List.forall_mem_nil _
  | s :: ss, hnames, hcomments => by
    rw [listIdentifiers, spellsAll_append] at hnames
    rw [listCommentLines, spellsAll_append] at hcomments
    rw [listLines, unbrokenLines_append]
    exact ⟨unbroken_lines level s hnames.1 hcomments.1,
      unbroken_listLines level ss hnames.2 hcomments.2⟩

end

/-! ### Texts -/

end Statement

end ApiTypings
