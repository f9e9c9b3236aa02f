import ApiTypings.Diagnostic
import ApiTypings.Proofs.Layout.Width
import ApiTypings.Proofs.Layout.Written
import ApiTypings.Proofs.Text.Codes

/-!
# Accents do not get into code

Declarations and diagnostics are printed with the codes of a terminal or without any.

**`decorates_coded`** — if what is printed holds no escape of its own, the codes are decoration
(`Decorates`): the text with codes is the text without them but for the codes, and these take
turns, so that no accent is set in another one or left at the end.

The proof goes along the pieces of all lines that are printed (`Line.laid`), since an accent may go
on over several lines: the accent of a comment does (`Comment.written_printed`).
-/

namespace ApiTypings

open Layout Piece Text

namespace Layout

/-! ### Pieces -/

/-- The codes in the coded text are decoration of the plain one. -/
structure Decorates (coded plain : String) : Prop where
  withoutCodes_eq : withoutCodes coded = plain
  takeTurns : takeTurns false (codes coded)

/-- All characters but the escape. -/
def Alphabet.unescaped : Alphabet := .without escape (by decide)

open Alphabet

@[simp] theorem unescaped_lineBreak : unescaped.Spells "\n" := spells_without.2 (by decide)

/-- What a piece is made of that is printed with codes. -/
def Piece.glyphs : Piece → List Glyph
  | .text s => s.toList.map .char
  | .accent a => [.code (Palette.coded.code a)]
  | .plain => [.code Palette.coded.reset]

variable {pieces : List Piece}

theorem glyphs_renderAll (h : unescaped.Spells (renderAll .plain pieces)) :
    Text.glyphs 0 (renderAll .coded pieces).toList = pieces.flatMap Piece.glyphs := by
  induction pieces with
  | nil => rfl
  | cons piece pieces ih =>
    rw [renderAll_cons, spells_append] at h
    rw [renderAll_cons, String.toList_append, List.flatMap_cons, ← ih h.2]
    cases piece with
    | text s => exact glyphs_append (spells_without.1 h.1) _
    | accent a => exact Palette.glyphs_code a _
    | plain => exact Palette.glyphs_reset _

/-- Without the codes, the text is left that is printed with none. -/
theorem filterMap_char?_glyphs (pieces : List Piece) :
    (pieces.flatMap Piece.glyphs).filterMap Glyph.char? = (renderAll .plain pieces).toList := by
  have hpiece (piece : Piece) :
      piece.glyphs.filterMap Glyph.char? = (render .plain piece).toList := by
    cases piece with
    | text s =>
      rw [Piece.glyphs, List.filterMap_map]
      exact List.filterMap_some
    | accent a => cases a <;> rfl
    | plain => rfl
  induction pieces with
  | nil => rfl
  | cons piece pieces ih =>
    rw [List.flatMap_cons, List.filterMap_append, hpiece, ih, renderAll_cons, String.toList_append]

/-- If every accent ends before another one begins, the codes take turns. -/
theorem takeTurns_glyphs {inAccent : Bool}
    (h : pieces.foldlM Piece.after inAccent = some false) :
    takeTurns inAccent ((pieces.flatMap Piece.glyphs).filterMap Glyph.code?) := by
  -- a code is met in the state in which the fold is, and a text changes neither
  induction pieces generalizing inAccent with
  | nil =>
    cases Option.some.inj h
    rfl
  | cons piece pieces ih =>
    rw [List.flatMap_cons, List.filterMap_append]
    cases piece with
    | text s =>
      have hnone : (Piece.text s).glyphs.filterMap Glyph.code? = [] := by
        rw [Piece.glyphs, List.filterMap_map]
        exact List.filterMap_eq_nil_iff.2 fun _ _ => rfl
      have hrest : pieces.foldlM Piece.after inAccent = some false := by
        cases inAccent <;> exact h
      rw [hnone]
      exact ih hrest
    | accent a =>
      cases inAccent with
      | true => cases h
      | false =>
        have hne := bne_iff_ne.2 (Palette.code_ne_reset a)
        exact Bool.and_eq_true_iff.2 ⟨hne, ih h⟩
    | plain =>
      cases inAccent with
      | false => cases h
      | true => exact Bool.and_eq_true_iff.2 ⟨beq_self_eq_true _, ih h⟩

/-- **The codes of well-written pieces are decoration.** -/
theorem Written.decorates (h : Written unescaped pieces) :
    Decorates (renderAll .coded pieces) (renderAll .plain pieces) where
  withoutCodes_eq := by
    rw [withoutCodes, glyphs_renderAll h.spelt, filterMap_char?_glyphs, String.ofList_toList]
  takeTurns := by
    rw [codes, glyphs_renderAll h.spelt]
    exact takeTurns_glyphs h.closed

/-! ### Lines -/

/-- The pieces of a line with its indentation and its line break. -/
def Line.laid (indent : Nat) (line : Line) : List Piece :=
  text (String.ofList (List.replicate (line.depth * indent) ' ')) :: (line.pieces ++ [text "\n"])

theorem Line.renderAll_eq (p : Palette) (indent : Nat) (lines : List Line) :
    Line.renderAll p indent lines = Piece.renderAll p (lines.flatMap (laid indent)) := by
  induction lines with
  | nil => rfl
  | cons line lines ih =>
    rw [List.flatMap_cons, Piece.renderAll_append, ← ih, ← List.singleton_append,
      Line.renderAll_append]
    simp [Line.renderAll, render, laid, String.append_assoc]

/-- Lines are well written if all of them, one after the other, are. -/
abbrev WrittenLines (indent : Nat) (lines : List Line) : Prop :=
  Written unescaped (lines.flatMap (Line.laid indent))

variable {indent depth : Nat}

theorem writtenLines_singleton (h : Written unescaped pieces) :
    WrittenLines indent [⟨depth, pieces⟩] := by
  simp [WrittenLines, Line.laid, h]

theorem WrittenLines.append {lines more : List Line} (h : WrittenLines indent lines)
    (hmore : WrittenLines indent more) : WrittenLines indent (lines ++ more) := by
  rw [WrittenLines, List.flatMap_append]
  exact (written_append h).2 hmore

theorem writtenLines_flatMap {α : Type} {f : α → List Line} {as : List α}
    (h : ∀ a ∈ as, WrittenLines indent (f a)) : WrittenLines indent (as.flatMap f) := by
  induction as with
  | nil => exact written_nil
  | cons a as ih =>
    obtain ⟨ha, has⟩ := List.forall_mem_cons.1 h
    exact ha.append (ih has)

end Layout

/-! ### Declarations -/

open Alphabet

variable {indent depth : Nat}

namespace Comment

/-- The texts that the accent of a comment goes on over. -/
def texts (indentation : String) (comment : Comment) : List String :=
  "/**" :: "\n" :: comment.lines.flatMap (fun line => [indentation, inner line, "\n"]) ++
    [indentation, " */"]

theorem flatMap_laid_printed (comment : Comment) :
    (comment.printed depth).flatMap (Line.laid indent) =
      text (String.ofList (List.replicate (depth * indent) ' ')) :: accent .dim ::
        ((comment.texts (String.ofList (List.replicate (depth * indent) ' '))).map text ++
          plain :: [text "\n"]) := by
  simp [printed, texts, Line.laid, List.flatMap_map, List.map_flatMap]

/-- What a line of a comment is printed as is spelt with the same alphabet, if it holds the star. -/
theorem spells_inner {A : Alphabet} (hs : A.Holds '*') {line : String} (h : A.Spells line) :
    A.Spells (inner line) := by
  have hblank : A.Holds ' ' := A.holds_fixed ' ' (by decide)
  rw [inner]
  split
  · simp [Spells, hblank, hs]
  · exact spells_append.2 ⟨by simp [Spells, hblank, hs], h⟩

/-- The accent of a comment ends with it. -/
theorem written_printed {comment : Comment} (h : unescaped.SpellsAll comment.lines) :
    WrittenLines indent (comment.printed depth) := by
  have hopen : unescaped.Spells "/**" := spells_without.2 (by decide)
  have hclose : unescaped.Spells " */" := spells_without.2 (by decide)
  have hstar : unescaped.Holds '*' := show '*' ≠ escape by decide
  have hlines (indentation : String) (hi : unescaped.Spells indentation) : unescaped.SpellsAll
      (comment.lines.flatMap fun line => [indentation, inner line, "\n"]) :=
    spellsAll_flatMap.2 fun line hl => by
      simp [hi, spells_inner hstar (h line hl)]
  rw [WrittenLines, flatMap_laid_printed, written_text_cons, written_accent]
  simp [texts, hopen, hclose, hlines]

theorem written_printed? {comment : Option Comment}
    (h : unescaped.SpellsAll (comment.toList.flatMap lines)) :
    WrittenLines indent (printed? depth comment) := by
  cases comment with
  | none => exact written_nil
  | some comment =>
    rw [Option.toList_some, List.flatMap_singleton] at h
    exact written_printed h

end Comment

/-- The lines of the comment on a member. -/
def Member.commentLines (m : Member) : List String := m.comment.toList.flatMap (·.lines)

/-- The lines of the comment on a declaration. -/
def Head.commentLines (head : Head) : List String := head.comment.toList.flatMap (·.lines)

theorem Member.written_lines {m : Member} (hnames : unescaped.SpellsAll m.signature.identifiers)
    (hcomment : unescaped.SpellsAll m.commentLines) : WrittenLines indent (m.lines depth) :=
  (Comment.written_printed? hcomment).append (writtenLines_singleton (written_declaring hnames))

namespace Statement

mutual

/-- The lines of the comments on a declaration and on what it holds. -/
def commentLines : Statement → List String
  | .interface head _ _ members => head.commentLines ++ members.flatMap Member.commentLines
  | .function head _ _ _ => head.commentLines
  | .constant head _ => head.commentLines
  | .block head _ body => head.commentLines ++ listCommentLines body

/-- The lines of the comments on declarations and on what they hold. -/
def listCommentLines : List Statement → List String
  | [] => []
  | s :: ss => commentLines s ++ listCommentLines ss

end

/-- A line with a comment before it is well written. -/
theorem writtenLines_commented {head : Head} {pieces : List Piece}
    (hcomment : unescaped.SpellsAll head.commentLines) (h : Written unescaped pieces) :
    WrittenLines indent (Comment.printed? depth head.comment ++ [⟨depth, pieces⟩]) :=
  (Comment.written_printed? hcomment).append (writtenLines_singleton h)

/-- A block with a comment before it is well written. -/
theorem writtenLines_braced {head : Head} {pieces : List Piece} {body : List Line}
    (hcomment : unescaped.SpellsAll head.commentLines) (h : Written unescaped pieces)
    (hbody : WrittenLines indent body) :
    WrittenLines indent
      (Comment.printed? depth head.comment ++ [⟨depth, pieces⟩] ++ body ++
        [⟨depth, [text "\x7d"]⟩]) :=
  ((writtenLines_commented hcomment h).append hbody).append (writtenLines_singleton (by simp))

mutual

/-- The lines of a declaration are well written. -/
theorem written_lines (depth : Nat) : ∀ s : Statement, unescaped.SpellsAll s.identifiers →
    unescaped.SpellsAll s.commentLines → WrittenLines indent (s.lines depth)
  | .interface head parents contracts members, hnames, hcomments => by
    have hline := written_headline hnames
    rw [identifiers, spellsAll_append, spellsAll_flatMap] at hnames
    rw [commentLines, spellsAll_append, spellsAll_flatMap] at hcomments
    have hmembers : WrittenLines indent (members.flatMap (Member.lines (depth + 1))) :=
      writtenLines_flatMap fun m hm => Member.written_lines (hnames.2 m hm) (hcomments.2 m hm)
    rw [lines]
    exact writtenLines_braced hcomments.1 hline hmembers
  | .function head typeParams params result, hnames, hcomments => by
    rw [lines]
    exact writtenLines_commented hcomments (written_headline hnames)
  | .constant head type, hnames, hcomments => by
    rw [lines]
    exact writtenLines_commented hcomments (written_headline hnames)
  | .block head kind body, hnames, hcomments => by
    have hline := written_headline hnames
    rw [identifiers, spellsAll_cons] at hnames
    rw [commentLines, spellsAll_append] at hcomments
    rw [lines]
    exact writtenLines_braced hcomments.1 hline
      (written_listLines (depth + 1) body hnames.2 hcomments.2)

theorem written_listLines (depth : Nat) : ∀ ss : List Statement,
    unescaped.SpellsAll (listIdentifiers ss) → unescaped.SpellsAll (listCommentLines ss) →
      WrittenLines indent (listLines depth ss)
  | [], _, _ => written_nil
  | s :: ss, hnames, hcomments => by
    rw [listIdentifiers, spellsAll_append] at hnames
    rw [listCommentLines, spellsAll_append] at hcomments
    rw [listLines]
    exact (written_lines depth s hnames.1 hcomments.1).append
      (written_listLines depth ss hnames.2 hcomments.2)

end

end Statement

/-! ### Diagnostics -/

namespace Diagnostic

/-- The texts of a diagnostic that are not the same for all. -/
def texts (d : Diagnostic) : List String := d.location :: d.message :: d.hints

theorem written_lines {d : Diagnostic} (h : unescaped.SpellsAll d.texts) :
    WrittenLines indent d.lines := by
  obtain ⟨hlocation, hmessage, hhints⟩ := by rwa [texts, spellsAll_cons, spellsAll_cons] at h
  have hword : unescaped.Spells d.severity.word := by cases d.severity <;> simp [Severity.word]
  have hheadline : Written unescaped
      (accented d.severity.accent d.severity.word ++ [text (": " ++ d.message)]) := by
    simp [hword, hmessage]
  have hplace : Written unescaped
      ([text "  "] ++ accented .blue "-->" ++ [text (" " ++ d.location)]) := by
    simp [hlocation]
  have hhint : ∀ hint ∈ d.hints, Written unescaped
      ([text "  "] ++ accented .blue "=" ++ [text (" hint: " ++ hint)]) := fun hint hh => by
    simp [hhints hint hh]
  rw [lines]
  refine ((writtenLines_singleton hheadline).append ?_).append ?_
  · split
    · exact written_nil
    · exact writtenLines_singleton hplace
  · rw [List.map_eq_flatMap]
    exact writtenLines_flatMap fun hint hh => writtenLines_singleton (hhint hint hh)

end Diagnostic

theorem Diagnostics.written_lines {ds : Diagnostics}
    (h : ∀ d ∈ ds, unescaped.SpellsAll d.texts) : WrittenLines indent ds.lines := by
  induction ds using lines.induct with
  | case1 => exact written_nil
  | case2 d => exact d.written_lines (h d (by simp))
  | case3 d ds hds ih =>
    obtain ⟨hd, htail⟩ := List.forall_mem_cons.1 h
    have hempty : WrittenLines indent [⟨0, []⟩] := writtenLines_singleton written_nil
    rw [lines]
    · exact (Diagnostic.written_lines hd).append (hempty.append (ih htail))
    · exact hds

/-! ### Texts -/

theorem unescaped_iff {texts : List String} :
    (∀ t ∈ texts, escape ∉ t.toList) ↔ unescaped.SpellsAll texts :=
  spellsAll_without.symm

theorem Statement.decorates_printAll {indent : Nat} {ss : List Statement}
    (h : ∀ t ∈ listIdentifiers ss ++ listCommentLines ss, escape ∉ t.toList) :
    Decorates (printAll ⟨indent, .coded⟩ ss) (printAll ⟨indent, .plain⟩ ss) := by
  obtain ⟨hnames, hcomments⟩ := spellsAll_append.1 (unescaped_iff.1 h)
  rw [printAll, printAll, Line.renderAll_eq, Line.renderAll_eq]
  exact (written_listLines 0 ss hnames hcomments).decorates

/-- There is a text with codes exactly if there is one without them. -/
theorem Statement.decorates_printAll? {indent : Nat} {ss : List Statement}
    (h : ∀ t ∈ listIdentifiers ss ++ listCommentLines ss, escape ∉ t.toList) :
    Option.Rel Decorates (printAll? ⟨indent, .coded⟩ ss) (printAll? ⟨indent, .plain⟩ ss) := by
  by_cases hfits : listHeight ss * indent ≤ widest
  · rw [printAll?_of_le hfits, printAll?_of_le hfits]
    exact .some (decorates_printAll h)
  · rw [printAll?_eq_none hfits, printAll?_eq_none hfits]
    exact .none

/-- **Accents do not get into code.** If no text in declarations or their comments holds an escape,
and no text in diagnostics, the codes that they are printed with are decoration. -/
theorem decorates_coded :
    (∀ (indent : Nat) (ss : List Statement),
      (∀ t ∈ Statement.listIdentifiers ss ++ Statement.listCommentLines ss, escape ∉ t.toList) →
        Decorates (Statement.printAll ⟨indent, .coded⟩ ss)
            (Statement.printAll ⟨indent, .plain⟩ ss) ∧
          Option.Rel Decorates (Statement.printAll? ⟨indent, .coded⟩ ss)
            (Statement.printAll? ⟨indent, .plain⟩ ss)) ∧
      ∀ ds : Diagnostics, (∀ d ∈ ds, ∀ t ∈ d.texts, escape ∉ t.toList) →
        Decorates (ds.render .coded) (ds.render .plain) := by
  refine ⟨fun indent ss h => ⟨Statement.decorates_printAll h, Statement.decorates_printAll? h⟩,
    fun ds h => ?_⟩
  rw [Diagnostics.render, Diagnostics.render, Line.renderAll_eq, Line.renderAll_eq]
  exact (Diagnostics.written_lines fun d hd => unescaped_iff.1 (h d hd)).decorates

/-- An interface with a comment, and a member. -/
def commentedVector : Statement :=
  .interface
    { comment := some (.ofLines ["A vector"]), modifiers := [.declared], name := "Vector3" }
    [{ name := "Vector" }] [] [{ signature := .property "x" (.keyword .number) }]

theorem decorates_coded_commentedVector :
    Decorates (Statement.printAll ⟨4, .coded⟩ [commentedVector])
        ("/**\n * A vector\n */\n" ++
          "declare interface Vector3 extends Vector \x7b\n    x: number;\n\x7d\n") ∧
      Decorates (Diagnostics.render .coded [.plain .parentCycle "Vector3"])
        ("warning: cyclic parent chain\n  --> Vector3\n" ++
          "  = hint: the chain is cut where it repeats\n") ∧
      codes (Statement.printAll ⟨4, .coded⟩ [commentedVector]) =
        [.dim, .dim, .dim, .blue, .dim, .blue].flatMap fun a =>
          [Palette.coded.code a, Palette.coded.reset] := by
  have hdeclaration := (decorates_coded.1 4 [commentedVector] (by decide)).1
  have hdiagnostic := decorates_coded.2 [.plain .parentCycle "Vector3"] (by decide)
  exact ⟨(congrArg (Decorates _) (by decide +kernel)).mp hdeclaration,
    (congrArg (Decorates _) (by decide +kernel)).mp hdiagnostic, by decide +kernel⟩

end ApiTypings
