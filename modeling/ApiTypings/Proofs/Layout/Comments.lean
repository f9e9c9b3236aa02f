import ApiTypings.Proofs.Layout.Width
import ApiTypings.Proofs.Layout.Written
import ApiTypings.Proofs.Text.Uncomment

/-!
# Comments do not get into code

Declarations are printed with their comments, on lines of their own. What a comment says comes
from documentation, and might say anything.

**`withoutComments_printAll`** — if no identifier holds a slash, what is left of the text of
declarations when comments are taken out is the text of the declarations without their comments,
on every level of nesting and for every indentation. So two lists of declarations that differ in
nothing but comments have the same code.

The proof goes along the lines that are printed (`Leaves`): the line of a declaration is left as
it is, as nothing that is printed but comments has a slash (`SlashFree`), and of a comment nothing
is left, as none of its lines ends it.
-/

namespace ApiTypings

open Layout Piece Text

/-! ### Slashes -/

/-- No name holds a slash. -/
def Slashless (names : List String) : Prop := ∀ name ∈ names, '/' ∉ name.toList

instance (names : List String) : Decidable (Slashless names) :=
  inferInstanceAs (Decidable (∀ name ∈ names, '/' ∉ name.toList))

/-- Without accents, the pieces are printed without a slash. -/
def SlashFree (pieces : List Piece) : Prop := '/' ∉ (renderAll .plain pieces).toList

/-- All characters but the slash. -/
def Layout.Alphabet.slashless : Alphabet := .without '/' (by decide)

open Alphabet

theorem slashless_iff {names : List String} : Slashless names ↔ slashless.SpellsAll names :=
  spellsAll_without.symm

/-- What is well written with names that hold no slash is printed without one. -/
theorem Layout.Written.slashFree {pieces : List Piece} (h : Written slashless pieces) :
    SlashFree pieces := spells_without.1 h.spelt

/-! ### Lines -/

/-- The characters of lines that are printed without accents. -/
def chars (indent : Nat) (lines : List Line) : List Char :=
  (Line.renderAll .plain indent lines).toList

variable {indent depth : Nat}

theorem chars_append (lines more : List Line) :
    chars indent (lines ++ more) = chars indent lines ++ chars indent more := by
  simp [chars]

/-- A line is its indentation, its pieces and a line break. -/
theorem chars_singleton (pieces : List Piece) :
    chars indent [⟨depth, pieces⟩] =
      List.replicate (depth * indent) ' ' ++ (renderAll .plain pieces).toList ++ ['\n'] := by
  simp [chars, Line.renderAll, Line.render]

/-- A line without a slash is left as it is. -/
theorem leaves_line {pieces : List Piece} (h : SlashFree pieces) :
    Leaves (chars indent [⟨depth, pieces⟩]) (chars indent [⟨depth, pieces⟩]) := by
  have hp : '/' ∉ (renderAll .plain pieces).toList := h
  rw [chars_singleton]
  exact .line (by simp [hp])

/-! ### Comments -/

theorem commentEnd_infix_indented_iff {n : Nat} {xs : List Char} :
    commentEnd <:+: List.replicate n ' ' ++ xs ↔ commentEnd <:+: xs := by
  induction n with
  | zero => rw [List.replicate_zero, List.nil_append]
  | succ n ih =>
    rw [List.replicate_succ, List.cons_append, List.infix_cons_iff, ih]
    simp [commentEnd]

/-- A line of a comment does not end it where it is printed. -/
theorem commentEnd_not_infix_inner {line : String} (h : ¬ commentEnd <:+: line.toList) :
    ¬ commentEnd <:+: (Comment.inner line).toList := by
  rw [Comment.inner]
  split
  · decide
  · simpa [commentEnd, List.infix_cons_iff] using h

/-- In a comment, its lines are put by. -/
theorem uncomment_inner {region rest : List Char} {lines : List String}
    (h : ∀ line ∈ lines, ¬ commentEnd <:+: line.toList) :
    ∃ region', uncomment (.comment region)
        (chars indent (lines.map fun line => ⟨depth, [text (Comment.inner line)]⟩) ++ rest) =
      uncomment (.comment region') rest := by
  induction lines generalizing region with
  | nil => exact ⟨region, rfl⟩
  | cons line lines ih =>
    obtain ⟨hline, hlines⟩ := List.forall_mem_cons.1 h
    have hprinted : ¬ commentEnd <:+:
        List.replicate (depth * indent) ' ' ++ (Comment.inner line).toList := fun hi =>
      commentEnd_not_infix_inner hline (commentEnd_infix_indented_iff.1 hi)
    rw [List.map_cons, ← List.singleton_append, chars_append, chars_singleton]
    simp only [renderAll_cons, render_text, renderAll_nil, String.append_empty, List.append_assoc,
      List.cons_append, List.nil_append]
    rw [← List.append_assoc, uncomment_comment_line hprinted]
    exact ih hlines

/-- **Nothing is left of a comment.** -/
theorem Comment.leaves_printed (comment : Comment) :
    Leaves (chars indent (comment.printed depth)) [] := by
  intro rest
  have hopen : chars indent [⟨depth, [accent .dim, text "/**"]⟩] =
      List.replicate (depth * indent) ' ' ++ '/' :: '*' :: ['*', '\n'] := by
    rw [chars_singleton]
    simp [renderAll, render, Palette.code, Palette.plain]
  have hclose : chars indent [⟨depth, [text " */", plain]⟩] =
      (List.replicate (depth * indent) ' ' ++ [' ']) ++ '*' :: '/' :: ['\n'] := by
    rw [chars_singleton]
    simp [renderAll, render, Palette.plain]
  have hstar (more : List Char) : '*' :: '\n' :: more = ['*'] ++ '\n' :: more := rfl
  have hblank : ¬ commentEnd <:+: List.replicate (depth * indent) ' ' ++ [' '] := fun hi =>
    absurd (commentEnd_infix_indented_iff.1 hi) (by decide)
  rw [printed, ← List.singleton_append, chars_append, chars_append, hopen, hclose]
  simp only [List.append_assoc, List.cons_append, List.nil_append]
  rw [uncomment_indented, hstar, uncomment_comment_line (by decide)]
  obtain ⟨region, hinner⟩ := uncomment_inner comment.unended
  rw [hinner, List.append_cons, uncomment_comment_end hblank]

theorem Comment.leaves_printed? (comment : Option Comment) :
    Leaves (chars indent (Comment.printed? depth comment)) [] := by
  cases comment with
  | none => exact .nil
  | some comment => exact comment.leaves_printed

/-! ### Declarations -/

/-- What is left of a line with a comment before it is the line. -/
theorem leaves_commented (comment : Option Comment) {pieces : List Piece} (h : SlashFree pieces) :
    Leaves (chars indent (Comment.printed? depth comment ++ [⟨depth, pieces⟩]))
      (chars indent [⟨depth, pieces⟩]) := by
  rw [chars_append]
  exact (Comment.leaves_printed? comment).append (leaves_line h)

/-- What is left of a block with a comment before it is the block with what is left in it. -/
theorem leaves_braced (comment : Option Comment) {pieces : List Piece} {body body' : List Line}
    (h : SlashFree pieces) (hbody : Leaves (chars indent body) (chars indent body')) :
    Leaves
      (chars indent
        (Comment.printed? depth comment ++ [⟨depth, pieces⟩] ++ body ++ [⟨depth, [text "\x7d"]⟩]))
      (chars indent ([⟨depth, pieces⟩] ++ body' ++ [⟨depth, [text "\x7d"]⟩])) := by
  have hbrace : SlashFree [text "\x7d"] := by simp [SlashFree]
  simp only [chars_append _ [⟨depth, [text "\x7d"]⟩], chars_append _ body, chars_append _ body']
  exact ((leaves_commented comment h).append hbody).append (leaves_line hbrace)

theorem Member.leaves_lines {m : Member} (h : slashless.SpellsAll m.signature.identifiers) :
    Leaves (chars indent (m.lines depth)) (chars indent (m.uncommented.lines depth)) :=
  leaves_commented m.comment (written_declaring h).slashFree

theorem Member.leaves_flatMap {ms : List Member}
    (h : ∀ m ∈ ms, slashless.SpellsAll m.signature.identifiers) :
    Leaves (chars indent (ms.flatMap (lines depth)))
      (chars indent ((ms.map uncommented).flatMap (lines depth))) := by
  induction ms with
  | nil => exact .nil
  | cons m ms ih =>
    obtain ⟨hm, hms⟩ := List.forall_mem_cons.1 h
    rw [List.map_cons, List.flatMap_cons, List.flatMap_cons, chars_append, chars_append]
    exact (leaves_lines hm).append (ih hms)

namespace Statement

mutual

/-- What is left of a declaration is the declaration without its comments. -/
theorem leaves_lines (depth : Nat) : ∀ s : Statement, slashless.SpellsAll s.identifiers →
    Leaves (chars indent (s.lines depth)) (chars indent (s.uncommented.lines depth))
  | .interface head parents contracts members, h => by
    have hline := (written_headline h).slashFree
    rw [identifiers, spellsAll_append, spellsAll_flatMap] at h
    rw [uncommented, lines, lines]
    exact leaves_braced head.comment hline (Member.leaves_flatMap h.2)
  | .function head typeParams params result, h => by
    rw [uncommented, lines, lines]
    exact leaves_commented head.comment (written_headline h).slashFree
  | .constant head type, h => by
    rw [uncommented, lines, lines]
    exact leaves_commented head.comment (written_headline h).slashFree
  | .block head kind body, h => by
    have hline := (written_headline h).slashFree
    rw [identifiers, spellsAll_cons] at h
    rw [uncommented, lines, lines]
    exact leaves_braced head.comment hline (leaves_listLines (depth + 1) body h.2)

theorem leaves_listLines (depth : Nat) :
    ∀ ss : List Statement, slashless.SpellsAll (listIdentifiers ss) →
      Leaves (chars indent (listLines depth ss))
        (chars indent (listLines depth (listUncommented ss)))
  | [], _ => .nil
  | s :: ss, h => by
    rw [listIdentifiers, spellsAll_append] at h
    rw [listUncommented, listLines, listLines, chars_append, chars_append]
    exact (leaves_lines depth s h.1).append (leaves_listLines depth ss h.2)

end

mutual

/-- Comments are no deeper than what they are on. -/
theorem height_uncommented : ∀ s : Statement, s.uncommented.height = s.height
  | .interface head parents contracts members => by simp [uncommented, height]
  | .function head typeParams params result => rfl
  | .constant head type => rfl
  | .block head kind [] => rfl
  | .block head kind (s :: ss) => by
    simp [uncommented, listUncommented, height, listHeight, height_uncommented s,
      listHeight_listUncommented ss]

theorem listHeight_listUncommented :
    ∀ ss : List Statement, listHeight (listUncommented ss) = listHeight ss
  | [] => rfl
  | s :: ss => by
    rw [listUncommented, listHeight, listHeight, height_uncommented s,
      listHeight_listUncommented ss]

end

/-- What is left of the text of declarations is their text without their comments. -/
theorem uncomment_printAll {ss : List Statement} (h : Slashless (listIdentifiers ss)) :
    withoutComments (printAll ⟨indent, .plain⟩ ss) =
      printAll ⟨indent, .plain⟩ (ss.map uncommented) := by
  have hleaves : Leaves (chars indent (listLines 0 ss))
      (chars indent (listLines 0 (listUncommented ss))) := leaves_listLines 0 ss (slashless_iff.1 h)
  rw [withoutComments, printAll, ← chars, hleaves.uncomment_eq, listUncommented_eq_map]
  exact String.ofList_toList

/-- There is a text with comments exactly if there is one without them. -/
theorem uncomment_printAll? {ss : List Statement} (h : Slashless (listIdentifiers ss)) :
    (printAll? ⟨indent, .plain⟩ ss).map withoutComments =
      printAll? ⟨indent, .plain⟩ (ss.map uncommented) := by
  have hheight : listHeight (ss.map uncommented) = listHeight ss := by
    rw [← listUncommented_eq_map, listHeight_listUncommented]
  by_cases hfits : listHeight ss * indent ≤ widest
  · rw [printAll?_of_le hfits, printAll?_of_le (hheight.symm ▸ hfits), Option.map_some,
      uncomment_printAll h]
  · rw [printAll?_eq_none hfits, printAll?_eq_none (hheight.symm ▸ hfits), Option.map_none]

/-- **Comments do not get into code.** What is left of the text of declarations when comments are
taken out is their text without their comments, and there is one exactly if there is the other. So
it is the same for declarations that differ in nothing but comments. -/
theorem withoutComments_printAll (indent : Nat) (ss : List Statement)
    (h : Slashless (listIdentifiers ss)) :
    (withoutComments (printAll ⟨indent, .plain⟩ ss) =
        printAll ⟨indent, .plain⟩ (ss.map uncommented) ∧
      (printAll? ⟨indent, .plain⟩ ss).map withoutComments =
        printAll? ⟨indent, .plain⟩ (ss.map uncommented)) ∧
      ∀ ts : List Statement, ts.map uncommented = ss.map uncommented →
        withoutComments (printAll ⟨indent, .plain⟩ ts) =
            withoutComments (printAll ⟨indent, .plain⟩ ss) ∧
          (printAll? ⟨indent, .plain⟩ ts).map withoutComments =
            (printAll? ⟨indent, .plain⟩ ss).map withoutComments := by
  refine ⟨⟨uncomment_printAll h, uncomment_printAll? h⟩, fun ts hts => ?_⟩
  have hidentifiers : listIdentifiers ts = listIdentifiers ss := by
    rw [← listIdentifiers_listUncommented ts, ← listIdentifiers_listUncommented ss,
      listUncommented_eq_map, listUncommented_eq_map, hts]
  have hslashless : Slashless (listIdentifiers ts) := hidentifiers ▸ h
  constructor
  · rw [uncomment_printAll h, uncomment_printAll hslashless, hts]
  · rw [uncomment_printAll? h, uncomment_printAll? hslashless, hts]

/-- A namespace with comments on three levels that begin and end comments and hold code. -/
def talkative : List Statement :=
  [.block
    { comment := some (.ofLines ["ends */ here", "/* and **// there\nconst injected: any; /*"])
      modifiers := [.declared]
      name := "sounds" }
    .named
    [.interface { comment := some (.ofLines ["*/"]), name := "Sound" } [] []
      [{ comment := some (.ofLines ["", "*/ injected(): void; /**"])
         signature := .method "play" [⟨"volume", .keyword .number⟩] (.reference "Sound" []) }]]]

theorem withoutComments_printAll_talkative :
    Slashless (listIdentifiers talkative) ∧
      withoutComments (printAll ⟨2, .plain⟩ talkative) =
        "declare namespace sounds \x7b\n  interface Sound \x7b\n" ++
          "    play(volume: number): Sound;\n  \x7d\n\x7d\n" :=
  ⟨by decide, (withoutComments_printAll 2 talkative (by decide)).1.1.trans (by decide +kernel)⟩

end Statement

end ApiTypings
