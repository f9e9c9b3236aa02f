import ApiTypings.Text.Palette

/-!
# Pieces and lines

What is printed is a list of lines (`Line`), each of them at a depth of nesting and made of
pieces: texts, and marks where an accent begins and ends (`Piece`). Only the last step
(`Line.render`) knows how wide an indentation is and which codes the accents have.

An indentation is a text of its own, and there is none with more than `widest` characters. So lines
have a text only if each of them fits (**`Line.renderAll?_eq_some_iff`**).
-/

namespace ApiTypings.Layout

open Text

/-- A piece of a line. -/
inductive Piece
  | text (s : String)
  /-- What follows has an accent. -/
  | accent (a : Accent)
  /-- What follows has none. -/
  | plain
  deriving DecidableEq, Repr

namespace Piece

/-- A piece as a text, with the codes of a palette. -/
def render (p : Palette) : Piece → String
  | text s => s
  | accent a => p.code a
  | plain => p.reset

/-- Pieces as a text, one after the other. -/
def renderAll (p : Palette) (pieces : List Piece) : String := String.join (pieces.map (render p))

@[simp] theorem renderAll_append (p : Palette) (pieces more : List Piece) :
    renderAll p (pieces ++ more) = renderAll p pieces ++ renderAll p more := by
  simp [renderAll]

@[simp] theorem render_text (p : Palette) (s : String) : render p (text s) = s := rfl

@[simp] theorem renderAll_nil (p : Palette) : renderAll p [] = "" := rfl

@[simp] theorem renderAll_cons (p : Palette) (piece : Piece) (pieces : List Piece) :
    renderAll p (piece :: pieces) = render p piece ++ renderAll p pieces := by
  simp [renderAll, String.join_cons]

/-- A text with an accent. -/
def accented (a : Accent) (s : String) : List Piece := [.accent a, .text s, .plain]

/-- A text between two items, before every item but the first. -/
def between (first : Bool) (separator : String) : List Piece :=
  if first then [] else [.text separator]

end Piece

/-- A printed line. -/
structure Line where
  depth : Nat
  pieces : List Piece
  deriving DecidableEq, Repr

/-- The greatest number of spaces that an indentation can have: `2 ^ 63 - 1`, which is the greatest
size of a text. -/
def widest : Nat := 0x7FFFFFFFFFFFFFFF

namespace Line

/-- Whether there is a text for the indentation of a line. -/
def Fits (indent : Nat) (line : Line) : Prop := line.depth * indent ≤ widest

instance (indent : Nat) (line : Line) : Decidable (line.Fits indent) := Nat.decLe _ _

/-- A line that fits as a text: indented, with the codes of a palette, and ended. -/
def render (p : Palette) (indent : Nat) (line : Line) : String :=
  String.ofList (List.replicate (line.depth * indent) ' ') ++ Piece.renderAll p line.pieces ++ "\n"

/-- A line as a text, none if it does not fit. -/
def render? (p : Palette) (indent : Nat) (line : Line) : Option String :=
  if line.Fits indent then some (line.render p indent) else none

/-- Lines that fit as a text. -/
def renderAll (p : Palette) (indent : Nat) (lines : List Line) : String :=
  String.join (lines.map (render p indent))

/-- Lines as a text, none if one of them does not fit. -/
def renderAll? (p : Palette) (indent : Nat) (lines : List Line) : Option String :=
  (lines.mapM (render? p indent)).map String.join

@[simp] theorem renderAll_append (p : Palette) (indent : Nat) (lines more : List Line) :
    renderAll p indent (lines ++ more) = renderAll p indent lines ++ renderAll p indent more := by
  simp [renderAll]

variable {p : Palette} {indent : Nat} {lines : List Line}

theorem render?_eq_some_iff {line : Line} {text : String} :
    render? p indent line = some text ↔ line.Fits indent ∧ render p indent line = text := by
  simp [render?]

theorem mapM_render?_eq_some_iff {texts : List String} :
    lines.mapM (render? p indent) = some texts ↔
      (∀ line ∈ lines, line.Fits indent) ∧ lines.map (render p indent) = texts := by
  induction lines generalizing texts with
  | nil => simp
  | cons line lines ih =>
    rw [List.forall_mem_cons, List.map_cons, List.mapM_cons]
    simp only [Option.bind_eq_bind, Option.bind_eq_some_iff, render?_eq_some_iff, ih, Option.pure_def,
      Option.some.injEq]
    constructor
    · rintro ⟨_, ⟨hline, rfl⟩, _, ⟨hlines, rfl⟩, rfl⟩
      exact ⟨⟨hline, hlines⟩, rfl⟩
    · rintro ⟨⟨hline, hlines⟩, rfl⟩
      exact ⟨_, ⟨hline, rfl⟩, _, ⟨hlines, rfl⟩, rfl⟩

/-- **Lines have a text exactly if each of them fits.** -/
theorem renderAll?_eq_some_iff {text : String} :
    renderAll? p indent lines = some text ↔
      (∀ line ∈ lines, line.Fits indent) ∧ renderAll p indent lines = text := by
  simp only [renderAll?, Option.map_eq_some_iff, mapM_render?_eq_some_iff, renderAll]
  constructor
  · rintro ⟨_, ⟨hlines, rfl⟩, rfl⟩
    exact ⟨hlines, rfl⟩
  · rintro ⟨hlines, rfl⟩
    exact ⟨_, ⟨hlines, rfl⟩, rfl⟩

end Line

/-- How declarations are printed. -/
structure Style where
  /-- How many spaces a level of nesting takes. -/
  indent : Nat := 4
  palette : Palette := .plain
  deriving DecidableEq, Repr

end ApiTypings.Layout
