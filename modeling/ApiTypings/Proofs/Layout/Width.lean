import ApiTypings.Layout.Statement

/-!
# Where declarations have a text

An indentation can be too wide for a text, and then declarations have none. How wide the widest of
their indentations is depends on nothing but how deep they are nested (`Statement.height`):
**`printAll?_eq_some_iff`** — declarations have a text exactly if as many indentations as they are
high are not too wide.
-/

namespace ApiTypings

open Layout Piece

variable {indent depth : Nat}

/-! ### Lines around a body -/

/-- What is less deep fits where something deeper does. -/
theorem fits_of_le {m n : Nat} (hmn : m ≤ n) (h : n * indent ≤ widest) : m * indent ≤ widest :=
  Nat.le_trans (Nat.mul_le_mul_right indent hmn) h

/-- A comment fits where the declaration does that it is on. -/
theorem Comment.fits_printed? (h : depth * indent ≤ widest) (comment : Option Comment) :
    ∀ line ∈ printed? depth comment, line.Fits indent := by
  cases comment with
  | none => exact List.forall_mem_nil _
  | some comment =>
    rw [printed?, printed, List.forall_mem_append, List.forall_mem_cons, List.forall_mem_map,
      List.forall_mem_singleton]
    exact ⟨⟨h, fun _ _ => h⟩, h⟩

variable {comment : Option Comment} {pieces closing : List Piece} {body : List Line}

theorem fits_commented :
    (∀ line ∈ Comment.printed? depth comment ++ [⟨depth, pieces⟩], line.Fits indent) ↔
      depth * indent ≤ widest := by
  rw [List.forall_mem_append, List.forall_mem_singleton]
  exact ⟨And.right, fun h => ⟨Comment.fits_printed? h comment, h⟩⟩

theorem fits_braced :
    (∀ line ∈ Comment.printed? depth comment ++ [⟨depth, pieces⟩] ++ body ++ [⟨depth, closing⟩],
        line.Fits indent) ↔
      depth * indent ≤ widest ∧ ∀ line ∈ body, line.Fits indent := by
  rw [List.forall_mem_append, List.forall_mem_append, fits_commented, List.forall_mem_singleton]
  exact ⟨And.left, fun h => ⟨h, h.1⟩⟩

/-! ### Declarations -/

namespace Statement

mutual

/-- How many levels there are below a declaration. -/
def height : Statement → Nat
  | .interface _ _ _ members => if members.isEmpty then 0 else 1
  | .function _ _ _ _ | .constant _ _ => 0
  | .block _ _ body => if body.isEmpty then 0 else listHeight body + 1

/-- How many levels there are below declarations. -/
def listHeight : List Statement → Nat
  | [] => 0
  | s :: ss => max (height s) (listHeight ss)

end

theorem fits_members {members : List Member} :
    (∀ line ∈ members.flatMap (Member.lines depth), line.Fits indent) ↔
      members = [] ∨ depth * indent ≤ widest := by
  have hmember (m : Member) : (∀ line ∈ m.lines depth, line.Fits indent) ↔
      depth * indent ≤ widest := fits_commented
  simp only [List.forall_mem_flatMap, hmember]
  cases members with
  | nil => simp
  | cons m members => simpa using fun h _ _ => h

mutual

/-- A declaration fits if the deepest of its lines does. -/
theorem fits_lines (depth : Nat) : ∀ s : Statement,
    (∀ line ∈ s.lines depth, line.Fits indent) ↔ (depth + s.height) * indent ≤ widest
  | .interface head parents contracts members => by
    rw [lines, fits_braced, fits_members, height]
    cases members with
    | nil => simp
    | cons m members => simpa using fits_of_le (Nat.le_succ depth)
  | .function head typeParams params result => by
    rw [lines, fits_commented, height, Nat.add_zero]
  | .constant head type => by
    rw [lines, fits_commented, height, Nat.add_zero]
  | .block head kind body => by
    rw [lines, fits_braced, fits_listLines, height]
    cases body with
    | nil => simp
    | cons s ss =>
      rw [Nat.add_assoc, Nat.add_comm 1]
      simpa using fits_of_le (Nat.le_add_right depth _)

/-- Declarations fit if the deepest of their lines does. -/
theorem fits_listLines (depth : Nat) : ∀ ss : List Statement,
    (∀ line ∈ listLines depth ss, line.Fits indent) ↔
      ss = [] ∨ (depth + listHeight ss) * indent ≤ widest
  | [] => by simp [listLines]
  | s :: ss => by
    rw [listLines, List.forall_mem_append, fits_lines, fits_listLines, listHeight,
      ← Nat.add_max_add_left, ← Nat.mul_max_mul_right, Nat.max_le]
    cases ss with
    | nil => simpa [listHeight] using fits_of_le (Nat.le_add_right depth _)
    | cons t ts => simp

end

/-- **Declarations have a text exactly if their deepest line fits.** -/
theorem printAll?_eq_some_iff {style : Style} {ss : List Statement} {text : String} :
    printAll? style ss = some text ↔
      listHeight ss * style.indent ≤ widest ∧ printAll style ss = text := by
  rw [printAll?, Line.renderAll?_eq_some_iff, fits_listLines, Nat.zero_add, printAll]
  refine and_congr_left' ⟨?_, .inr⟩
  rintro (rfl | h)
  · simp [listHeight]
  · exact h

theorem printAll?_of_le {style : Style} {ss : List Statement}
    (h : listHeight ss * style.indent ≤ widest) :
    printAll? style ss = some (printAll style ss) :=
  printAll?_eq_some_iff.2 ⟨h, rfl⟩

theorem printAll?_eq_none {style : Style} {ss : List Statement}
    (h : ¬ listHeight ss * style.indent ≤ widest) : printAll? style ss = none :=
  Option.eq_none_iff_forall_ne_some.2 fun _ ht => h (printAll?_eq_some_iff.1 ht).1

end Statement

end ApiTypings
