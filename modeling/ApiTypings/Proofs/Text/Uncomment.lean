import ApiTypings.Declaration.Comment

/-!
# Taking comments out of a text

A scan from left to right takes comments out of a text (`withoutComments`): where a comment
begins, what its line held so far goes with it, and where it ends, the rest of the line goes with
it and the line break. A comment that does not end, or not on a line that does, stays.

What is left of a stretch of a text depends on what comes before it, so stretches are looked at
that begin and end where a line does (`Leaves`). Of a line without a slash all is left, and of
a comment that its own text does not end, nothing is.
-/

namespace ApiTypings.Text

/-- Where in a text a scan is, and what it has put by, which goes if a comment is taken out. -/
inductive Place
  /-- In code, on this line so far. -/
  | code (line : List Char)
  /-- In a comment, after this since the line on which it begins. -/
  | comment (region : List Char)
  /-- On the line on which a comment has ended. -/
  | ended (region : List Char)

/-- What is left of the rest of a text when comments are taken out. -/
def uncomment : Place → List Char → List Char
  | .code line, [] => line
  | .code line, '/' :: '*' :: cs => uncomment (.comment (line ++ ['/', '*'])) cs
  | .code line, '\n' :: cs => line ++ '\n' :: uncomment (.code []) cs
  | .code line, c :: cs => uncomment (.code (line ++ [c])) cs
  | .comment region, [] => region
  | .comment region, '*' :: '/' :: cs => uncomment (.ended (region ++ ['*', '/'])) cs
  | .comment region, c :: cs => uncomment (.comment (region ++ [c])) cs
  | .ended region, [] => region
  | .ended _, '\n' :: cs => uncomment (.code []) cs
  | .ended region, c :: cs => uncomment (.ended (region ++ [c])) cs

/-- A text without its comments and what else is on the lines on which they begin and end. -/
def withoutComments (text : String) : String := String.ofList (uncomment (.code []) text.toList)

/-! ### Lines -/

/-- In code, a line is left that holds no slash. -/
theorem uncomment_code {line xs rest : List Char} (hs : '/' ∉ xs) :
    uncomment (.code line) (xs ++ '\n' :: rest) =
      line ++ xs ++ '\n' :: uncomment (.code []) rest := by
  induction xs generalizing line with
  | nil => simp [uncomment]
  | cons c xs ih =>
    have hc : c ≠ '/' := fun hc => hs (by simp [hc])
    have hxs : '/' ∉ xs := fun hx => hs (List.mem_cons_of_mem _ hx)
    by_cases hn : c = '\n'
    · subst hn
      simp [uncomment, ih hxs]
    · rw [List.cons_append, uncomment, ih hxs]
      · simp
      · exact fun _ he _ => hc he
      · exact hn

/-- After an indentation, a comment begins. -/
theorem uncomment_indented {line rest : List Char} (n : Nat) :
    uncomment (.code line) (List.replicate n ' ' ++ '/' :: '*' :: rest) =
      uncomment (.comment (line ++ List.replicate n ' ' ++ ['/', '*'])) rest := by
  induction n generalizing line with
  | zero => rw [List.replicate_zero, List.nil_append, uncomment, List.append_nil]
  | succ n ih =>
    rw [List.replicate_succ, List.cons_append, uncomment, ih, ← List.append_cons]
    · exact fun _ hs _ => absurd hs (by decide)
    · decide

/-- In a comment, a stretch that does not end it is put by. -/
theorem uncomment_comment {region xs rest : List Char} (hx : ¬ commentEnd <:+: xs)
    (hr : rest.head? ≠ some '/') :
    uncomment (.comment region) (xs ++ rest) = uncomment (.comment (region ++ xs)) rest := by
  induction xs generalizing region with
  | nil => rw [List.nil_append, List.append_nil]
  | cons c xs ih =>
    rw [List.infix_cons_iff, not_or] at hx
    rw [List.cons_append, uncomment, ih hx.2, ← List.append_cons]
    rintro cs rfl he
    refine hx.1 ?_
    cases xs with
    | nil => exact absurd (by rw [← List.nil_append rest, he]; rfl) hr
    | cons d xs =>
      obtain ⟨rfl, -⟩ := List.cons.inj he
      exact ⟨xs, rfl⟩

/-- In a comment, a line that does not end it is put by. -/
theorem uncomment_comment_line {region xs rest : List Char} (hx : ¬ commentEnd <:+: xs) :
    uncomment (.comment region) (xs ++ '\n' :: rest) =
      uncomment (.comment (region ++ (xs ++ ['\n']))) rest := by
  rw [uncomment_comment hx (by simp), uncomment, List.append_assoc]
  simp

/-- What ends a comment ends its line, and all that has been put by is taken out. -/
theorem uncomment_comment_end {region xs rest : List Char} (hx : ¬ commentEnd <:+: xs) :
    uncomment (.comment region) (xs ++ '*' :: '/' :: '\n' :: rest) =
      uncomment (.code []) rest := by
  rw [uncomment_comment hx (by simp), uncomment, uncomment]

/-- Of this stretch at the start of a line, that is left, and the scan is at the start of a line
again. -/
def Leaves (xs ys : List Char) : Prop :=
  ∀ rest, uncomment (.code []) (xs ++ rest) = ys ++ uncomment (.code []) rest

namespace Leaves

variable {xs xs' ys ys' : List Char}

theorem nil : Leaves [] [] := fun _ => rfl

theorem append (h : Leaves xs ys) (h' : Leaves xs' ys') : Leaves (xs ++ xs') (ys ++ ys') := by
  intro rest
  rw [List.append_assoc, h, h', List.append_assoc]

/-- All is left of a line without a slash. -/
theorem line (hs : '/' ∉ xs) : Leaves (xs ++ ['\n']) (xs ++ ['\n']) := by
  intro rest
  rw [List.append_assoc, List.singleton_append, uncomment_code hs]
  simp

theorem uncomment_eq (h : Leaves xs ys) : uncomment (.code []) xs = ys := by
  have hl := h []
  rw [List.append_nil] at hl
  rw [hl, uncomment, List.append_nil]

end Leaves

end ApiTypings.Text
