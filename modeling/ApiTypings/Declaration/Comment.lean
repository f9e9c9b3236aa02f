import ApiTypings.Keyed
import ApiTypings.Text.Blank
import ApiTypings.Text.Lines

/-!
# Comments

The comment before a declaration (`Comment`). It is a list of lines none of which holds
the mark that ends a comment, so no text of the documentation can end one: a comment is
made of any lines by `Comment.ofLines`, which writes that mark in another way.
-/

namespace ApiTypings

/-- The characters that end a comment. -/
def commentEnd : List Char := ['*', '/']

/-- A text in which a backslash stands between every star and the slash after it. -/
def guarded : List Char → List Char
  | '*' :: '/' :: cs => '*' :: '\\' :: '/' :: guarded cs
  | c :: cs => c :: guarded cs
  | [] => []

/-- A guarded text begins with a slash only if the text does. -/
theorem head?_guarded (cs : List Char) : (guarded cs).head? = cs.head? := by
  fun_cases guarded cs <;> rfl

theorem commentEnd_not_infix_guarded (cs : List Char) : ¬ commentEnd <:+: guarded cs := by
  fun_induction guarded cs with
  | case1 cs ih =>
    simp only [commentEnd, List.infix_cons_iff, List.cons_prefix_cons] at ih ⊢
    simp [ih]
  | case2 c cs h ih =>
    simp only [commentEnd, List.infix_cons_iff, not_or] at ih ⊢
    refine ⟨fun hp => ?_, ih⟩
    obtain ⟨hc, hs⟩ := List.cons_prefix_cons.1 hp
    obtain ⟨rest, hr⟩ := hs
    have hh := head?_guarded cs
    rw [← hr] at hh
    cases cs with
    | nil => simp at hh
    | cons d cs =>
      simp only [List.cons_append, List.nil_append, List.head?_cons, Option.some.injEq] at hh
      exact h cs hc.symm (by rw [hh])
  | case3 => simp [commentEnd]

/-- A comment. -/
structure Comment where
  lines : List String
  /-- No line holds the end of a comment. -/
  unended : ∀ line ∈ lines, ¬ commentEnd <:+: line.toList
  deriving DecidableEq

namespace Comment

/-- The comment with the given lines, guarded. -/
def ofLines (lines : List String) : Comment where
  lines := lines.map fun line => String.ofList (guarded line.toList)
  unended := by
    intro line h
    obtain ⟨l, -, rfl⟩ := List.mem_map.1 h
    simpa using commentEnd_not_infix_guarded l.toList

/-- The comment that a description and tags make: the trimmed lines of the description, and
a line for every tag, with a blank line in between. A blank description counts as none, and
without tags there is then no comment. -/
def ofParts? (description : String) (tags : Keyed String String) : Option Comment :=
  let described :=
    if (Text.trim description).isEmpty then []
    else (Text.lines description.toList).map fun line => String.ofList (Text.trimmed line)
  let tagged := tags.entries.map fun (name, value) => Text.trim ("@" ++ name ++ " " ++ value)
  if described.isEmpty && tagged.isEmpty then none
  else
    let between := if described.isEmpty || tagged.isEmpty then [] else [""]
    some (ofLines (described ++ between ++ tagged))

end Comment

end ApiTypings
