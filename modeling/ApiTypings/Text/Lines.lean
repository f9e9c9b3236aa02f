/-!
# Lines of a text

A text cut at its line breaks (`lines`).
-/

namespace ApiTypings.Text

/-- The stretches of a text between its line breaks; a text without any is one line. -/
def lines : List Char → List (List Char)
  | [] => [[]]
  | c :: cs =>
    if c = '\n' then [] :: lines cs
    else
      match lines cs with
      | [] => [[c]]
      | line :: rest => (c :: line) :: rest

end ApiTypings.Text
