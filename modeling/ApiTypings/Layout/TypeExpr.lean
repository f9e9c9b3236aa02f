import ApiTypings.Declaration.TypeExpr
import ApiTypings.Layout.Piece

/-!
# Types as text

How a type is printed (`TypeExpr.pieces`): on one line, the names of other types in blue,
and a part of a union or an intersection in parentheses if it is a union, an intersection
or a function itself.
-/

namespace ApiTypings

open Layout Piece

namespace TypeExpr

mutual

/-- The pieces of a type. -/
def pieces : TypeExpr → List Piece
  | .keyword k => [text k.word]
  | .reference name [] => accented .blue name
  | .reference name (arg :: args) =>
    accented .blue name ++ [text "<"] ++ listPieces true (arg :: args) ++ [text ">"]
  | .union parts => partPieces " | " true parts
  | .intersection parts => partPieces " & " true parts
  | .tuple items => [text "["] ++ itemPieces true items ++ [text "]"]
  | .function params result =>
    [text "("] ++ paramPieces true params ++ [text ") => "] ++ pieces result

/-- The pieces of types that stand in a list. -/
def listPieces (first : Bool) : List TypeExpr → List Piece
  | [] => []
  | t :: ts => between first ", " ++ pieces t ++ listPieces false ts

/-- The pieces of the parts of a union or an intersection. -/
def partPieces (separator : String) (first : Bool) : List TypeExpr → List Piece
  | [] => []
  | t :: ts =>
    between first separator ++
      (if t.isCompound then [text "("] ++ pieces t ++ [text ")"] else pieces t) ++
      partPieces separator false ts

/-- The pieces of the items of a tuple. -/
def itemPieces (first : Bool) : List (TupleItem TypeExpr) → List Piece
  | [] => []
  | ⟨none, t⟩ :: items => between first ", " ++ pieces t ++ itemPieces false items
  | ⟨some label, t⟩ :: items =>
    between first ", " ++ [text (label ++ ": ")] ++ pieces t ++ itemPieces false items

/-- The pieces of parameters. -/
def paramPieces (first : Bool) : List (Binding TypeExpr) → List Piece
  | [] => []
  | ⟨name, t⟩ :: params =>
    between first ", " ++ [text (name ++ ": ")] ++ pieces t ++ paramPieces false params

end

/-- A type as a text. -/
def print (style : Style) (t : TypeExpr) : String := renderAll style.palette t.pieces

end TypeExpr

end ApiTypings
