import ApiTypings.Declaration.Statement
import ApiTypings.Layout.TypeExpr

/-!
# Declarations as text

How declarations are printed (`Statement.lines`, `Member.lines`): each on a line of its
own after its comment, and what an interface or a block holds one level deeper. Keywords
and comments are dim and the names of declarations blue; the accent of a comment goes on
over its lines. There is a text for declarations (`Statement.printAll?`) if all lines fit.
-/

namespace ApiTypings

open Layout Piece

namespace Comment

/-- The line that a line of a comment is printed as. -/
def inner (line : String) : String := if line.isEmpty then " *" else " * " ++ line

/-- The lines of a comment. -/
def printed (depth : Nat) (comment : Comment) : List Line :=
  ⟨depth, [accent .dim, text "/**"]⟩ ::
    comment.lines.map (fun line => ⟨depth, [text (inner line)]⟩) ++
    [⟨depth, [text " */", plain]⟩]

/-- The lines of a comment, if there is one. -/
def printed? (depth : Nat) : Option Comment → List Line
  | none => []
  | some comment => comment.printed depth

end Comment

/-- The pieces of a parameter. -/
def Param.pieces (p : Param) : List Piece := text (p.name ++ ": ") :: p.type.pieces

namespace Member

/-- The line that declares a member. -/
def declaring : Signature → List Piece
  | .method name params result =>
    [text name, text "("] ++ TypeExpr.paramPieces true params ++ [text "): "] ++ result.pieces ++
      [text ";"]
  | .property name type => [text name, text ": "] ++ type.pieces ++ [text ";"]
  | .index key type =>
    [text "["] ++ Param.pieces key ++ [text "]: "] ++ type.pieces ++ [text ";"]

/-- The lines of a member. -/
def lines (depth : Nat) (m : Member) : List Line :=
  Comment.printed? depth m.comment ++ [⟨depth, declaring m.signature⟩]

/-- A member as a text, if its lines fit. -/
def print? (style : Style) (m : Member) : Option String :=
  Line.renderAll? style.palette style.indent (m.lines 0)

end Member

namespace Heritage

/-- The pieces of a type that is extended or implemented. -/
def pieces : Heritage → List Piece
  | ⟨name, []⟩ => accented .blue name
  | ⟨name, args⟩ =>
    accented .blue name ++ [text "<"] ++ TypeExpr.listPieces true args ++ [text ">"]

/-- The pieces of such types in a list. -/
def listPieces (first : Bool) : List Heritage → List Piece
  | [] => []
  | h :: hs => between first ", " ++ h.pieces ++ listPieces false hs

/-- The pieces of a clause, which is left out if it names no types. -/
def clause (word : String) (types : List Heritage) : List Piece :=
  if types.isEmpty then []
  else [text " "] ++ accented .dim word ++ [text " "] ++ listPieces true types

end Heritage

namespace TypeParam

/-- The pieces of a type parameter. -/
def pieces (p : TypeParam) : List Piece :=
  let constraint :=
    match p.constraint with
    | none => []
    | some t => [text " "] ++ accented .dim "extends" ++ [text " "] ++ t.pieces
  let fallback :=
    match p.fallback with
    | none => []
    | some t => [text " = "] ++ t.pieces
  [text p.name] ++ constraint ++ fallback

/-- The pieces of type parameters in a list. -/
def listPieces (first : Bool) : List TypeParam → List Piece
  | [] => []
  | p :: ps => between first ", " ++ p.pieces ++ listPieces false ps

/-- The pieces of type parameters in angle brackets, which are left out if there are none. -/
def clause (params : List TypeParam) : List Piece :=
  if params.isEmpty then [] else [text "<"] ++ listPieces true params ++ [text ">"]

end TypeParam

namespace Modifier

/-- The pieces of modifiers, with a space after each. -/
def pieces (modifiers : List Modifier) : List Piece :=
  modifiers.flatMap fun m => accented .dim m.word ++ [text " "]

end Modifier

namespace Statement

/-- The pieces of a declaration up to and with its name. -/
def opening (head : Head) (keyword : String) : List Piece :=
  Modifier.pieces head.modifiers ++ accented .dim keyword ++ [text " "] ++
    accented .blue head.name

/-- The pieces before the brace that opens a block. -/
def blockOpening (head : Head) : BlockKind → List Piece
  | .everywhere => Modifier.pieces head.modifiers ++ accented .dim "global"
  | .named => opening head "namespace"

mutual

/-- The lines of a declaration. -/
def lines (depth : Nat) : Statement → List Line
  | .interface head parents contracts members =>
    Comment.printed? depth head.comment ++
      [⟨depth, opening head "interface" ++ Heritage.clause "extends" parents ++
        Heritage.clause "implements" contracts ++ [text " \x7b"]⟩] ++
      members.flatMap (Member.lines (depth + 1)) ++ [⟨depth, [text "\x7d"]⟩]
  | .function head typeParams params result =>
    Comment.printed? depth head.comment ++
      [⟨depth, opening head "function" ++ TypeParam.clause typeParams ++ [text "("] ++
        TypeExpr.paramPieces true params ++ [text "): "] ++ result.pieces ++ [text ";"]⟩]
  | .constant head type =>
    Comment.printed? depth head.comment ++
      [⟨depth, opening head "const" ++ [text ": "] ++ type.pieces ++ [text ";"]⟩]
  | .block head kind body =>
    Comment.printed? depth head.comment ++ [⟨depth, blockOpening head kind ++ [text " \x7b"]⟩] ++
      listLines (depth + 1) body ++ [⟨depth, [text "\x7d"]⟩]

/-- The lines of declarations, one after the other. -/
def listLines (depth : Nat) : List Statement → List Line
  | [] => []
  | s :: ss => lines depth s ++ listLines depth ss

end

/-- A declaration as a text, if its lines fit. -/
def print? (style : Style) (s : Statement) : Option String :=
  Line.renderAll? style.palette style.indent (s.lines 0)

/-- Declarations whose lines fit as the text of a declaration file. -/
def printAll (style : Style) (ss : List Statement) : String :=
  Line.renderAll style.palette style.indent (listLines 0 ss)

/-- Declarations as the text of a declaration file, if their lines fit. -/
def printAll? (style : Style) (ss : List Statement) : Option String :=
  Line.renderAll? style.palette style.indent (listLines 0 ss)

end Statement

end ApiTypings
