import ApiTypings.Ancestry.Flatten
import ApiTypings.Emission.Class

/-!
# Hierarchies as interfaces

The classes of a hierarchy become interfaces in their order, each without the methods that
it inherits (`Hierarchy.emit`). A broken link to a parent is reported for the class that
has the link, and for no other.
-/

namespace ApiTypings

namespace Flattened

/-- The kind of report on the class's own link to its parent, and the name it is about, if
that link is broken: the parent is not documented, or the class is its own ancestor. -/
def brokenLink? (f : Flattened) : Option (DiagnosticKind × String) :=
  match f.stop with
  | .unresolved parent => if f.ancestors.isEmpty then some (.unresolvedParent, parent) else none
  | .cycle name => if name = f.own.name then some (.parentCycle, name) else none
  | .root => none

/-- Reports a broken link. -/
def reportLink (f : Flattened) : Checked Unit :=
  match f.brokenLink? with
  | some (kind, name) => Checked.within f.own.name (Checked.report kind name)
  | none => pure ()

/-- The interfaces that the class becomes. -/
def emit (rules : RuleTable) (f : Flattened) : Checked (List Statement) := do
  f.reportLink
  (f.own.emission rules f.parent?).emit

end Flattened

namespace Hierarchy

/-- The interfaces that the classes become. -/
def emit (h : Hierarchy) (rules : RuleTable) : Checked (List Statement) :=
  Checked.gather (fun c => (h.flatten c).emit rules) h.classes

end Hierarchy

end ApiTypings
