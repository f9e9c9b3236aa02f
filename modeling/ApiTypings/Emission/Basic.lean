import ApiTypings.Checked.Declarations

/-!
# Emission

What a part of the documentation becomes (`Emission`): the members or declarations that
stand for it and get its description as their comment, and others around them. They are
made within the scope of its name (`Emission.emit`).
-/

namespace ApiTypings

/-- What can have a comment. -/
class Commented (ν : Type) where
  /-- The same with a comment, if one is given. -/
  withComment : ν → Option Comment → ν

instance : Commented Member := ⟨Member.withComment⟩

instance : Commented Statement := ⟨Statement.withComment⟩

/-- What a part of the documentation becomes. -/
structure Emission (ν : Type) where
  /-- The name of the part. -/
  name : String
  /-- Its description. -/
  description : String
  /-- What its comment says besides. -/
  tags : Keyed String String := .empty
  /-- What stands for it. -/
  primary : Checked (List ν)
  /-- What comes before that. -/
  preceding : Checked (List ν) := pure []
  /-- What comes after that. -/
  following : Checked (List ν) := pure []

namespace Emission

variable {ν : Type}

/-- The comment on what stands for the part. -/
def comment? (e : Emission ν) : Option Comment := Comment.ofParts? e.description e.tags

/-- Makes all that the part becomes: what stands for it is made first, and has the
comment. -/
def emit [Commented ν] (e : Emission ν) : Checked (List ν) :=
  Checked.within e.name do
    let primary ← e.primary
    let preceding ← e.preceding
    let following ← e.following
    return preceding ++ primary.map (Commented.withComment · e.comment?) ++ following

/-- What comes before is made after what stands for the part, and yet comes before it. -/
theorem value_emit [Commented ν] (e : Emission ν) (c : Context) :
    e.emit.value c =
      e.preceding.value (c.enter e.name) ++
        (e.primary.value (c.enter e.name)).map (Commented.withComment · e.comment?) ++
        e.following.value (c.enter e.name) := by
  simp [emit]

theorem diagnostics_emit [Commented ν] (e : Emission ν) (c : Context) :
    e.emit.diagnostics c =
      e.primary.diagnostics (c.enter e.name) ++ e.preceding.diagnostics (c.enter e.name) ++
        e.following.diagnostics (c.enter e.name) := by
  simp [emit]

end Emission

end ApiTypings
