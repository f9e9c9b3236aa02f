import ApiTypings.Checked.Declarations
import ApiTypings.Docs.Basic

/-!
# Rules for types

Documentation calls callbacks `Function` and collections `Table`. A rule knows better: it
looks at the place where a type stands (`Site`) and may answer with a precise one. Rules are
kept in a table under the owner and the member that they are for (`RuleTable`), and of
those for one place the first that answers decides. The table also holds rules that replace
all overloads of a function.
-/

namespace ApiTypings

/-- What of a member has a type. -/
inductive Target
  | parameter
  | result
  | field
  | constant
  deriving DecidableEq, Repr

/-- The place where a documented type stands. -/
structure Site where
  /-- The name of the class or namespace. -/
  owner : String
  /-- The name of the member; its other names share its rules. -/
  member : String
  target : Target
  /-- What the documentation calls the type. -/
  documented : String
  /-- The place of the parameter, or of the overload whose result it is. -/
  position : Nat := 0
  /-- The name of the parameter. -/
  name : Option String := none
  deriving DecidableEq, Repr

namespace Site

/-- The site of a parameter. -/
def parameter (owner member : String) (position : Nat) (p : ParameterDoc) : Site :=
  ⟨owner, member, .parameter, p.type, position, some p.name⟩

/-- The site of the result of an overload. -/
def result (owner member : String) (overload : Nat) (documented : String) : Site :=
  ⟨owner, member, .result, documented, overload, none⟩

/-- The site of a field of a class. -/
def field (owner : String) (f : FieldDoc) : Site := ⟨owner, f.name, .field, f.type, 0, none⟩

/-- The site of a field of a namespace, which becomes a constant. -/
def constant (owner : String) (f : FieldDoc) : Site :=
  ⟨owner, f.name, .constant, f.type, 0, none⟩

/-- Whether a callback is documented without its type. -/
def isFunction (s : Site) : Bool := s.documented == "Function"

/-- Whether a collection is documented without its type. -/
def isTable (s : Site) : Bool := s.documented == "Table"

end Site

/-- May answer with a type for a site. -/
abbrev Rule := Site → Checked (Option TypeExpr)

/-- Declares the function of a given name in its own way. -/
abbrev SignatureRule := String → Checked (List Statement)

/-- Rules under the owners and members that they are for, and rules for whole functions. -/
structure RuleTable where
  rules : Keyed String (Keyed String (List (Target × Rule))) := .empty
  signatures : Keyed String SignatureRule := .empty

namespace RuleTable

/-- The table without any rule. -/
def empty : RuleTable := {}

instance : Inhabited RuleTable := ⟨empty⟩

/-- The table with one more rule, behind those for the same owner and member. -/
def add (t : RuleTable) (owner member : String) (target : Target) (rule : Rule) : RuleTable :=
  { t with
    rules := t.rules.update owner fun members =>
      (members.getD .empty).update member fun rules => rules.getD [] ++ [(target, rule)] }

/-- The table with a rule for every member of every owner. -/
def addAll (t : RuleTable) (owners members : List String) (target : Target) (rule : Rule) :
    RuleTable :=
  owners.foldl (fun t owner => members.foldl (fun t member => t.add owner member target rule) t) t

/-- The table with a rule for the functions of a name; it replaces the one that was there. -/
def addSignature (t : RuleTable) (member : String) (rule : SignatureRule) : RuleTable :=
  { t with signatures := t.signatures.insert member rule }

/-- Whether the table has no rule. -/
def isEmpty (t : RuleTable) : Bool := t.rules.isEmpty && t.signatures.isEmpty

/-- The rules for a member of an owner. -/
def rulesFor (t : RuleTable) (owner member : String) : List (Target × Rule) :=
  ((t.rules.get? owner).bind (·.get? member)).getD []

/-- The answer of the first rule that has one. -/
def firstAnswer (site : Site) : List Rule → Checked (Option TypeExpr)
  | [] => pure none
  | rule :: rules => do
    match ← rule site with
    | some t => return some t
    | none => firstAnswer site rules

/-- The type that the rules for a site answer with. -/
def lookup (t : RuleTable) (site : Site) : Checked (Option TypeExpr) :=
  firstAnswer site (((t.rulesFor site.owner site.member).filter (·.1 == site.target)).map (·.2))

/-- The type at a site: the answer of the rules, or else what the documentation says. -/
def resolve (t : RuleTable) (site : Site) : Checked TypeExpr := do
  match ← t.lookup site with
  | some type => return type
  | none => Checked.documentedType site.documented

/-- The rule for the functions of a name. -/
def signature? (t : RuleTable) (member : String) : Option SignatureRule := t.signatures.get? member

@[simp] theorem rulesFor_empty (owner member : String) : empty.rulesFor owner member = [] := rfl

/-- A rule comes behind the others for its owner and member, and nowhere else. -/
theorem rulesFor_add (t : RuleTable) (owner member : String) (target : Target) (rule : Rule)
    (o m : String) :
    (t.add owner member target rule).rulesFor o m =
      t.rulesFor o m ++ if o = owner ∧ m = member then [(target, rule)] else [] := by
  simp only [rulesFor, add, Keyed.get?_update]
  by_cases ho : o = owner
  · subst ho
    by_cases hm : m = member
    · subst hm
      cases h : t.rules.get? o <;> simp [Keyed.get?_update]
    · cases h : t.rules.get? o <;> simp [Keyed.get?_update, hm]
  · simp [ho]

end RuleTable

end ApiTypings
