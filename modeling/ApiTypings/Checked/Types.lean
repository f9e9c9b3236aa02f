import ApiTypings.Checked.Basic
import ApiTypings.Declaration.TypeExpr
import ApiTypings.Naming.Reserved

/-!
# Checked names and types

The names and types that declarations are made of, with the two checks that the
documentation cannot be trusted with: a name that is a reserved word is reported, and so is
a type that nobody declares.

A type is given as the documentation names it, or is already made (`TypeSpec`).
-/

namespace ApiTypings

/-- How a name is checked. -/
structure NameCheck where
  /-- Whether a reserved word is reported. -/
  warn : Bool := true
  /-- Whether the name is that of a parameter, so that it may be another than documented. -/
  substitute : Bool := false
  deriving DecidableEq, Repr

namespace NameCheck

/-- The check of a name that is declared. -/
def standard : NameCheck := {}

/-- No check. -/
def quiet : NameCheck := ⟨false, false⟩

/-- The check of the name of a parameter. -/
def parameter : NameCheck := ⟨true, true⟩

end NameCheck

/-- A type as the documentation names it, or one that is already made. -/
inductive TypeSpec
  | documented (name : String)
  | made (t : TypeExpr)

namespace TypeSpec

instance : Inhabited TypeSpec := ⟨made default⟩

instance : Coe String TypeSpec := ⟨documented⟩

instance : Coe TypeExpr TypeSpec := ⟨made⟩

instance : Coe Keyword TypeSpec := ⟨fun k => made (.keyword k)⟩

end TypeSpec

/-- The types that the documentation has names of its own for. -/
def primitive? : String → Option TypeExpr
  | "Boolean" => some (.keyword .boolean)
  | "Integer" => some (.keyword .number)
  | "Number" => some (.keyword .number)
  | "String" => some (.keyword .string)
  | "Table" => some (.reference "LuaTable" [])
  | "AnyType" => some (.keyword .any)
  | "nil" => some (.keyword .undefined)
  | _ => none

namespace Checked

/-- A name, checked in the given way. -/
def checkedName (name : String) (check : NameCheck := .standard) : Checked String := do
  let name := if check.substitute then Naming.parameterName name else name
  reportIf (check.warn && Naming.isReserved name) .reservedIdentifier name
  return name

/-- Reports a type that is not known. -/
def requireKnown (name : String) : Checked Unit := do
  reportIf (!(← context).isKnown name) .unknownType name

/-- The type that the documentation calls by a name. -/
def documentedType (name : String) : Checked TypeExpr :=
  match primitive? name with
  | some t => pure t
  | none => do
    requireKnown name
    return .reference name []

/-- The type that a specification stands for. -/
def typeOf : TypeSpec → Checked TypeExpr
  | .documented name => documentedType name
  | .made t => pure t

/-- A reference to a type that must be known, with arguments. -/
def reference (name : String) (args : List TypeSpec) : Checked TypeExpr := do
  requireKnown name
  return .reference name (← each typeOf args)

/-- The type of tables from keys to values. -/
def luaMap (key value : TypeSpec) : Checked TypeExpr := do
  return .reference "LuaMap" [← typeOf key, ← typeOf value]

/-- The type of several results at once. -/
def multiReturn (items : List (TupleItem TypeExpr)) : TypeExpr :=
  .reference "LuaMultiReturn" [.tuple items]

/-- A union. -/
def union (parts : List TypeSpec) : Checked TypeExpr := do
  return .union (← each typeOf parts)

/-- An intersection. -/
def intersection (parts : List TypeSpec) : Checked TypeExpr := do
  return .intersection (← each typeOf parts)

/-- An item of a tuple without a name. -/
def item (type : TypeSpec) : Checked (TupleItem TypeExpr) := do
  return ⟨none, ← typeOf type⟩

/-- An item of a tuple with a name. -/
def namedItem (label : String) (type : TypeSpec) : Checked (TupleItem TypeExpr) := do
  return ⟨some (← checkedName label .parameter), ← typeOf type⟩

/-- A parameter. -/
def param (name : String) (type : TypeSpec) : Checked Param := do
  return ⟨← checkedName name .parameter, ← typeOf type⟩

/-- A function type. -/
def functionType (params : List Param) (result : TypeSpec) : Checked TypeExpr := do
  return .function params (← typeOf result)

@[simp] theorem value_checkedName (name : String) (check : NameCheck) (c : Context) :
    (checkedName name check).value c =
      if check.substitute then Naming.parameterName name else name := rfl

@[simp] theorem value_requireKnown (name : String) (c : Context) :
    (requireKnown name).value c = () := rfl

@[simp] theorem diagnostics_requireKnown (name : String) (c : Context) :
    (requireKnown name).diagnostics c =
      if c.isKnown name then [] else [(Diagnostic.plain .unknownType c.location).withDetail name] := by
  simp only [requireKnown, diagnostics_bind, diagnostics_context, value_context, List.nil_append,
    diagnostics_reportIf]
  cases c.isKnown name <;> rfl

end Checked

end ApiTypings
