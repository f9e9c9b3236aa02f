import ApiTypings.Rules.Basic

/-!
# Overloads

The overloads of a method with their types made (`MethodDoc.overloadsOf`), and what is made
of them under each of the names of the method (`MethodDoc.expand`).
-/

namespace ApiTypings

/-- The parameters and the result of an overload. -/
structure Overload where
  params : List Param
  result : TypeExpr

namespace MethodDoc

open Checked

/-- The parameter at a place of an overload, with the type that the rules resolve it to. -/
def paramAt (m : MethodDoc) (rules : RuleTable) (owner : String) (place : Nat)
    (p : ParameterDoc) : Checked Param := do
  param p.name (← rules.resolve (.parameter owner m.name place p))

/-- The overload at a place. -/
def overloadAt (m : MethodDoc) (rules : RuleTable) (owner : String) (place : Nat)
    (overload : List ParameterDoc × String) : Checked Overload := do
  let params ← eachAt (m.paramAt rules owner) 0 overload.1
  let result ← rules.resolve (.result owner m.name place overload.2)
  return ⟨params, result⟩

/-- The detail of a mismatch. -/
def mismatch (m : MethodDoc) : String :=
  toString m.parameters.length ++ " parameter lists, " ++ toString m.returns.length ++
    " return types"

/-- The overloads of a method that have both parameters and a result; it is reported if
there are others. -/
def overloadsOf (m : MethodDoc) (rules : RuleTable) (owner : String) :
    Checked (List Overload) := do
  reportIf (!m.isPaired) .overloadMismatch m.mismatch
  eachAt (m.overloadAt rules owner) 0 m.overloads

/-- What is made of every overload under every name: all overloads under the first name,
then all of them under the next. -/
def expand {ν : Type} (m : MethodDoc) (make : String → Overload → Checked ν)
    (overloads : List Overload) : Checked (List ν) :=
  gather (fun name => each (make name) overloads) m.names

end MethodDoc

end ApiTypings
