import ApiTypings.Proofs.Emission.Overloads
import ApiTypings.Rules.Builtin
import Mathlib.Data.List.Nodup

/-!
# Parameters that are kept apart

A parameter that is documented as `function` is declared as `func`, whatever the other parameters of
the overload are called.

* `parameterName_eq_iff`, `nodup_map_parameterName_iff` — so two parameters get one name exactly if
  they have one, or if they are documented as `function` and `func`.
* **`nodup_paramNames_iff`** — so every declaration of an overload, in a class and in a namespace,
  has distinct parameters exactly if the documented ones are distinct and are not these two.
-/

namespace ApiTypings

open Checked

namespace Naming

/-- Two names become one name exactly if they are equal, or are `function` and `func`. -/
theorem parameterName_eq_iff {a b : String} :
    parameterName a = parameterName b ↔
      a = b ∨ (a = "function" ∧ b = "func") ∨ (a = "func" ∧ b = "function") := by
  unfold parameterName
  by_cases ha : a = "function" <;> by_cases hb : b = "function"
  · simp [ha, hb]
  · simp [ha, hb, eq_comm]
  · simp [ha, hb]
  · simp [ha, hb]

/-- Parameters are distinct exactly if their documented names are, and are not both `function` and
`func`. -/
theorem nodup_map_parameterName_iff {names : List String} :
    (names.map parameterName).Nodup ↔ names.Nodup ∧ ¬ ("function" ∈ names ∧ "func" ∈ names) := by
  constructor
  · intro h
    have hnames : names.Nodup := h.of_map
    refine ⟨hnames, fun ⟨hfunction, hfunc⟩ => ?_⟩
    have heq : "function" = "func" :=
      (List.nodup_map_iff_inj_on hnames).1 h _ hfunction _ hfunc rfl
    exact absurd heq (by decide)
  · rintro ⟨hnames, hboth⟩
    refine (List.nodup_map_iff_inj_on hnames).2 fun a ha b hb hab => ?_
    obtain heq | ⟨rfl, rfl⟩ | ⟨rfl, rfl⟩ := parameterName_eq_iff.1 hab
    · exact heq
    · exact absurd ⟨ha, hb⟩ hboth
    · exact absurd ⟨hb, ha⟩ hboth

end Naming

/-- The names of the parameters that a member of an interface declares. -/
def Signature.paramNames : Signature → List String
  | .method _ params _ => params.map (·.name)
  | .property _ _ => []
  | .index key _ => [key.name]

/-- The names of the parameters of a function; other declarations have none. -/
def Statement.paramNames : Statement → List String
  | .function _ _ params _ => params.map (·.name)
  | _ => []

namespace MethodDoc

theorem names_paramsIn (m : MethodDoc) (rules : RuleTable) (owner : String) (c : Context)
    (ps : List ParameterDoc) :
    (m.paramsIn rules owner c ps).map (·.name) = (ps.map (·.name)).map Naming.parameterName := by
  refine List.ext_getElem? fun i => ?_
  simp only [paramsIn, List.getElem?_map, List.getElem?_mapIdx, Option.map_map]
  rfl

/-- **Parameters are kept apart, except `function` and `func`.** Take any overload that has both
parameters and a result, and any name of the method. The class has a method for them, and a
namespace has a function unless a rule declares it as a whole. The parameters of either are distinct
exactly if those of the documentation are, and are not called both `function` and `func`. -/
theorem nodup_paramNames_iff (m : MethodDoc) (rules : RuleTable) (owner : String) (c : Context)
    {j k : Nat} {name : String} {ps : List ParameterDoc} {documented : String}
    (hj : m.names[j]? = some name) (hp : m.parameters[k]? = some ps)
    (hr : m.returns[k]? = some documented) :
    let place := j * min m.parameters.length m.returns.length + k
    let kept := (ps.map (·.name)).Nodup ∧
      ¬ ("function" ∈ ps.map (·.name) ∧ "func" ∈ ps.map (·.name))
    (∃ declared, ((m.emission rules owner).emit.value c)[place]? = some declared ∧
      declared.name? = some name ∧ (declared.signature.paramNames.Nodup ↔ kept)) ∧
    (rules.signature? m.name = none →
      ∃ declared, ((m.functionEmission rules owner).emit.value c)[place]? = some declared ∧
        declared.name = name ∧ (declared.paramNames.Nodup ↔ kept)) := by
  intro place kept
  have hkept : ((m.paramsIn rules owner (c.enter m.name) ps).map (·.name)).Nodup ↔ kept := by
    rw [names_paramsIn]
    exact Naming.nodup_map_parameterName_iff
  constructor
  · exact ⟨_, (m.expands_emission rules owner c).item hj hp hr, rfl, hkept⟩
  · intro hs
    exact ⟨_, (m.expands_functionEmission owner c hs).item hj hp hr, rfl, hkept⟩

/-- A method that takes a function under either name, and in another overload a key. -/
def callbackMethod : MethodDoc where
  name := "on"
  parameters := [[⟨"function", "Function"⟩, ⟨"func", "Function"⟩],
    [⟨"function", "Function"⟩, ⟨"key", "String"⟩]]
  returns := ["nil", "nil"]

theorem nodup_paramNames_iff_callback :
    callbackMethod.parameters[1]? = some [⟨"function", "Function"⟩, ⟨"key", "String"⟩] ∧
      RuleTable.builtin.signature? "on" = none ∧
      ∃ declared, ((callbackMethod.functionEmission .builtin "Lamp").emit.value {})[1]? =
        some declared ∧ declared.name = "on" ∧ declared.paramNames.Nodup := by
  have hs : RuleTable.builtin.signature? "on" = none := by decide +kernel
  obtain ⟨declared, hitem, hname, hkept⟩ :=
    (nodup_paramNames_iff callbackMethod .builtin "Lamp" {} (j := 0) (k := 1) rfl rfl rfl).2 hs
  exact ⟨rfl, hs, declared, hitem, hname, hkept.2 (by decide)⟩

/-- The parameters of the first overload are documented under distinct names. In a class and in a
namespace, both are declared as `func`, and nothing is reported. -/
theorem not_nodup_paramNames_callback :
    (∀ ps ∈ callbackMethod.parameters, (ps.map (·.name)).Nodup) ∧
      ((callbackMethod.emission .builtin "Lamp").emit.value ⟨["Function"], []⟩).map
          (·.signature.paramNames) = [["func", "func"], ["func", "key"]] ∧
      ((callbackMethod.functionEmission .builtin "Lamp").emit.value ⟨["Function"], []⟩).map
          (·.paramNames) = [["func", "func"], ["func", "key"]] ∧
      (callbackMethod.emission .builtin "Lamp").emit.diagnostics ⟨["Function"], []⟩ = [] ∧
      (callbackMethod.functionEmission .builtin "Lamp").emit.diagnostics ⟨["Function"], []⟩ = [] ∧
      ¬ ["func", "func"].Nodup := by
  decide +kernel

end MethodDoc

end ApiTypings
