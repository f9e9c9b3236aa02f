import ApiTypings.Docs.Basic

/-!
# Ancestors

A class names its parent, and its ancestors are found by following the names through a
list of classes (`Hierarchy.ancestry`): of several classes with one name, the first counts.
The walk ends at a class without a parent, at a name that no class has, or at a name that it
has met before (`Stop`).
-/

namespace ApiTypings

/-- Why a walk from parent to parent ends. -/
inductive Stop
  /-- The last class has no parent. -/
  | root
  /-- No class has the name of the parent. -/
  | unresolved (name : String)
  /-- The parent has been met before. -/
  | cycle (name : String)
  deriving DecidableEq, Repr

/-- The ancestors of a class, the nearest first, and why there are no more. -/
structure Ancestry where
  chain : List ClassDoc
  stop : Stop

/-- The classes among which parents are looked up. -/
structure Hierarchy where
  classes : List ClassDoc

namespace Hierarchy

/-- The first class with a name. -/
def find? (h : Hierarchy) (name : String) : Option ClassDoc := h.classes.find? (·.name == name)

theorem name_of_find? {h : Hierarchy} {name : String} {c : ClassDoc}
    (hf : h.find? name = some c) : c.name = name := by
  simpa using List.find?_some hf

theorem mem_of_find? {h : Hierarchy} {name : String} {c : ClassDoc}
    (hf : h.find? name = some c) : c ∈ h.classes :=
  List.mem_of_find?_eq_some hf

theorem find?_eq_none_iff {h : Hierarchy} {name : String} :
    h.find? name = none ↔ ∀ d ∈ h.classes, d.name ≠ name := by
  simp [find?]

/-- The classes whose names have not been met. -/
def unmet (h : Hierarchy) (met : List String) : List ClassDoc :=
  h.classes.filter fun c => !met.contains c.name

/-- Meeting a class makes the classes that have not been met fewer. -/
theorem length_unmet_lt {h : Hierarchy} {met : List String} {name : String} {c : ClassDoc}
    (hm : ¬ name ∈ met) (hf : h.find? name = some c) :
    (h.unmet (name :: met)).length < (h.unmet met).length := by
  have hn := name_of_find? hf
  have hc : c ∈ h.unmet met := by
    simp only [unmet, List.mem_filter, List.contains_eq_mem, hn]
    exact ⟨mem_of_find? hf, by simpa using hm⟩
  have he : h.unmet (name :: met) = (h.unmet met).filter (·.name != name) := by
    simp only [unmet, List.filter_filter]
    congr 1
    funext d
    by_cases hd : d.name = name <;> simp [hd]
  rw [he]
  exact List.length_filter_lt_length_iff_exists.2 ⟨c, hc, by simp [hn]⟩

/-- The ancestors from the named parent on, given the names that have been met. -/
def walk (h : Hierarchy) (met : List String) : Option String → Ancestry
  | none => ⟨[], .root⟩
  | some name =>
    if hm : name ∈ met then ⟨[], .cycle name⟩
    else
      match hf : h.find? name with
      | none => ⟨[], .unresolved name⟩
      | some c =>
        have := length_unmet_lt hm hf
        let further := walk h (name :: met) c.parentName?
        ⟨c :: further.chain, further.stop⟩
termination_by (h.unmet met).length

theorem walk_none (h : Hierarchy) (met : List String) : h.walk met none = ⟨[], .root⟩ := by
  rw [walk]

/-- A name that has been met closes a cycle, whether or not a class has it. -/
theorem walk_of_mem (h : Hierarchy) {met : List String} {name : String} (hm : name ∈ met) :
    h.walk met (some name) = ⟨[], .cycle name⟩ := by
  rw [walk, dif_pos hm]

theorem walk_of_find?_eq_none (h : Hierarchy) {met : List String} {name : String}
    (hm : ¬ name ∈ met) (hf : h.find? name = none) :
    h.walk met (some name) = ⟨[], .unresolved name⟩ := by
  rw [walk, dif_neg hm]
  split
  · rfl
  · next hc => rw [hf] at hc; exact absurd hc (by simp)

/-- A class that has not been met is an ancestor, and the walk goes on from it. -/
theorem walk_of_find?_eq_some (h : Hierarchy) {met : List String} {name : String} {c : ClassDoc}
    (hm : ¬ name ∈ met) (hf : h.find? name = some c) :
    h.walk met (some name) =
      ⟨c :: (h.walk (name :: met) c.parentName?).chain,
        (h.walk (name :: met) c.parentName?).stop⟩ := by
  rw [walk, dif_neg hm]
  split
  · next hc => rw [hf] at hc; exact absurd hc (by simp)
  · next d hd =>
    rw [hf] at hd
    obtain rfl := Option.some.inj hd
    rfl

/-- The ancestors of a class. -/
def ancestry (h : Hierarchy) (c : ClassDoc) : Ancestry := h.walk [c.name] c.parentName?

end Hierarchy

end ApiTypings
