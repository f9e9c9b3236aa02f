import ApiTypings.Proofs.Declaration.References
import ApiTypings.Rules.Builtin

/-!
# The rules of a table

A property of rules is one of a table if all its rules have it (`RuleTable.Every`), and it stays
one when rules with the property are added. For the table of the published API it is enough to
look at a few kinds of rules (**`every_builtin`**), which gives them the shapes of
`Rule.Published` (`every_published_builtin`); the rule for whole functions is one only
(`everySignature_builtin`).
-/

namespace ApiTypings

/-- The shapes of the published rules. The types that a callback or a collection is made of are
keywords, or named as the documentation names them: none of them brings references of its own. -/
inductive Rule.Published : Rule → Prop
  | callback (params : List (String × TypeSpec)) :
      params.flatMap (references ·.2) = [] → Published (.callback params)
  | pixel : Published .pixel
  | element : Published .element
  | map (key value : TypeSpec) : references key = [] → references value = [] →
      Published (.table (Checked.luaMap key value))
  | list : Published (.always (Checked.luaMap Keyword.number Keyword.string))
  | page : Published .page
  | shapes : Published .shapes
  | sounds : Published .sounds
  | avatarVariables : Published .avatarVariables
  | heights : Published .heights
  | vectorConstructors : Published .vectorConstructors

/-- Whether a type is named as the documentation names it, or is a keyword. -/
def TypeSpec.isSimple : TypeSpec → Bool
  | .documented _ | .made (.keyword _) => true
  | .made _ => false

theorem TypeSpec.references_of_isSimple {spec : TypeSpec} (h : spec.isSimple = true) :
    references spec = [] := by
  unfold isSimple at h
  split at h
  · rfl
  · rfl
  · cases h

namespace RuleTable

/-- All rules of a table have a property. -/
def Every (P : Rule → Prop) (t : RuleTable) : Prop :=
  ∀ owner member, ∀ entry ∈ t.rulesFor owner member, P entry.2

variable {P Q : Rule → Prop} {t : RuleTable} {rule : Rule}

theorem every_empty : empty.Every P := fun _ _ _ h => absurd h List.not_mem_nil

theorem Every.add (ht : t.Every P) (hr : P rule) (owner member : String) (target : Target) :
    (t.add owner member target rule).Every P := by
  intro o m entry he
  rw [rulesFor_add, List.mem_append] at he
  rcases he with he | he
  · exact ht o m entry he
  · split at he
    · obtain rfl := List.mem_singleton.1 he
      exact hr
    · exact absurd he List.not_mem_nil

theorem Every.addMembers (ht : t.Every P) (hr : P rule) (owner : String)
    (members : List String) (target : Target) :
    (members.foldl (fun t member => t.add owner member target rule) t).Every P := by
  induction members generalizing t with
  | nil => exact ht
  | cons member members ih => exact ih (ht.add hr owner member target)

theorem Every.addAll (ht : t.Every P) (hr : P rule) (owners members : List String)
    (target : Target) : (t.addAll owners members target rule).Every P := by
  unfold RuleTable.addAll
  induction owners generalizing t with
  | nil => exact ht
  | cons owner owners ih => exact ih (ht.addMembers hr owner members target)

theorem Every.mono (ht : t.Every P) (hpq : ∀ rule, P rule → Q rule) : t.Every Q :=
  fun owner member entry he => hpq _ (ht owner member entry he)

/-- The rules that are asked at a site are rules of the table. -/
theorem Every.of_asked (ht : t.Every P) (site : Site) :
    ∀ rule ∈ ((t.rulesFor site.owner site.member).filter (·.1 == site.target)).map (·.2),
      P rule := by
  intro rule hrule
  obtain ⟨entry, he, rfl⟩ := List.mem_map.1 hrule
  exact ht _ _ entry (List.mem_filter.1 he).1

open Rule Checked in
/-- **A property of the published rules**: it is enough to look at callbacks and collections that
are made of simple types, and at the nine rules that are neither. -/
theorem every_builtin
    (hcallback : ∀ params, params.all (·.2.isSimple) = true → P (callback params))
    (hmap : ∀ key value, key.isSimple = true → value.isSimple = true → P (table (luaMap key value)))
    (hother : ∀ rule ∈ [pixel, element, page, heights, shapes, sounds, avatarVariables,
      vectorConstructors, always (luaMap Keyword.number Keyword.string)], P rule) :
    builtin.Every P :=
  every_empty
  |>.addAll (hcallback _ rfl) _ _ _
  |>.add (hcallback _ rfl) _ _ _
  |>.addAll (hcallback _ rfl) _ _ _
  |>.addAll (hcallback _ rfl) _ _ _
  |>.add (hcallback _ rfl) _ _ _
  |>.addAll (hcallback _ rfl) _ _ _
  |>.addAll (hcallback _ rfl) _ _ _
  |>.addAll (hcallback _ rfl) _ _ _
  |>.addAll (hcallback _ rfl) _ _ _
  |>.add (hcallback _ rfl) _ _ _
  |>.addAll (hcallback _ rfl) _ _ _
  |>.addAll (hcallback _ rfl) _ _ _
  |>.addAll (hcallback _ rfl) _ _ _
  |>.add (hother _ (by simp)) _ _ _
  |>.addAll (hother _ (by simp)) _ _ _
  |>.add (hother _ (by simp)) _ _ _
  |>.add (hother _ (by simp)) _ _ _
  |>.addAll (hmap _ _ rfl rfl) _ _ _
  |>.addAll (hmap _ _ rfl rfl) _ _ _
  |>.addAll (hmap _ _ rfl rfl) _ _ _
  |>.add (hmap _ _ rfl rfl) _ _ _
  |>.addAll (hother _ (by simp)) _ _ _
  |>.add (hother _ (by simp)) _ _ _
  |>.add (hmap _ _ rfl rfl) _ _ _
  |>.add (hmap _ _ rfl rfl) _ _ _
  |>.add (hother _ (by simp)) _ _ _
  |>.add (hother _ (by simp)) _ _ _
  |>.add (hother _ (by simp)) _ _ _

/-- **The published rules have these shapes.** -/
theorem every_published_builtin : builtin.Every Rule.Published := by
  refine every_builtin (fun params hp => ?_) (fun key value hk hv => ?_) ?_
  · refine .callback params (List.flatMap_eq_nil_iff.2 fun p hmem => ?_)
    exact TypeSpec.references_of_isSimple (List.all_eq_true.1 hp p hmem)
  · exact .map key value (TypeSpec.references_of_isSimple hk) (TypeSpec.references_of_isSimple hv)
  · simp only [List.forall_mem_cons, List.not_mem_nil, false_imp_iff, implies_true, and_true]
    exact ⟨.pixel, .element, .page, .heights, .shapes, .sounds, .avatarVariables,
      .vectorConstructors, .list⟩

/-! ### Rules for whole functions -/

/-- All rules of a table for whole functions have a property. -/
def EverySignature (P : SignatureRule → Prop) (t : RuleTable) : Prop :=
  ∀ member rule, t.signature? member = some rule → P rule

/-- The one published rule for whole functions is that for interpolation. -/
theorem signature?_builtin (member : String) :
    builtin.signature? member = if member = "lerp" then some interpolation else none :=
  Keyed.get?_insert .empty "lerp" member interpolation

theorem everySignature_builtin {P : SignatureRule → Prop} (h : P interpolation) :
    builtin.EverySignature P := by
  intro member rule hr
  rw [signature?_builtin] at hr
  split at hr
  · obtain rfl := Option.some.inj hr
    exact h
  · cases hr

end RuleTable

end ApiTypings
