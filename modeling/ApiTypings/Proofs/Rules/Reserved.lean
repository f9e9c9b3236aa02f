import ApiTypings.Proofs.Checked.Reserved
import ApiTypings.Proofs.Rules.Published

/-!
# Rules check names

A rule that answers with the type of a function declares the names of its parameters, and checks
them (`Rule.Declaring`); other rules declare nothing. The published rules are like that
(`declaring_builtin`), and so is the rule for interpolation. So whatever stands at a site, the names
in it are checked (**`declares_resolve`**): what the documentation names declares nothing, and a
rule that is not asked reports nothing.
-/

namespace ApiTypings

open Checked

theorem TypeSpec.declared_of_isSimple {spec : TypeSpec} (h : spec.isSimple = true) :
    spec.declared = [] := by
  unfold isSimple at h
  split at h
  · rfl
  · rfl
  · cases h

namespace Rule

/-- A rule that checks the names in its answers. -/
def Declaring (rule : Rule) : Prop := ∀ site, Declares TypeExpr.optionDeclared [] (rule site)

theorem declaring_callbackTo {params : List (String × TypeSpec)} {result : Checked TypeExpr}
    (hp : params.all (·.2.isSimple) = true) (hr : Declares TypeExpr.declared [] result) :
    Declaring (callbackTo params result) := by
  intro site
  have hnone : params.flatMap (·.2.declared) = [] := List.flatMap_eq_nil_iff.2 fun p hmem =>
    TypeSpec.declared_of_isSimple (List.all_eq_true.1 hp p hmem)
  have hparams := Declares.eachOf (fun p : String × TypeSpec => declares_param p.1 p.2) params
  rw [hnone] at hparams
  unfold callbackTo
  split
  · refine .andThen hparams fun ps => .andThen hr fun t => .value ?_
    rw [TypeExpr.optionDeclared_some, TypeExpr.declared_function, List.nil_append]
  · exact .value rfl

theorem declaring_table {type : Checked TypeExpr} (ht : Declares TypeExpr.declared [] type) :
    Declaring (table type) := by
  intro site
  unfold table
  split
  · exact .map ht TypeExpr.optionDeclared_some
  · exact .value rfl

theorem declaring_always {type : Checked TypeExpr} (ht : Declares TypeExpr.declared [] type) :
    Declaring (always type) :=
  fun _ => .map ht TypeExpr.optionDeclared_some

theorem declares_luaMap_of_isSimple {key value : TypeSpec} (hk : key.isSimple = true)
    (hv : value.isSimple = true) : Declares TypeExpr.declared [] (luaMap key value) := by
  have hmap := declares_luaMap key value
  rwa [TypeSpec.declared_of_isSimple hk, TypeSpec.declared_of_isSimple hv] at hmap

theorem declaring_pixel : Declaring pixel := by
  refine declaring_callbackTo rfl (.andThen (declares_documentedType _) fun t => ?_)
  exact .congr (declares_union _) fun _ => by simp

theorem declaring_page : Declaring page := by
  intro site
  unfold page
  split
  · exact .map (declares_luaMap_of_isSimple rfl rfl) TypeExpr.optionDeclared_some
  · refine .andThen (declares_documentedType _) fun t => .map ?_ TypeExpr.optionDeclared_some
    exact .congr (declares_union _) fun _ => by simp

theorem declares_number : Declares TupleItem.declared [] (item Keyword.number) := declares_item _

theorem declaring_heights : Declaring heights := by
  intro site
  unfold heights
  split
  · exact .andThen declares_number fun a => .andThen declares_number fun b => .value (by
      simp [multiReturn])
  · exact .value rfl

theorem declares_vectorConstructor (axes : List String) (result : String) :
    Declares TypeExpr.declared [] (vectorConstructor axes result) :=
  .andThen (.each (fun axis => declares_param axis _) axes) fun _ => declares_functionType _ _

theorem declaring_vectorConstructors : Declaring vectorConstructors := by
  refine declaring_always ?_
  refine .andThen (declares_vectorConstructor _ _) fun a =>
    .andThen (declares_vectorConstructor _ _) fun b =>
    .andThen (declares_vectorConstructor _ _) fun c => ?_
  exact .congr (declares_intersection _) fun _ => by simp

end Rule

/-- A rule for whole functions that checks the names in its declarations. -/
def SignatureRule.Declaring (rule : SignatureRule) : Prop :=
  ∀ name, Declares (List.flatMap Statement.declared) [] (rule name)

theorem declaring_interpolation : SignatureRule.Declaring interpolation := by
  intro name
  -- the types between which there are values are named, so that their union declares nothing
  refine .andThen (declares_typeOf _) fun number => .andThen (declares_documentedType _) fun v₂ =>
    .andThen (declares_documentedType _) fun v₃ => .andThen (declares_documentedType _) fun v₄ =>
    .andThen (declares_documentedType _) fun m₂ => .andThen (declares_documentedType _) fun m₃ =>
    .andThen (declares_documentedType _) fun m₄ => ?_
  refine .collect (declares_union _) (fun _ => by simp) fun interpolated => ?_
  refine .andThen (declares_param _ _) fun first => .andThen (declares_param _ _) fun last =>
    .andThen (declares_param _ _) fun t => ?_
  have hgeneric : Declares (List.flatMap Statement.declared)
      (TypeExpr.optionDeclared (some interpolated) ++ TypeExpr.optionDeclared none ++
        [first, last, t].flatMap Binding.declared) (do
        let generic ← typeParam "T" (some interpolated)
        return [← function name [first, last, t] "T" [] [generic]]) :=
    .bind (declares_typeParam _ _ _) fun generic => .map
      (.congr (declares_function _ _ _ _ _) fun _ => by
        simp [or_comm, or_assoc])
      (List.flatMap_singleton _)
  exact hgeneric.congr fun _ => by simp

namespace RuleTable

variable {t : RuleTable}

open Rule in
theorem declaring_builtin : builtin.Every Rule.Declaring := by
  refine every_builtin (fun params hp => declaring_callbackTo hp (.value rfl))
    (fun key value hk hv => declaring_table (declares_luaMap_of_isSimple hk hv)) ?_
  simp only [List.forall_mem_cons, List.not_mem_nil, false_imp_iff, implies_true, and_true]
  have hshapes : Declaring shapes := declaring_table
    (.andThen (declares_luaMap_of_isSimple rfl rfl) fun _ => declares_luaMap _ _)
  have hsounds : Declaring sounds := declaring_table
    (.andThen (declares_union _) fun _ => declares_luaMap _ _)
  have hvariables : Declaring avatarVariables := declaring_table
    (.andThen (declares_luaMap_of_isSimple rfl rfl) fun _ => declares_luaMap _ _)
  exact ⟨declaring_pixel, declaring_callbackTo rfl (.value rfl), declaring_page, declaring_heights,
    hshapes, hsounds, hvariables, declaring_vectorConstructors,
    declaring_always (declares_luaMap_of_isSimple rfl rfl)⟩

theorem declares_firstAnswer {site : Site} {rules : List Rule}
    (hr : ∀ rule ∈ rules, rule.Declaring) :
    Declares TypeExpr.optionDeclared [] (firstAnswer site rules) := by
  induction rules with
  | nil => exact .value rfl
  | cons rule rules ih =>
    have hrest := ih fun other ho => hr other (List.mem_cons_of_mem _ ho)
    refine .andThen (hr rule List.mem_cons_self site) fun answer => ?_
    cases answer with
    | none => exact hrest
    | some type => exact .value rfl

/-- **The names in what stands at a site are checked.** -/
theorem declares_resolve (ht : t.Every Rule.Declaring) (site : Site) :
    Declares TypeExpr.declared [] (t.resolve site) := by
  refine .andThen (declares_firstAnswer (ht.of_asked site)) fun answer => ?_
  cases answer with
  | none => exact declares_documentedType _
  | some type => exact .value (TypeExpr.optionDeclared_some type).symm

end RuleTable

end ApiTypings
