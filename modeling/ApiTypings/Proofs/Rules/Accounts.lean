import ApiTypings.Proofs.Checked.Accounts
import ApiTypings.Proofs.Rules.Published

/-!
# Rules account for their references

A rule that makes a type reports the unknown types that it refers to, and a rule that declines
reports none (`Rule.Accounted`). The published rules are like that (`Published.accounted`), and so
is the rule for interpolation. Then whatever stands at a site, its unknown types are reported
(**`accounts_resolve`**): the first rule that answers is asked, and the documented name is looked
at only if there is none.
-/

namespace ApiTypings

open Checked

namespace Rule

/-- A rule whose answers are accounted for. -/
def Accounted (rule : Rule) : Prop := ∀ site, Accounts [] (rule site)

theorem accounted_callbackTo {params : List (String × TypeSpec)} {result : Checked TypeExpr}
    (hp : params.flatMap (references ·.2) = []) (hr : Accounts [] result) :
    Accounted (callbackTo params result) := by
  intro site
  have hparams := Accounts.eachOf (fun (p : String × TypeSpec) => accounts_param p.1 p.2) params
  rw [hp] at hparams
  unfold callbackTo
  split
  · refine .andThen hparams fun ps => .andThen hr fun t => .value ?_
    rw [references_some, TypeExpr.references_function, List.nil_append]
  · exact .value rfl

theorem accounted_table {type : Checked TypeExpr} (ht : Accounts [] type) :
    Accounted (table type) := by
  intro site
  unfold table
  split
  · exact .map ht references_some
  · exact .value rfl

theorem accounted_always {type : Checked TypeExpr} (ht : Accounts [] type) :
    Accounted (always type) :=
  fun _ => .map ht references_some

theorem accounts_luaMap_of_nil {key value : TypeSpec} (hk : references key = [])
    (hv : references value = []) : Accounts [] (luaMap key value) := by
  have hmap := accounts_luaMap key value
  rwa [hk, hv] at hmap

theorem accounted_pixel : Accounted pixel := by
  refine accounted_callbackTo (by rfl) (.andThen (accounts_documentedType _) fun t => ?_)
  exact .congr (accounts_union _) fun _ => by simp

theorem accounted_page : Accounted page := by
  intro site
  unfold page
  split
  · exact .map (accounts_luaMap_of_nil rfl rfl) references_some
  · refine .andThen (accounts_documentedType _) fun t => .map ?_ references_some
    exact .congr (accounts_union _) fun _ => by simp

theorem accounts_number : Accounts [] (item Keyword.number) := accounts_item _

theorem accounted_heights : Accounted heights := by
  intro site
  unfold heights
  split
  · refine .andThen accounts_number fun a => .andThen accounts_number fun b =>
      .pure fun name hl => ?_
    have hne : name ≠ "LuaMultiReturn" := fun he => hl (he ▸ by decide)
    simp [multiReturn, hne]
  · exact .value rfl

theorem accounts_vectorConstructor (axes : List String) (result : String) :
    Accounts [] (vectorConstructor axes result) :=
  .andThen (.each (fun axis => accounts_param axis _) axes) fun _ => accounts_functionType _ _

theorem accounted_vectorConstructors : Accounted vectorConstructors := by
  refine accounted_always ?_
  refine .andThen (accounts_vectorConstructor _ _) fun a =>
    .andThen (accounts_vectorConstructor _ _) fun b =>
    .andThen (accounts_vectorConstructor _ _) fun c => ?_
  exact .congr (accounts_intersection _) fun _ => by simp

theorem Published.accounted {rule : Rule} (h : rule.Published) : rule.Accounted := by
  cases h with
  | callback params hp => exact accounted_callbackTo hp (.value rfl)
  | pixel => exact accounted_pixel
  | element => exact accounted_callbackTo (by rfl) (.value rfl)
  | map key value hk hv => exact accounted_table (accounts_luaMap_of_nil hk hv)
  | list => exact accounted_always (accounts_luaMap_of_nil rfl rfl)
  | page => exact accounted_page
  | shapes =>
    exact accounted_table
      (.andThen (accounts_luaMap_of_nil rfl rfl) fun _ => accounts_luaMap _ _)
  | sounds => exact accounted_table (.andThen (accounts_union _) fun _ => accounts_luaMap _ _)
  | avatarVariables =>
    exact accounted_table
      (.andThen (accounts_luaMap_of_nil rfl rfl) fun _ => accounts_luaMap _ _)
  | heights => exact accounted_heights
  | vectorConstructors => exact accounted_vectorConstructors

end Rule

/-- A rule for whole functions whose declarations are accounted for. -/
def SignatureRule.Accounted (rule : SignatureRule) : Prop := ∀ name, Accounts [] (rule name)

theorem accounted_interpolation : SignatureRule.Accounted interpolation := by
  intro name
  -- the types between which there are values become the constraint of the type parameter
  refine .andThen (accounts_typeOf _) fun number => .andThen (accounts_documentedType _) fun v₂ =>
    .andThen (accounts_documentedType _) fun v₃ => .andThen (accounts_documentedType _) fun v₄ =>
    .andThen (accounts_documentedType _) fun m₂ => .andThen (accounts_documentedType _) fun m₃ =>
    .andThen (accounts_documentedType _) fun m₄ => ?_
  refine .collect (accounts_union _) (fun _ => by simp) fun interpolated => ?_
  refine .andThen (accounts_param _ _) fun first => .andThen (accounts_param _ _) fun last =>
    .andThen (accounts_param _ _) fun t => ?_
  have hgeneric : Accounts (references (some interpolated) ++ references (none : Option TypeExpr) ++
      references [first, last, t]) (do
        let generic ← typeParam "T" (some interpolated)
        return [← function name [first, last, t] "T" [] [generic]]) :=
    .bind (accounts_typeParam _ _ _) fun generic => .map
      (.congr (accounts_function _ _ _ _ _) fun _ => by simp [or_comm, or_left_comm])
      references_singleton
  exact hgeneric.congr fun _ => by simp

namespace RuleTable

variable {t : RuleTable}

theorem accounts_firstAnswer {site : Site} {rules : List Rule}
    (hr : ∀ rule ∈ rules, rule.Accounted) : Accounts [] (firstAnswer site rules) := by
  induction rules with
  | nil => exact .value rfl
  | cons rule rules ih =>
    have hrest := ih fun other ho => hr other (List.mem_cons_of_mem _ ho)
    refine .andThen (hr rule List.mem_cons_self site) fun answer => ?_
    cases answer with
    | none => exact hrest
    | some type => exact .value rfl

/-- **What stands at a site is accounted for.** -/
theorem accounts_resolve (ht : t.Every Rule.Accounted) (site : Site) :
    Accounts [] (t.resolve site) := by
  refine .andThen (accounts_firstAnswer (ht.of_asked site)) fun answer => ?_
  cases answer with
  | none => exact accounts_documentedType _
  | some type => exact .value (references_some type).symm

end RuleTable

end ApiTypings
