import ApiTypings.Proofs.Checked.Located
import ApiTypings.Proofs.Rules.Published

/-!
# Rules report where they are asked

A rule enters no declaration, so it reports at the place where it is asked (`Rule.Local`). The
published rules are like that (`every_local_builtin`), and so is the rule for interpolation
(`local_interpolation`). What stands at a site is reported on there (**`reportsAt_resolve`**),
whether a rule answers or the documented name is looked at.
-/

namespace ApiTypings

open Checked

namespace Rule

/-- A rule that reports where it is asked. -/
def Local (rule : Rule) : Prop := ∀ site k, ReportsAt {k.location} k (rule site)

theorem local_callbackTo (params : List (String × TypeSpec)) {result : Checked TypeExpr}
    (hr : ∀ k, ReportsAt {k.location} k result) : Local (callbackTo params result) := by
  intro site k
  unfold callbackTo
  split
  · simp [hr k]
  · exact reportsAt_pure none

theorem local_table {type : Checked TypeExpr} (ht : ∀ k, ReportsAt {k.location} k type) :
    Local (table type) := by
  intro site k
  unfold table
  split
  · simp [ht k]
  · exact reportsAt_pure none

theorem local_always {type : Checked TypeExpr} (ht : ∀ k, ReportsAt {k.location} k type) :
    Local (always type) := by
  intro site k
  simp [always, ht k]

theorem local_page : Local page := by
  intro site k
  unfold page
  split <;> simp

theorem local_heights : Local heights := by
  intro site k
  unfold heights
  split <;> simp

theorem local_vectorConstructors : Local vectorConstructors :=
  local_always fun k => by simp [vectorConstructor]

end Rule

/-- A rule for whole functions that reports where it is asked. -/
def SignatureRule.Local (rule : SignatureRule) : Prop :=
  ∀ name k, ReportsAt {k.location} k (rule name)

theorem local_interpolation : SignatureRule.Local interpolation := by
  intro name k
  simp [interpolation]

namespace RuleTable

variable {t : RuleTable}

open Rule in
theorem every_local_builtin : builtin.Every Rule.Local := by
  refine every_builtin (fun params _ => local_callbackTo params fun k => reportsAt_pure _)
    (fun key value _ _ => local_table fun k => by simp) ?_
  simp only [List.forall_mem_cons, List.not_mem_nil, false_imp_iff, implies_true, and_true]
  have hpixel : Local pixel := local_callbackTo _ fun k => by simp
  have helement : Local element := local_callbackTo _ fun k => reportsAt_pure _
  have hshapes : Local shapes := local_table fun k => by simp
  have hsounds : Local sounds := local_table fun k => by simp
  have hvariables : Local avatarVariables := local_table fun k => by simp
  exact ⟨hpixel, helement, local_page, local_heights, hshapes, hsounds, hvariables,
    local_vectorConstructors, local_always fun k => by simp⟩

theorem reportsAt_firstAnswer {site : Site} {rules : List Rule} (hr : ∀ rule ∈ rules, rule.Local)
    (k : Context) : ReportsAt {k.location} k (firstAnswer site rules) := by
  induction rules with
  | nil => exact reportsAt_pure none
  | cons rule rules ih =>
    have hrest := ih fun other ho => hr other (List.mem_cons_of_mem _ ho)
    refine reportsAt_bind.2 ⟨hr rule List.mem_cons_self site k, ?_⟩
    split
    · exact reportsAt_pure _
    · exact hrest

/-- **What stands at a site is reported on where it is asked for.** -/
theorem reportsAt_resolve (ht : t.Every Rule.Local) {places : Set String} {k : Context}
    (hk : k.location ∈ places) (site : Site) : ReportsAt places k (t.resolve site) := by
  have hlookup : ReportsAt {k.location} k (t.lookup site) :=
    reportsAt_firstAnswer (ht.of_asked site) k
  refine reportsAt_bind.2 ⟨hlookup.mono (Set.singleton_subset_iff.2 hk), ?_⟩
  split
  · exact reportsAt_pure _
  · exact reportsAt_documentedType hk _

end RuleTable

end ApiTypings
