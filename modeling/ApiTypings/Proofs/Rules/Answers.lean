import ApiTypings.Proofs.Checked.Made
import ApiTypings.Proofs.Rules.Published

/-!
# What rules answer

A rule is there because it knows a better type than the documentation. For the rules of the
published API (`RuleTable.builtin`) this module says so (`Rule.Proper`): such a rule is made of
checked names and types, looks at nothing but the documented type, and where it answers, the
answer is a type that no name in the documentation stands for (`TypeExpr.isPlain`).

* **`every_proper_builtin`** — the published rules are proper.
* `answer?` — the type that the rules of a table answer with, in whatever context
  (`value_lookup`).
* **`value_resolve_eq_iff`** — with proper rules, two places with one documented type have one
  type exactly if the rules answer the same for both.
-/

namespace ApiTypings

/-- Whether a type is one that a name in the documentation can stand for: a keyword, or a
reference without arguments. -/
def TypeExpr.isPlain : TypeExpr → Bool
  | .keyword _ => true
  | .reference _ [] => true
  | _ => false

open Checked

/-- A name in the documentation stands for a plain type. -/
theorem isPlain_documentedType (name : String) (c : Context) :
    ((documentedType name).value c).isPlain = true := by
  unfold documentedType
  split
  · next t ht =>
    unfold primitive? at ht
    split at ht <;> first | (obtain rfl := Option.some.inj ht; rfl) | cases ht
  · rfl

namespace Rule

/-- A rule that is made of checked names and types, that looks at nothing but the documented
type, and whose answers say more than the documentation can. -/
structure Proper (rule : Rule) : Prop where
  made : ∀ site, Made typeKinds (rule site)
  congr : ∀ {site other : Site}, site.documented = other.documented → rule site = rule other
  precise : ∀ {site : Site} {c : Context} {t : TypeExpr}, (rule site).value c = some t →
    t.isPlain = false

theorem proper_callbackTo (params : List (String × TypeSpec)) {result : Checked TypeExpr}
    (hr : Made typeKinds result) : Proper (callbackTo params result) where
  made site := by
    have hparams := Made.each (fun (p : String × TypeSpec) => made_param p.1 p.2) params
    unfold callbackTo
    split
    · exact .bind hparams fun _ => .bind hr fun _ => .pure _
    · exact .pure none
  congr hd := by rw [callbackTo, callbackTo, Site.isFunction, Site.isFunction, hd]
  precise {site c t} h := by
    unfold callbackTo at h
    split at h
    · obtain rfl := Option.some.inj h
      rfl
    · cases h

theorem proper_callback (params : List (String × TypeSpec)) : Proper (callback params) :=
  proper_callbackTo params (.pure _)

/-- A rule for tables is proper if the type that it makes is. -/
theorem proper_table {type : Checked TypeExpr} (hm : Made typeKinds type)
    (hp : ∀ c, (type.value c).isPlain = false) : Proper (table type) where
  made site := by
    unfold table
    split
    · exact .bind hm fun _ => .pure _
    · exact .pure none
  congr hd := by rw [table, table, Site.isTable, Site.isTable, hd]
  precise {site c t} h := by
    unfold table at h
    split at h
    · obtain rfl := Option.some.inj h
      exact hp c
    · cases h

theorem proper_always {type : Checked TypeExpr} (hm : Made typeKinds type)
    (hp : ∀ c, (type.value c).isPlain = false) : Proper (always type) where
  made _ := .bind hm fun _ => .pure _
  congr _ := rfl
  precise {_ c _} h := by
    obtain rfl := Option.some.inj h
    exact hp c

theorem proper_luaMap (key value : TypeSpec) : Proper (table (luaMap key value)) :=
  proper_table (made_luaMap key value) fun _ => rfl

theorem proper_pixel : Proper pixel :=
  proper_callbackTo _ (.bind (made_documentedType _) fun _ => made_union _)

theorem proper_element : Proper element := proper_callbackTo _ (.pure _)

theorem proper_page : Proper page where
  made site := by
    unfold page
    split
    · exact .bind (made_luaMap _ _) fun _ => .pure _
    · exact .bind (made_documentedType _) fun _ => .bind (made_union _) fun _ => .pure _
  congr hd := by rw [page, page, Site.isTable, Site.isTable, hd]
  precise {site c t} h := by
    unfold page at h
    split at h
    · obtain rfl := Option.some.inj h
      rfl
    · obtain rfl := Option.some.inj h
      rfl

theorem proper_heights : Proper heights where
  made site := by
    unfold heights
    split
    · exact .bind (made_item _) fun _ => .bind (made_item _) fun _ => .pure _
    · exact .pure none
  congr hd := by rw [heights, heights, hd]
  precise {site c t} h := by
    unfold heights at h
    split at h
    · obtain rfl := Option.some.inj h
      rfl
    · cases h

theorem proper_shapes : Proper shapes :=
  proper_table (.bind (made_luaMap _ _) fun _ => made_luaMap _ _) fun _ => rfl

theorem proper_sounds : Proper sounds :=
  proper_table (.bind (made_union _) fun _ => made_luaMap _ _) fun _ => rfl

theorem proper_avatarVariables : Proper avatarVariables :=
  proper_table (.bind (made_luaMap _ _) fun _ => made_luaMap _ _) fun _ => rfl

theorem made_vectorConstructor (axes : List String) (result : String) :
    Made typeKinds (vectorConstructor axes result) :=
  .bind (.each (fun axis => made_param axis _) axes) fun _ => made_functionType _ _

theorem proper_vectorConstructors : Proper vectorConstructors :=
  proper_always
    (.bind (made_vectorConstructor _ _) fun _ => .bind (made_vectorConstructor _ _) fun _ =>
      .bind (made_vectorConstructor _ _) fun _ => made_intersection _)
    fun _ => rfl

theorem Published.proper {rule : Rule} (h : rule.Published) : rule.Proper := by
  cases h with
  | callback params _ => exact proper_callback params
  | pixel => exact proper_pixel
  | element => exact proper_element
  | map key value _ _ => exact proper_luaMap key value
  | list => exact proper_always (made_luaMap _ _) fun _ => rfl
  | page => exact proper_page
  | shapes => exact proper_shapes
  | sounds => exact proper_sounds
  | avatarVariables => exact proper_avatarVariables
  | heights => exact proper_heights
  | vectorConstructors => exact proper_vectorConstructors

end Rule

namespace RuleTable

variable {t : RuleTable}

/-- **Every published rule is proper.** -/
theorem every_proper_builtin : builtin.Every Rule.Proper :=
  every_published_builtin.mono fun _ => Rule.Published.proper

/-! ### Answers -/

/-- The type that the rules of a table answer with at a site. -/
def answer? (t : RuleTable) (site : Site) : Option TypeExpr := (t.lookup site).value {}

theorem made_firstAnswer {site : Site} {rules : List Rule}
    (hr : ∀ rule ∈ rules, rule.Proper) : Made typeKinds (firstAnswer site rules) := by
  induction rules with
  | nil => exact .pure none
  | cons rule rules ih =>
    have hrest := ih fun other ho => hr other (List.mem_cons_of_mem _ ho)
    refine .bind ((hr rule List.mem_cons_self).made site) fun answer => ?_
    cases answer with
    | none => exact hrest
    | some type => exact .pure _

theorem precise_firstAnswer {site : Site} {rules : List Rule}
    (hr : ∀ rule ∈ rules, rule.Proper) {c : Context} {type : TypeExpr}
    (h : (firstAnswer site rules).value c = some type) : type.isPlain = false := by
  induction rules with
  | nil => cases h
  | cons rule rules ih =>
    rw [firstAnswer, value_bind] at h
    cases ha : (rule site).value c with
    | none =>
      rw [ha] at h
      exact ih (fun other ho => hr other (List.mem_cons_of_mem _ ho)) h
    | some answer =>
      rw [ha] at h
      obtain rfl := Option.some.inj h
      exact (hr rule List.mem_cons_self).precise ha

theorem firstAnswer_congr {site other : Site} (hd : site.documented = other.documented)
    {rules : List Rule} (hr : ∀ rule ∈ rules, rule.Proper) :
    firstAnswer site rules = firstAnswer other rules := by
  induction rules with
  | nil => rfl
  | cons rule rules ih =>
    rw [firstAnswer, firstAnswer, (hr rule List.mem_cons_self).congr hd,
      ih fun other ho => hr other (List.mem_cons_of_mem _ ho)]

theorem made_lookup (ht : t.Every Rule.Proper) (site : Site) : Made typeKinds (t.lookup site) :=
  made_firstAnswer (ht.of_asked site)

theorem made_resolve (ht : t.Every Rule.Proper) (site : Site) :
    Made typeKinds (t.resolve site) := by
  refine .bind (made_lookup ht site) fun answer => ?_
  cases answer with
  | none => exact made_documentedType _
  | some type => exact .pure type

/-- The rules answer the same in every context. -/
theorem value_lookup (ht : t.Every Rule.Proper) (site : Site) (c : Context) :
    (t.lookup site).value c = t.answer? site :=
  (made_lookup ht site).value_eq c {}

/-- The type at a site is the answer of the rules, or what the documentation says. -/
theorem value_resolve (ht : t.Every Rule.Proper) (site : Site) (c : Context) :
    (t.resolve site).value c =
      (t.answer? site).getD ((documentedType site.documented).value {}) := by
  rw [resolve, value_bind, value_lookup ht]
  cases t.answer? site with
  | none => exact (made_documentedType _).value_eq c {}
  | some type => rfl

theorem isPlain_of_answer? (ht : t.Every Rule.Proper) {site : Site} {type : TypeExpr}
    (h : t.answer? site = some type) : type.isPlain = false :=
  precise_firstAnswer (ht.of_asked site) h

/-- Where the same rules are asked about one documented type, the answer is the same. -/
theorem answer?_congr (ht : t.Every Rule.Proper) {site other : Site}
    (hr : t.rulesFor site.owner site.member = t.rulesFor other.owner other.member)
    (htarget : site.target = other.target) (hd : site.documented = other.documented) :
    t.answer? site = t.answer? other := by
  rw [answer?, answer?, lookup, lookup, firstAnswer_congr hd (ht.of_asked site), hr, htarget]

/-- **Two sites with one documented type have one type exactly if the rules answer the same for
both**: no answer is what the documentation would say. -/
theorem value_resolve_eq_iff (ht : t.Every Rule.Proper) (site other : Site)
    (hd : site.documented = other.documented) (c c' : Context) :
    (t.resolve site).value c = (t.resolve other).value c' ↔ t.answer? site = t.answer? other := by
  rw [value_resolve ht, value_resolve ht, ← hd]
  have hplain := isPlain_documentedType site.documented {}
  cases hs : t.answer? site with
  | none =>
    cases ho : t.answer? other with
    | none => simp
    | some type =>
      have hprecise := isPlain_of_answer? ht ho
      constructor
      · rintro rfl
        rw [Option.getD_none, hplain] at hprecise
        cases hprecise
      · intro h
        cases h
  | some type =>
    have hprecise := isPlain_of_answer? ht hs
    cases ho : t.answer? other with
    | none =>
      constructor
      · intro h
        rw [Option.getD_some, Option.getD_none] at h
        rw [h, hplain] at hprecise
        cases hprecise
      · intro h
        cases h
    | some type' => simp

end RuleTable

end ApiTypings
