import ApiTypings.Proofs.Ancestry.Deduplication
import ApiTypings.Proofs.Emission.Made

/-!
# What the owner of a method changes

Whether a method is left out of a class is decided without regard to its owner, and the types in
its signatures are resolved by rules for the owner. So a method that is left out may have other
types with the class as its owner than with the ancestor from which it is inherited.

* `signatures_eq_iff` — a method has the same signatures with two owners exactly if the rules
  answer the same for both at every place of its overloads (`AnswersAgree`).
* **`signatures_of_left_out_iff`** — for a method that is left out, the nearest ancestor that
  documents it declares it with the signatures that it would have in the class exactly if the
  published rules answer the same for the two.
  `not_signatures_toggle` is a method of `Action` whose type is lost in this way.
-/

namespace ApiTypings

open Checked

theorem Member.signature_withComment (m : Member) (comment : Option Comment) :
    (m.withComment comment).signature = m.signature := by
  cases comment <;> rfl

namespace MethodDoc

/-- The signatures that declare a method with an owner. -/
def signatures (m : MethodDoc) (rules : RuleTable) (owner : String) (c : Context) :
    List Signature :=
  ((m.emission rules owner).emit.value c).map (·.signature)

/-- The rules answer the same for two owners at every parameter and every result of the
overloads of a method. -/
def AnswersAgree (m : MethodDoc) (rules : RuleTable) (owner other : String) : Prop :=
  ∀ (k : Nat) (hk : k < m.overloads.length),
    (∀ (i : Nat) (hi : i < m.overloads[k].1.length),
      rules.answer? (.parameter owner m.name i m.overloads[k].1[i]) =
        rules.answer? (.parameter other m.name i m.overloads[k].1[i])) ∧
    rules.answer? (.result owner m.name k m.overloads[k].2) =
      rules.answer? (.result other m.name k m.overloads[k].2)

variable {m n : MethodDoc} {rules : RuleTable} {owner other : String} {c c' : Context}

/-- Methods that are the same become the same. -/
theorem emission_eq_of_same (h : m.same n = true) (rules : RuleTable) (owner : String) :
    n.emission rules owner = m.emission rules owner := by
  obtain ⟨⟨hn, hd, ha, hp, hr, hs⟩, -⟩ := same_iff.1 h
  cases m
  cases n
  dsimp only at hn hd ha hp hr hs
  subst hn hd ha hp hr hs
  rfl

/-! ### Signatures and overloads -/

/-- The signatures are those of all overloads under every name. -/
theorem signatures_eq (m : MethodDoc) (rules : RuleTable) (owner : String) (c : Context) :
    m.signatures rules owner c =
      m.names.flatMap fun name =>
        ((m.overloadsOf rules owner).value (c.enter m.name)).map fun o =>
          .method name o.params o.result := by
  rw [signatures, Emission.value_emit]
  have hcomment (member : Member) (comment : Option Comment) :
      (Commented.withComment member comment).signature = member.signature :=
    member.signature_withComment comment
  simp only [emission, expand, value_pure, value_bind, value_gather, value_each, List.nil_append,
    List.append_nil, List.map_map, List.map_flatMap, Function.comp_def, hcomment]
  rfl

theorem value_overloadsOf (m : MethodDoc) (rules : RuleTable) (owner : String) (c : Context) :
    (m.overloadsOf rules owner).value c =
      m.overloads.mapIdx fun k overload => (m.overloadAt rules owner k overload).value c := by
  rw [overloadsOf, value_bind, value_eachAt]
  simp only [Nat.zero_add]

theorem value_overloadAt (m : MethodDoc) (rules : RuleTable) (owner : String) (k : Nat)
    (overload : List ParameterDoc × String) (c : Context) :
    (m.overloadAt rules owner k overload).value c =
      ⟨overload.1.mapIdx fun i p => (m.paramAt rules owner i p).value c,
        (rules.resolve (.result owner m.name k overload.2)).value c⟩ := by
  rw [overloadAt, value_bind, value_eachAt]
  simp only [Nat.zero_add]
  rfl

/-- The signatures tell the overloads, for a method has at least one name. -/
theorem signatures_eq_iff_overloads :
    m.signatures rules owner c = m.signatures rules other c' ↔
      (m.overloadsOf rules owner).value (c.enter m.name) =
        (m.overloadsOf rules other).value (c'.enter m.name) := by
  rw [signatures_eq, signatures_eq]
  constructor
  · intro h
    rw [names, List.flatMap_cons, List.flatMap_cons] at h
    have hlength : ((m.overloadsOf rules owner).value (c.enter m.name)).length =
        ((m.overloadsOf rules other).value (c'.enter m.name)).length := by
      rw [value_overloadsOf, value_overloadsOf, List.length_mapIdx, List.length_mapIdx]
    obtain ⟨hfirst, -⟩ := List.append_inj h (by rw [List.length_map, List.length_map, hlength])
    refine (List.map_inj_right fun o o' ho => ?_).1 hfirst
    cases o
    cases o'
    obtain ⟨-, rfl, rfl⟩ := Signature.method.inj ho
    rfl
  · intro h
    rw [h]

/-! ### Overloads and answers -/

theorem value_paramAt_eq_iff (ht : rules.Every Rule.Proper) (i : Nat) (p : ParameterDoc) :
    (m.paramAt rules owner i p).value c = (m.paramAt rules other i p).value c' ↔
      rules.answer? (.parameter owner m.name i p) =
        rules.answer? (.parameter other m.name i p) := by
  rw [← RuleTable.value_resolve_eq_iff ht (.parameter owner m.name i p)
    (.parameter other m.name i p) rfl c c']
  constructor
  · intro h
    exact congrArg Binding.type h
  · intro h
    exact congrArg (Binding.mk _) h

/-- **A method has the same signatures with two owners exactly if the rules answer the same for
both.** -/
theorem signatures_eq_iff (ht : rules.Every Rule.Proper) :
    m.signatures rules owner c = m.signatures rules other c' ↔
      m.AnswersAgree rules owner other := by
  rw [signatures_eq_iff_overloads, value_overloadsOf, value_overloadsOf,
    List.mapIdx_eq_mapIdx_iff]
  refine forall₂_congr fun k hk => ?_
  have hresult := RuleTable.value_resolve_eq_iff ht (.result owner m.name k m.overloads[k].2)
    (.result other m.name k m.overloads[k].2) rfl (c.enter m.name) (c'.enter m.name)
  rw [value_overloadAt, value_overloadAt, Overload.mk.injEq, List.mapIdx_eq_mapIdx_iff]
  exact and_congr (forall₂_congr fun i hi => value_paramAt_eq_iff ht i _) hresult

/-- Owners with the same rules for a method get the same answers. -/
theorem answersAgree_of_rulesFor (ht : rules.Every Rule.Proper)
    (hr : rules.rulesFor owner m.name = rules.rulesFor other m.name) :
    m.AnswersAgree rules owner other := by
  intro k hk
  constructor
  · intro i hi
    exact RuleTable.answer?_congr ht hr rfl rfl
  · exact RuleTable.answer?_congr ht hr rfl rfl

end MethodDoc

/-! ### Methods that are left out -/

/-- The nearest of some classes that documents a method which is the same, and that method. -/
def nearestSame? (m : MethodDoc) : List ClassDoc → Option (ClassDoc × MethodDoc)
  | [] => none
  | d :: ds =>
    match d.methods.find? (m.same ·) with
    | some n => some (d, n)
    | none => nearestSame? m ds

/-- A method that recurs is documented by a nearest class. -/
theorem exists_nearestSame {fingerprint : MethodDoc → UInt32} {m : MethodDoc}
    {cs : List ClassDoc} (h : Recurs fingerprint cs m) :
    ∃ d n, nearestSame? m cs = some (d, n) ∧ m.same n = true := by
  induction cs with
  | nil =>
    obtain ⟨d, hd, -⟩ := h
    exact absurd hd List.not_mem_nil
  | cons d ds ih =>
    rw [nearestSame?]
    cases hf : d.methods.find? (m.same ·) with
    | some n => exact ⟨d, n, rfl, List.find?_some hf⟩
    | none =>
      obtain ⟨e, he, n, hn, hmark, hs⟩ := h
      rcases List.mem_cons.1 he with rfl | he
      · exact absurd hs (List.find?_eq_none.1 hf n hn)
      · exact ih ⟨e, he, n, hn, hmark, hs⟩

namespace Hierarchy

variable {h : Hierarchy} {c : ClassDoc} {m : MethodDoc}

/-- **A method that is left out of a class is declared by the nearest ancestor that documents it
as the class would declare it, exactly if** the published rules answer the same for the two
owners at every place of its overloads. They do if the two have the same rules for the method,
such as none. -/
theorem signatures_of_left_out_iff (hm : m ∈ c.methods)
    (hout : m ∉ (h.flatten c).own.methods) :
    ∃ d n, nearestSame? m (h.ancestry c).chain = some (d, n) ∧
      (∀ k k' : Context, m.signatures .builtin c.name k = n.signatures .builtin d.name k' ↔
        m.AnswersAgree .builtin c.name d.name) ∧
      (RuleTable.builtin.rulesFor c.name m.name = RuleTable.builtin.rulesFor d.name m.name →
        m.AnswersAgree .builtin c.name d.name) := by
  have hr : Recurs MethodDoc.fingerprint (h.ancestry c).chain m := by
    by_contra hr
    exact hout (mem_own_methods_iff.2 ⟨hm, hr⟩)
  obtain ⟨d, n, hnearest, hs⟩ := exists_nearestSame hr
  refine ⟨d, n, hnearest, fun k k' => ?_,
    MethodDoc.answersAgree_of_rulesFor RuleTable.every_proper_builtin⟩
  have hsame : n.signatures .builtin d.name k' = m.signatures .builtin d.name k' := by
    rw [MethodDoc.signatures, MethodDoc.emission_eq_of_same hs, MethodDoc.signatures]
  rw [hsame]
  exact MethodDoc.signatures_eq_iff RuleTable.every_proper_builtin

/-- A method for which a published rule knows the type of its parameter, if `Action` owns it. -/
def toggleMethod : MethodDoc where
  name := "setOnToggle"
  parameters := [[⟨"callback", "Function"⟩]]
  returns := ["nil"]

/-- The class that the rule is for. -/
def toggleChild : ClassDoc :=
  { name := "Action", parent := some "Base", methods := [toggleMethod] }

/-- Its parent, for which the rule is not. -/
def toggleParent : ClassDoc := { name := "Base", methods := [toggleMethod] }

/-- The two classes. -/
def toggles : Hierarchy where
  classes := [toggleChild, toggleParent]

theorem ancestry_toggles : toggles.ancestry toggleChild = ⟨[toggleParent], .root⟩ := by
  have hnew : toggleParent.name ∉ [toggleChild.name] := by decide
  exact walk_of_climb (.step (by rfl) (.stay none)) (fresh_cons_iff.2 ⟨hnew, fresh_nil _⟩) .root

/-- The method is left out for the sake of the parent's. -/
theorem toggleMethod_left_out : toggleMethod ∉ (toggles.flatten toggleChild).own.methods := by
  intro hm
  have hr : Recurs MethodDoc.fingerprint [toggleParent] toggleMethod :=
    ⟨toggleParent, List.mem_cons_self, documents_of_mem List.mem_cons_self⟩
  rw [flatten, mem_own_methods_iff, ancestry_toggles] at hm
  exact hm.2 hr

/-- The parent declares the method without the type of the callback, which it has in `Action`. -/
theorem not_signatures_toggle :
    toggles.Distinct ∧ toggleChild ∈ toggles.classes ∧
      (toggles.ancestry toggleChild).stop = .root ∧ toggleMethod ∈ toggleChild.methods ∧
      toggleMethod ∉ (toggles.flatten toggleChild).own.methods ∧
      nearestSame? toggleMethod (toggles.ancestry toggleChild).chain =
        some (toggleParent, toggleMethod) ∧
      toggleMethod.signatures .builtin toggleChild.name {} ≠
        toggleMethod.signatures .builtin toggleParent.name {} := by
  refine ⟨by decide, List.mem_cons_self, by rw [ancestry_toggles], List.mem_cons_self,
    toggleMethod_left_out, by rw [ancestry_toggles]; rfl, fun h => ?_⟩
  have hagree := (MethodDoc.signatures_eq_iff RuleTable.every_proper_builtin).1 h
  have hanswer := (hagree 0 (by decide)).1 0 (by decide)
  have hsome := congrArg Option.isSome hanswer
  exact absurd hsome (by decide +kernel)

theorem signatures_of_left_out_iff_toggle :
    toggleMethod ∈ toggleChild.methods ∧
      toggleMethod ∉ (toggles.flatten toggleChild).own.methods ∧
      ∃ d n, nearestSame? toggleMethod (toggles.ancestry toggleChild).chain = some (d, n) ∧
        (∀ k k' : Context,
          toggleMethod.signatures .builtin toggleChild.name k =
              n.signatures .builtin d.name k' ↔
            toggleMethod.AnswersAgree .builtin toggleChild.name d.name) ∧
        (RuleTable.builtin.rulesFor toggleChild.name toggleMethod.name =
            RuleTable.builtin.rulesFor d.name toggleMethod.name →
          toggleMethod.AnswersAgree .builtin toggleChild.name d.name) :=
  ⟨List.mem_cons_self, toggleMethod_left_out,
    signatures_of_left_out_iff List.mem_cons_self toggleMethod_left_out⟩

end Hierarchy

end ApiTypings
