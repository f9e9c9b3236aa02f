import ApiTypings.Proofs.Ancestry.Deduplication

/-!
# Flattening twice

All classes of a hierarchy change at once when each of them is left without what it inherits
(`Hierarchy.flattened`): the class that is flattened again, and every class that it is compared
with.

* `ancestry_map` — a walk looks at names and parents only, so it goes through the changed classes
  as it went through those before.
* `not_recurs_flattened` — a method that was kept did not recur among all methods of the ancestors,
  and does not recur among fewer of them.
* **`flatten_flattened`** — so nothing more is left out the second time, and a hierarchy is
  unchanged exactly if nothing of it is left out the first time.
-/

namespace ApiTypings

variable {fingerprint : MethodDoc → UInt32}

/-- What does not recur among classes does not recur among classes with fewer methods. -/
theorem Recurs.of_map {f : ClassDoc → ClassDoc} (hf : ∀ c, (f c).methods ⊆ c.methods)
    {cs : List ClassDoc} {m : MethodDoc} (h : Recurs fingerprint (cs.map f) m) :
    Recurs fingerprint cs m := by
  obtain ⟨d, hd, n, hn, ha⟩ := h
  obtain ⟨c, hc, rfl⟩ := List.mem_map.1 hd
  exact ⟨c, hc, n, hf c hn, ha⟩

namespace Hierarchy

variable {h : Hierarchy}

/-! ### Changed classes -/

/-- The hierarchy in which every class is changed in one way. -/
def map (f : ClassDoc → ClassDoc) (h : Hierarchy) : Hierarchy := ⟨h.classes.map f⟩

section

variable {f : ClassDoc → ClassDoc}

/-- If classes keep their names, the changed class is found where the class was. -/
theorem find?_map (hn : ∀ c, (f c).name = c.name) (name : String) :
    (h.map f).find? name = (h.find? name).map f := by
  have hcomp : ((·.name == name) ∘ f : ClassDoc → Bool) = (·.name == name) := by
    funext c
    rw [Function.comp_apply, hn]
  rw [find?, map, List.find?_map, hcomp, find?]

/-- If they keep their parents as well, a walk goes through the changed classes and ends as it
did. -/
theorem walk_map (hn : ∀ c, (f c).name = c.name) (hp : ∀ c, (f c).parent = c.parent)
    (met : List String) (p : Option String) :
    (h.map f).walk met p = ⟨(h.walk met p).chain.map f, (h.walk met p).stop⟩ := by
  have hfind := h.find?_map hn
  have hparent (c : ClassDoc) : (f c).parentName? = c.parentName? := by
    rw [ClassDoc.parentName?, hp, ClassDoc.parentName?]
  induction met, p using walk.induct h with
  | case1 met => rw [walk_none, walk_none, List.map_nil]
  | case2 met name hm => rw [walk_of_mem _ hm, walk_of_mem _ hm, List.map_nil]
  | case3 met name hm hnone =>
    have hnone' : (h.map f).find? name = none := by rw [hfind, hnone, Option.map_none]
    rw [walk_of_find?_eq_none _ hm hnone, walk_of_find?_eq_none _ hm hnone', List.map_nil]
  | case4 met name hm c hsome _ ih =>
    have hsome' : (h.map f).find? name = some (f c) := by rw [hfind, hsome, Option.map_some]
    rw [walk_of_find?_eq_some _ hm hsome, walk_of_find?_eq_some _ hm hsome', hparent, ih,
      List.map_cons]

/-- The ancestors of a changed class are the changed ancestors of the class. -/
theorem ancestry_map (hn : ∀ c, (f c).name = c.name) (hp : ∀ c, (f c).parent = c.parent)
    (c : ClassDoc) :
    (h.map f).ancestry (f c) = ⟨(h.ancestry c).chain.map f, (h.ancestry c).stop⟩ := by
  have hparent : (f c).parentName? = c.parentName? := by
    rw [ClassDoc.parentName?, hp, ClassDoc.parentName?]
  rw [ancestry, hn, hparent, walk_map hn hp, ancestry]

end

/-! ### Flattened hierarchies -/

variable (h)

/-- The hierarchy in which every class is left without the methods that it inherits. -/
def flattened : Hierarchy := h.map fun c => (h.flatten c).own

/-- The ancestors of a flattened class are the flattened ancestors of the class. -/
theorem ancestry_flattened (c : ClassDoc) :
    h.flattened.ancestry (h.flatten c).own =
      ⟨(h.ancestry c).chain.map fun d => (h.flatten d).own, (h.ancestry c).stop⟩ :=
  ancestry_map (f := fun d => (h.flatten d).own) (fun _ => rfl) (fun _ => rfl) c

/-- A method that is kept does not recur among the flattened ancestors. -/
theorem not_recurs_flattened {c : ClassDoc} {m : MethodDoc}
    (hm : m ∈ (h.flatten c).own.methods) :
    ¬ Recurs MethodDoc.fingerprint (h.flattened.ancestry (h.flatten c).own).chain m := by
  have hfewer (d : ClassDoc) : (h.flatten d).own.methods ⊆ d.methods := fun n hn =>
    (mem_own_methods_iff.1 hn).1
  intro hr
  rw [ancestry_flattened] at hr
  exact (mem_own_methods_iff.1 hm).2 (hr.of_map hfewer)

/-- A class is unchanged exactly if nothing is left out of it. -/
theorem own_flattenBy_eq_self_iff (c : ClassDoc) :
    (h.flattenBy fingerprint c).own = c ↔ (h.flattenBy fingerprint c).removed = [] := by
  have hremoved : (h.flattenBy fingerprint c).removed = [] ↔
      ∀ m ∈ c.methods, ¬ Recurs fingerprint (h.ancestry c).chain m := by
    rw [removed_flattenBy, List.map_eq_nil_iff, List.filter_eq_nil_iff]
    simp only [decide_eq_true_eq]
  have hkept : (h.flattenBy fingerprint c).own.methods = c.methods ↔
      ∀ m ∈ c.methods, ¬ Recurs fingerprint (h.ancestry c).chain m := by
    rw [own_methods_flattenBy, List.filter_eq_self]
    simp only [decide_eq_true_eq]
  rw [hremoved, ← hkept]
  constructor
  · intro hown
    rw [hown]
  · intro hmethods
    rw [own_flattenBy, hmethods]
    cases c
    rfl

/-- Nothing more is left out of a flattened class. -/
theorem removed_flattened (c : ClassDoc) :
    (h.flattened.flatten (h.flatten c).own).removed = [] := by
  rw [flatten, removed_flattenBy, List.map_eq_nil_iff, List.filter_eq_nil_iff]
  intro m hm hr
  exact h.not_recurs_flattened hm (of_decide_eq_true hr)

/-- A hierarchy is unchanged exactly if nothing of it is left out. -/
theorem flattened_eq_self_iff : h.flattened = h ↔ ∀ c ∈ h.classes, (h.flatten c).removed = [] := by
  have hclasses : h.flattened = h ↔ h.classes.map (fun c => (h.flatten c).own) = h.classes := by
    rw [flattened, map]
    exact ⟨congrArg Hierarchy.classes, congrArg Hierarchy.mk⟩
  rw [hclasses]
  nth_rewrite 2 [← List.map_id h.classes]
  rw [List.map_inj_left]
  exact forall₂_congr fun c _ => h.own_flattenBy_eq_self_iff c

/-- **Flattening again changes nothing.** Of a class that is flattened within the flattened
hierarchy nothing more is left out; its ancestors are the flattened ones of the class, under the
same names, and the walk ends for the same reason. So a hierarchy that is flattened twice is
flattened once, and those that flattening does not change are the hierarchies that nothing is left
out of. -/
theorem flatten_flattened (h : Hierarchy) :
    (∀ c, h.flattened.flatten (h.flatten c).own =
        { own := (h.flatten c).own
          ancestors := (h.flatten c).ancestors.map fun d => (h.flatten d).own
          stop := (h.flatten c).stop
          removed := [] } ∧
      (h.flattened.flatten (h.flatten c).own).ancestors.map (·.name) =
        (h.flatten c).ancestors.map (·.name)) ∧
    h.flattened.flattened = h.flattened ∧
    (h.flattened = h ↔ ∀ c ∈ h.classes, (h.flatten c).removed = []) := by
  have hagain (c : ClassDoc) : h.flattened.flatten (h.flatten c).own =
      { own := (h.flatten c).own
        ancestors := (h.flatten c).ancestors.map fun d => (h.flatten d).own
        stop := (h.flatten c).stop
        removed := [] } := by
    have hremoved := h.removed_flattened c
    have hown : (h.flattened.flatten (h.flatten c).own).own = (h.flatten c).own :=
      (h.flattened.own_flattenBy_eq_self_iff _).2 hremoved
    calc
      h.flattened.flatten (h.flatten c).own =
          { own := (h.flattened.flatten (h.flatten c).own).own
            ancestors := (h.flattened.ancestry (h.flatten c).own).chain
            stop := (h.flattened.ancestry (h.flatten c).own).stop
            removed := (h.flattened.flatten (h.flatten c).own).removed } := rfl
      _ = _ := by
        rw [hown, hremoved, ancestry_flattened]
        rfl
  refine ⟨fun c => ⟨hagain c, ?_⟩, ?_, h.flattened_eq_self_iff⟩
  · rw [hagain, List.map_map]
    rfl
  · rw [flattened_eq_self_iff]
    intro d hd
    obtain ⟨c, -, rfl⟩ := List.mem_map.1 hd
    exact h.removed_flattened c

end Hierarchy

end ApiTypings
