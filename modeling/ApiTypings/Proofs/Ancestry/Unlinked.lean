import ApiTypings.Proofs.Ancestry.Deduplication

/-!
# Broken links act as none

A walk may end because the last class of the chain names a parent that is not there, or one that has
been met. This module takes that link away: `unlinked` is a class without a parent, and
`Hierarchy.unlinked` the hierarchy in which the first class of a name has none, so that it is
the one that is found (**`find?_unlinked`**).

* `Climb.unlinked` — a climb stays one if none of its classes loses its parent.
* `ancestry_unlinked` — without the last link, the walk finds the same ancestors, and ends because
  the last of them has no parent.
* **`flatten_unlinked`** — so the same methods are left out as with the broken link.
-/

namespace ApiTypings

/-- The class without a parent. -/
def ClassDoc.unlinked (c : ClassDoc) : ClassDoc := { c with parent := none }

@[simp] theorem ClassDoc.name_unlinked (c : ClassDoc) : c.unlinked.name = c.name := rfl

@[simp] theorem ClassDoc.methods_unlinked (c : ClassDoc) : c.unlinked.methods = c.methods := rfl

@[simp] theorem ClassDoc.parentName?_unlinked (c : ClassDoc) : c.unlinked.parentName? = none := rfl

variable {fingerprint : MethodDoc → UInt32}

/-- Whether a method recurs among classes is a matter of their methods only. -/
theorem recurs_congr {cs ds : List ClassDoc} (h : cs.map (·.methods) = ds.map (·.methods))
    (m : MethodDoc) : Recurs fingerprint cs m ↔ Recurs fingerprint ds m := by
  have hmethods : ∀ es : List ClassDoc, Recurs fingerprint es m ↔
      ∃ ms ∈ es.map (·.methods), ∃ n ∈ ms, Alike fingerprint m n := fun es => by
    simp [Recurs, Documents]
  rw [hmethods, hmethods, h]

namespace Hierarchy

variable {h : Hierarchy} {c : ClassDoc}

/-- The hierarchy in which the first class of a name has no parent. -/
def unlinked (h : Hierarchy) (name : String) : Hierarchy :=
  ⟨h.classes.modify (h.classes.findIdx (·.name == name)) ClassDoc.unlinked⟩

/-- What is found under that name has no parent, and all else is found as before. -/
theorem find?_unlinked (h : Hierarchy) (name other : String) :
    (h.unlinked name).find? other =
      if other = name then (h.find? other).map ClassDoc.unlinked else h.find? other := by
  obtain ⟨classes⟩ := h
  simp only [unlinked, find?]
  induction classes with
  | nil => simp
  | cons c cs ih =>
    rw [List.findIdx_cons]
    by_cases hc : c.name = name
    · -- the first class of the name is the one at hand
      rw [beq_iff_eq.2 hc, cond_true, List.modify_zero_cons]
      by_cases ho : c.name = other
      · simp [ho, ho.symm.trans hc]
      · have hne : other ≠ name := fun he => ho (hc.trans he.symm)
        rw [if_neg hne, List.find?_cons_of_neg (by simpa using ho),
          List.find?_cons_of_neg (by simpa using ho)]
    · rw [beq_false_of_ne hc, cond_false, List.modify_succ_cons]
      by_cases ho : c.name = other
      · have hne : other ≠ name := fun he => hc (ho.trans he)
        simp [ho, hne]
      · rw [List.find?_cons_of_neg (by simpa using ho), List.find?_cons_of_neg (by simpa using ho),
          ih]

/-- A climb stays one if none of its classes loses its parent. -/
theorem Climb.unlinked {p q : Option String} {cs : List ClassDoc} (hc : Climb h p cs q)
    {name : String} (hn : name ∉ cs.map (·.name)) : Climb (h.unlinked name) p cs q := by
  induction hc with
  | stay p => exact .stay p
  | @step other c cs q hf _ ih =>
    rw [List.map_cons, List.mem_cons, not_or, name_of_find? hf] at hn
    refine .step ?_ (ih hn.2)
    rw [find?_unlinked, if_neg (Ne.symm hn.1), hf]

/-- **Without the last link, a walk has the same ancestors and ends at the last of them.** -/
theorem ancestry_unlinked {init : List ClassDoc} {last : ClassDoc}
    (hchain : (h.ancestry c).chain = init ++ [last]) :
    (h.unlinked last.name).ancestry c = ⟨init ++ [last.unlinked], .root⟩ := by
  obtain ⟨hn, q, hq, -⟩ := climb_ancestry h c
  rw [hchain] at hn hq
  obtain ⟨hinit, hf, -⟩ := climb_middle_iff.1 hq
  obtain ⟨hninit, hnlast⟩ := fresh_append_iff.1 hn
  have hnew : last.name ∉ init.map (·.name) := fun hm =>
    (fresh_cons_iff.1 hnlast).1 (List.mem_append_left _ hm)
  have hf' : (h.unlinked last.name).find? last.unlinked.name = some last.unlinked := by
    rw [ClassDoc.name_unlinked, find?_unlinked, if_pos rfl, hf, Option.map_some]
  have hclimb : Climb (h.unlinked last.name) c.parentName? (init ++ [last.unlinked]) none :=
    climb_middle_iff.2 ⟨hinit.unlinked hnew, hf', .stay none⟩
  have hfresh : Fresh [c.name] (init ++ [last.unlinked]) :=
    fresh_append_iff.2 ⟨hninit, fresh_cons_iff.2 ⟨(fresh_cons_iff.1 hnlast).1, fresh_nil _⟩⟩
  exact walk_of_climb hclimb hfresh .root

/-- A class without a parent has no ancestors in any hierarchy. -/
theorem ancestry_of_unlinked (h : Hierarchy) (c : ClassDoc) :
    h.ancestry c.unlinked = ⟨[], .root⟩ :=
  walk_none h _

/-- **A broken link acts as no link.** If the last ancestor of a class loses its parent, the class
has the same ancestors, the walk ends at the last of them, and the same methods are kept and left
out. If a class without ancestors loses its own parent, it has none either, whatever the other
classes are, and all its methods are kept as before. So it makes no difference whether a walk ends
at a parent that is not there, or at one that has been met, or at a class without a parent. -/
theorem flatten_unlinked (h : Hierarchy) (c : ClassDoc) :
    (∀ init last, (h.ancestry c).chain = init ++ [last] →
      (h.unlinked last.name).ancestry c = ⟨init ++ [last.unlinked], .root⟩ ∧
      ((h.unlinked last.name).flatten c).own = (h.flatten c).own ∧
      ((h.unlinked last.name).flatten c).removed = (h.flatten c).removed) ∧
    ((h.ancestry c).chain = [] → ∀ h' : Hierarchy,
      h'.ancestry c.unlinked = ⟨[], .root⟩ ∧
      (h'.flatten c.unlinked).own = (h.flatten c).own.unlinked ∧
      (h'.flatten c.unlinked).removed = (h.flatten c).removed) := by
  constructor
  · intro init last hchain
    have ha := ancestry_unlinked hchain
    have hr : ∀ m, Recurs MethodDoc.fingerprint (init ++ [last.unlinked]) m ↔
        Recurs MethodDoc.fingerprint (init ++ [last]) m := recurs_congr (by simp)
    refine ⟨ha, ?_, ?_⟩
    · rw [flatten, flatten, own_flattenBy, own_methods_flattenBy, ha, own_flattenBy h,
        own_methods_flattenBy, hchain]
      simp only [hr]
    · rw [flatten, flatten, removed_flattenBy, removed_flattenBy, ha, hchain]
      simp only [hr]
  · intro hchain h'
    have ha := h'.ancestry_of_unlinked c
    obtain ⟨hown, hremoved⟩ := flattenBy_of_chain_eq_nil hchain
    obtain ⟨hown', hremoved'⟩ := flattenBy_of_chain_eq_nil (congrArg Ancestry.chain ha)
    refine ⟨ha, ?_, ?_⟩
    · rw [flatten, flatten, hown', hown]
    · rw [flatten, flatten, hremoved', hremoved]

end Hierarchy

end ApiTypings
