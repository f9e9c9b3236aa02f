import ApiTypings.Ancestry.Flatten
import ApiTypings.Proofs.Docs.Sameness
import ApiTypings.Proofs.Ancestry.Lineage

/-!
# What flattening leaves out

`Hierarchy.flattenBy` compares methods only with those of their fingerprint, and takes any
function for one. This module says what it leaves out, whatever the function.

* `Alike` — two methods are the same and have one fingerprint; for the fingerprint that looks at
  nothing this is sameness. `Recurs` — one of some classes documents a method alike.
* `own_methods_flattenBy`, `removed_flattenBy` — kept are the methods that do not recur among
  the ancestors, left out those that do.
* **`flattenBy_sound`** — nothing but methods is touched, the methods of the class are those
  that are kept and those that are left out, each in their order, and what is left out is the
  same as a method of an ancestor.
-/

namespace ApiTypings

variable {fingerprint : MethodDoc → UInt32}

/-! ### Methods that recur -/

/-- Two methods are the same and have the same fingerprint. -/
def Alike (fingerprint : MethodDoc → UInt32) (m n : MethodDoc) : Prop :=
  fingerprint m = fingerprint n ∧ m.same n = true

instance (m n : MethodDoc) : Decidable (Alike fingerprint m n) :=
  inferInstanceAs (Decidable (fingerprint m = fingerprint n ∧ m.same n = true))

namespace Alike

theorem refl (m : MethodDoc) : Alike fingerprint m m := ⟨rfl, m.same_refl⟩

theorem trans {l m n : MethodDoc} (hlm : Alike fingerprint l m) (hmn : Alike fingerprint m n) :
    Alike fingerprint l n :=
  ⟨hlm.1.trans hmn.1, MethodDoc.same_trans hlm.2 hmn.2⟩

end Alike

/-- A class documents a method alike. -/
def Documents (fingerprint : MethodDoc → UInt32) (c : ClassDoc) (m : MethodDoc) : Prop :=
  ∃ n ∈ c.methods, Alike fingerprint m n

instance (c : ClassDoc) (m : MethodDoc) : Decidable (Documents fingerprint c m) :=
  inferInstanceAs (Decidable (∃ n ∈ c.methods, Alike fingerprint m n))

/-- One of the classes documents a method alike. -/
def Recurs (fingerprint : MethodDoc → UInt32) (cs : List ClassDoc) (m : MethodDoc) : Prop :=
  ∃ c ∈ cs, Documents fingerprint c m

instance (cs : List ClassDoc) (m : MethodDoc) : Decidable (Recurs fingerprint cs m) :=
  inferInstanceAs (Decidable (∃ c ∈ cs, Documents fingerprint c m))

theorem documents_of_mem {c : ClassDoc} {m : MethodDoc} (hm : m ∈ c.methods) :
    Documents fingerprint c m :=
  ⟨m, hm, .refl m⟩

theorem Documents.of_alike {c : ClassDoc} {m n : MethodDoc} (h : Alike fingerprint m n)
    (hn : Documents fingerprint c n) : Documents fingerprint c m := by
  obtain ⟨k, hk, hnk⟩ := hn
  exact ⟨k, hk, h.trans hnk⟩

theorem Recurs.of_alike {cs : List ClassDoc} {m n : MethodDoc} (h : Alike fingerprint m n)
    (hn : Recurs fingerprint cs n) : Recurs fingerprint cs m := by
  obtain ⟨c, hc, hcn⟩ := hn
  exact ⟨c, hc, hcn.of_alike h⟩

/-- Of the classes that document a method alike one is the last. -/
theorem Recurs.exists_last {cs : List ClassDoc} {m : MethodDoc} (h : Recurs fingerprint cs m) :
    ∃ pre d post, cs = pre ++ d :: post ∧ Documents fingerprint d m ∧
      ¬ Recurs fingerprint post m := by
  induction cs with
  | nil =>
    obtain ⟨c, hc, -⟩ := h
    exact absurd hc List.not_mem_nil
  | cons c cs ih =>
    by_cases hcs : Recurs fingerprint cs m
    · obtain ⟨pre, d, post, rfl, hd, hpost⟩ := ih hcs
      exact ⟨c :: pre, d, post, rfl, hd, hpost⟩
    · obtain ⟨d, hd, hdm⟩ := h
      rcases List.mem_cons.1 hd with rfl | hd
      · exact ⟨[], d, cs, rfl, hdm, hcs⟩
      · exact absurd ⟨d, hd, hdm⟩ hcs

/-- What is found under the fingerprints of the methods of some classes is what recurs among
them. -/
theorem isInherited_eq (cs : List ClassDoc) :
    isInherited fingerprint (.ofMethods fingerprint (cs.flatMap (·.methods))) =
      fun m => decide (Recurs fingerprint cs m) := by
  funext m
  rw [Bool.eq_iff_iff, isInherited_ofMethods, decide_eq_true_iff]
  constructor
  · rintro ⟨n, hn, hmark, hsame⟩
    obtain ⟨c, hc, hn⟩ := List.mem_flatMap.1 hn
    exact ⟨c, hc, n, hn, hmark, MethodDoc.same_symm hsame⟩
  · rintro ⟨c, hc, n, hn, hmark, hsame⟩
    exact ⟨n, List.mem_flatMap.2 ⟨c, hc, hn⟩, hmark, MethodDoc.same_symm hsame⟩

/-! ### Kept and left out -/

/-- A list put together from the items that are kept and those that are left out, both in their
order. -/
inductive Parted {α : Type} : List α → List α → List α → Prop
  /-- Nothing to keep or to leave out. -/
  | nil : Parted [] [] []
  /-- The next item is kept. -/
  | keep {a : α} {kept out all : List α} : Parted kept out all → Parted (a :: kept) out (a :: all)
  /-- The next item is left out. -/
  | drop {a : α} {kept out all : List α} : Parted kept out all → Parted kept (a :: out) (a :: all)

namespace Parted

variable {α : Type}

theorem sublist {kept out all : List α} (h : Parted kept out all) : kept.Sublist all := by
  induction h with
  | nil => exact .slnil
  | keep _ ih => exact ih.cons_cons _
  | drop _ ih => exact ih.cons _

theorem filter (p : α → Bool) (all : List α) :
    Parted (all.filter p) (all.filter (!p ·)) all := by
  induction all with
  | nil => exact .nil
  | cons a all ih =>
    cases hp : p a with
    | true =>
      rw [List.filter_cons_of_pos hp, List.filter_cons_of_neg (by simp [hp])]
      exact .keep ih
    | false =>
      rw [List.filter_cons_of_neg (by simp [hp]), List.filter_cons_of_pos (by simp [hp])]
      exact .drop ih

end Parted

namespace Hierarchy

variable (h : Hierarchy) (c : ClassDoc)

/-- Only methods are left out of a class. -/
theorem own_flattenBy :
    (h.flattenBy fingerprint c).own =
      { c with methods := (h.flattenBy fingerprint c).own.methods } := rfl

/-- Kept are the methods that do not recur among the ancestors. -/
theorem own_methods_flattenBy :
    (h.flattenBy fingerprint c).own.methods =
      c.methods.filter fun m => ¬ Recurs fingerprint (h.ancestry c).chain m := by
  simp only [flattenBy, isInherited_eq, List.partition_eq_filter_filter, Function.comp_def,
    decide_not]

/-- The names of those that do recur are told. -/
theorem removed_flattenBy :
    (h.flattenBy fingerprint c).removed =
      (c.methods.filter fun m => Recurs fingerprint (h.ancestry c).chain m).map (·.name) := by
  simp only [flattenBy, isInherited_eq, List.partition_eq_filter_filter]

variable {h c}

theorem mem_own_methods_iff {m : MethodDoc} :
    m ∈ (h.flattenBy fingerprint c).own.methods ↔
      m ∈ c.methods ∧ ¬ Recurs fingerprint (h.ancestry c).chain m := by
  rw [own_methods_flattenBy, List.mem_filter, decide_eq_true_eq]

/-! ### Classes without ancestors -/

/-- A class that has ancestors names another class than itself, which is there. -/
theorem parent_of_chain_eq_cons {d : ClassDoc} {ds : List ClassDoc}
    (hc : (h.ancestry c).chain = d :: ds) :
    c.parent = some d.name ∧ d.name ≠ "" ∧ d.name ≠ c.name ∧ d ∈ h.classes := by
  obtain ⟨hn, q, hq, -⟩ := climb_ancestry h c
  rw [hc] at hn hq
  obtain ⟨hp, hf, -⟩ := climb_cons_iff.1 hq
  obtain ⟨hp, he⟩ := ClassDoc.parentName?_eq_some_iff.1 hp
  exact ⟨hp, he, by simpa using hn.2 d List.mem_cons_self, mem_of_find? hf⟩

/-- A class has no ancestors exactly if it names no parent, itself, or a class that is not
there. -/
theorem chain_eq_nil_iff :
    (h.ancestry c).chain = [] ↔
      c.parent = none ∨ c.parent = some "" ∨ c.parent = some c.name ∨
        ∃ p, c.parent = some p ∧ ∀ d ∈ h.classes, d.name ≠ p := by
  constructor
  · intro hnil
    cases hp : c.parent with
    | none => exact .inl rfl
    | some p =>
      by_cases he : p = ""
      · exact .inr (.inl (by rw [he]))
      by_cases hself : p = c.name
      · exact .inr (.inr (.inl (by rw [hself])))
      refine .inr (.inr (.inr ⟨p, rfl, fun d hd hn => ?_⟩))
      obtain ⟨e, hf⟩ := Option.isSome_iff_exists.1
        (List.find?_isSome.2 ⟨d, hd, beq_iff_eq.2 hn⟩ : (h.find? p).isSome = true)
      rw [ancestry, ClassDoc.parentName?_eq_some_iff.2 ⟨hp, he⟩,
        walk_of_find?_eq_some h (by simpa using hself) hf] at hnil
      exact absurd hnil (List.cons_ne_nil _ _)
  · intro hp
    cases hc : (h.ancestry c).chain with
    | nil => rfl
    | cons d ds =>
      obtain ⟨hd, he, hself, hmem⟩ := parent_of_chain_eq_cons hc
      rw [hd] at hp
      rcases hp with hp | hp | hp | ⟨p, hp, hn⟩
      · cases hp
      · exact absurd (Option.some.inj hp) he
      · exact absurd (Option.some.inj hp) hself
      · exact absurd (Option.some.inj hp) (hn d hmem)

/-- A class without ancestors is left as it is. -/
theorem flattenBy_of_chain_eq_nil (hc : (h.ancestry c).chain = []) :
    (h.flattenBy fingerprint c).own = c ∧ (h.flattenBy fingerprint c).removed = [] := by
  have hr : ∀ m, ¬ Recurs fingerprint [] m := by
    rintro m ⟨d, hd, -⟩
    exact absurd hd List.not_mem_nil
  constructor
  · rw [own_flattenBy, own_methods_flattenBy, hc]
    simp only [hr, not_false_eq_true, decide_true, List.filter_true]
    cases c
    rfl
  · rw [removed_flattenBy, hc]
    simp [hr]

variable (h c)

/-- **Flattening leaves out only what an ancestor has, and touches nothing else**, whatever
fingerprints are compared. -/
theorem flattenBy_sound (fingerprint : MethodDoc → UInt32) :
    ((h.flattenBy fingerprint c).own.name = c.name ∧
      (h.flattenBy fingerprint c).own.description = c.description ∧
      (h.flattenBy fingerprint c).own.parent = c.parent ∧
      (h.flattenBy fingerprint c).own.fields = c.fields) ∧
    (h.flattenBy fingerprint c).own.methods.Sublist c.methods ∧
    (∃ out, Parted (h.flattenBy fingerprint c).own.methods out c.methods ∧
      (h.flattenBy fingerprint c).removed = out.map (·.name) ∧
      ∀ m ∈ out, ∃ d ∈ (h.ancestry c).chain, ∃ n ∈ d.methods, m.same n = true) ∧
    ((h.ancestry c).chain = [] ↔
      c.parent = none ∨ c.parent = some "" ∨ c.parent = some c.name ∨
        ∃ p, c.parent = some p ∧ ∀ d ∈ h.classes, d.name ≠ p) ∧
    ((h.ancestry c).chain = [] →
      (h.flattenBy fingerprint c).own = c ∧ (h.flattenBy fingerprint c).removed = []) := by
  have hparted : Parted (h.flattenBy fingerprint c).own.methods
      (c.methods.filter fun m => Recurs fingerprint (h.ancestry c).chain m) c.methods := by
    rw [own_methods_flattenBy]
    simpa using
      Parted.filter (fun m => decide (¬ Recurs fingerprint (h.ancestry c).chain m)) c.methods
  refine ⟨⟨rfl, rfl, rfl, rfl⟩, hparted.sublist, ⟨_, hparted, h.removed_flattenBy c, ?_⟩,
    chain_eq_nil_iff, flattenBy_of_chain_eq_nil⟩
  intro m hm
  obtain ⟨-, hm⟩ := List.mem_filter.1 hm
  obtain ⟨d, hd, n, hn, -, hsame⟩ := of_decide_eq_true hm
  exact ⟨d, hd, n, hn, hsame⟩

end Hierarchy

end ApiTypings
