import ApiTypings.Proofs.Ancestry.Deduplication
import Mathlib.Data.List.Forall2

/-!
# What a class offers under a name

Under a name a class offers what the nearest class of its lineage documents under it: a class
that documents the name hides those behind it (`nearest`). A method that is left out of a class
is one that some ancestor documents alike, but another class may stand between the two and hide
it, and the class itself may keep another method of the name.

* `nearest_flatten` — the flattened classes offer under a name what the nearest class
  introduces that introduces anything (`nearestIntroduced`).
* **`nearest_flatten_iff`** — so they offer what the documented classes offer exactly if the
  nearest class with the name leaves out none of its methods of that name, or leaves out all of
  them and the next class that introduces any introduces just these.
  `not_offers_hidden` is a method that is lost behind a class which redeclares it.
-/

namespace ApiTypings

/-- The methods that a class documents under a name. -/
def ClassDoc.named (n : String) (c : ClassDoc) : List MethodDoc := c.methods.filter (·.name = n)

/-- What the nearest of some classes documents under a name, of those that document anything. -/
def nearest (n : String) : List ClassDoc → List MethodDoc
  | [] => []
  | c :: cs => if c.named n = [] then nearest n cs else c.named n

/-- The methods under a name that a class introduces: no class above it documents them alike. -/
def introduced (n : String) (c : ClassDoc) (above : List ClassDoc) : List MethodDoc :=
  (c.named n).filter fun m => ¬ Recurs MethodDoc.fingerprint above m

/-- What the nearest of some classes introduces under a name, of those that introduce anything;
the classes are above each other in their order. -/
def nearestIntroduced (n : String) : List ClassDoc → List MethodDoc
  | [] => []
  | c :: above =>
    if introduced n c above = [] then nearestIntroduced n above else introduced n c above

/-- Two lists hold the same methods in the same places. -/
def SameMethods (ms ns : List MethodDoc) : Prop := List.Forall₂ (fun m n => m.same n = true) ms ns

instance (ms ns : List MethodDoc) : Decidable (SameMethods ms ns) :=
  inferInstanceAs (Decidable (List.Forall₂ (fun m n => m.same n = true) ms ns))

theorem SameMethods.refl (ms : List MethodDoc) : SameMethods ms ms :=
  List.forall₂_same.2 fun m _ => m.same_refl

/-! ### The nearest class -/

variable {n : String}

theorem introduced_sublist (n : String) (c : ClassDoc) (above : List ClassDoc) :
    (introduced n c above).Sublist (c.named n) :=
  List.filter_sublist

theorem introduced_eq_nil_of_named {c : ClassDoc} (hc : c.named n = []) (above : List ClassDoc) :
    introduced n c above = [] := by
  rw [introduced, hc, List.filter_nil]

theorem introduced_eq_nil_iff {c : ClassDoc} {above : List ClassDoc} :
    introduced n c above = [] ↔ ∀ m ∈ c.named n, Recurs MethodDoc.fingerprint above m := by
  simp [introduced, List.filter_eq_nil_iff]

theorem introduced_eq_named_iff {c : ClassDoc} {above : List ClassDoc} :
    introduced n c above = c.named n ↔
      ∀ m ∈ c.named n, ¬ Recurs MethodDoc.fingerprint above m := by
  simp [introduced, List.filter_eq_self]

/-- Classes without the name are passed over. -/
theorem nearest_append {pre : List ClassDoc} (hp : ∀ x ∈ pre, x.named n = [])
    (cs : List ClassDoc) : nearest n (pre ++ cs) = nearest n cs := by
  induction pre with
  | nil => rfl
  | cons x pre ih =>
    rw [List.cons_append, nearest, if_pos (hp x List.mem_cons_self)]
    exact ih fun y hy => hp y (List.mem_cons_of_mem _ hy)

theorem nearestIntroduced_append {pre : List ClassDoc} (hp : ∀ x ∈ pre, x.named n = [])
    (cs : List ClassDoc) : nearestIntroduced n (pre ++ cs) = nearestIntroduced n cs := by
  induction pre with
  | nil => rfl
  | cons x pre ih =>
    rw [List.cons_append, nearestIntroduced,
      if_pos (introduced_eq_nil_of_named (hp x List.mem_cons_self) _)]
    exact ih fun y hy => hp y (List.mem_cons_of_mem _ hy)

/-- No class has the name, or one of those that have it is the nearest. -/
theorem named_eq_nil_or_exists_nearest (n : String) (cs : List ClassDoc) :
    (∀ x ∈ cs, x.named n = []) ∨
      ∃ pre d post, cs = pre ++ d :: post ∧ (∀ x ∈ pre, x.named n = []) ∧ d.named n ≠ [] := by
  induction cs with
  | nil => exact .inl fun x hx => absurd hx List.not_mem_nil
  | cons c cs ih =>
    by_cases hc : c.named n = []
    · rcases ih with hnil | ⟨pre, d, post, rfl, hpre, hd⟩
      · exact .inl (List.forall_mem_cons.2 ⟨hc, hnil⟩)
      · exact .inr ⟨c :: pre, d, post, rfl, List.forall_mem_cons.2 ⟨hc, hpre⟩, hd⟩
    · exact .inr ⟨[], c, cs, rfl, fun x hx => absurd hx List.not_mem_nil, hc⟩

/-- Some classes, the nearest first, offer under a name what the nearest introduces, exactly if
the nearest that documents the name introduces all that it documents under it, or introduces
nothing and the next to introduce anything introduces just that. -/
theorem sameMethods_nearestIntroduced_iff {cs : List ClassDoc} :
    SameMethods (nearestIntroduced n cs) (nearest n cs) ↔
      ∀ pre d post, cs = pre ++ d :: post → (∀ x ∈ pre, x.named n = []) → d.named n ≠ [] →
        (∀ m ∈ d.named n, ¬ Recurs MethodDoc.fingerprint post m) ∨
          (∀ m ∈ d.named n, Recurs MethodDoc.fingerprint post m) ∧
            SameMethods (nearestIntroduced n post) (d.named n) := by
  constructor
  · rintro hs pre d post rfl hpre hd
    rw [nearestIntroduced_append hpre, nearest_append hpre, nearest, if_neg hd,
      nearestIntroduced] at hs
    by_cases hi : introduced n d post = []
    · rw [if_pos hi] at hs
      exact .inr ⟨introduced_eq_nil_iff.1 hi, hs⟩
    · rw [if_neg hi] at hs
      have heq := (introduced_sublist n d post).eq_of_length hs.length_eq
      exact .inl (introduced_eq_named_iff.1 heq)
  · intro hall
    rcases named_eq_nil_or_exists_nearest n cs with hnil | ⟨pre, d, post, rfl, hpre, hd⟩
    · rw [← List.append_nil cs, nearestIntroduced_append hnil, nearest_append hnil]
      exact .refl []
    · rw [nearestIntroduced_append hpre, nearest_append hpre, nearest, if_neg hd,
        nearestIntroduced]
      rcases hall pre d post rfl hpre hd with hnone | ⟨hevery, hs⟩
      · rw [introduced_eq_named_iff.2 hnone, if_neg hd]
        exact .refl _
      · rw [if_pos (introduced_eq_nil_iff.2 hevery)]
        exact hs

/-! ### Flattened lineages -/

namespace Hierarchy

variable {h : Hierarchy} {c : ClassDoc}

/-- Under a name a flattened class keeps what it introduces. -/
theorem named_own_flatten (h : Hierarchy) (c : ClassDoc) (n : String) :
    (h.flatten c).own.named n = introduced n c (h.ancestry c).chain := by
  rw [ClassDoc.named, flatten, own_methods_flattenBy, introduced, ClassDoc.named,
    List.filter_filter, List.filter_filter]
  simp only [Bool.and_comm]

/-- Classes each of which has those behind it as its ancestors offer, flattened, what the
nearest introduces. -/
theorem nearest_map_flatten {cs : List ClassDoc}
    (hcs : ∀ pre d post, cs = pre ++ d :: post → (h.ancestry d).chain = post) :
    nearest n (cs.map fun d => (h.flatten d).own) = nearestIntroduced n cs := by
  induction cs with
  | nil => rfl
  | cons c cs ih =>
    have hc := hcs [] c cs rfl
    rw [List.map_cons, nearest, nearestIntroduced, named_own_flatten, hc,
      ih fun pre d post hl => hcs (c :: pre) d post (by rw [hl, List.cons_append])]

/-- The flattened classes of a lineage that ends at a class without a parent offer under a name
what the nearest class introduces that introduces anything. -/
theorem nearest_flatten (hs : (h.ancestry c).stop = .root) (n : String) :
    nearest n ((h.lineage c).map fun d => (h.flatten d).own) =
      nearestIntroduced n (h.lineage c) := by
  have hne : ∀ name, (h.ancestry c).stop ≠ .cycle name := by
    intro name
    rw [hs]
    exact Stop.noConfusion
  exact nearest_map_flatten fun pre d post hl => by rw [ancestry_of_lineage_eq hne hl]

/-- **Flattening keeps what a class offers under a name exactly if** the nearest class of its
lineage that documents the name has none of its methods of that name documented alike behind
it, or has all of them documented alike behind it, and the next class that introduces any
method of the name introduces just these. -/
theorem nearest_flatten_iff (hs : (h.ancestry c).stop = .root) (n : String) :
    SameMethods (nearest n ((h.lineage c).map fun d => (h.flatten d).own))
        (nearest n (h.lineage c)) ↔
      ∀ pre d post, h.lineage c = pre ++ d :: post → (∀ x ∈ pre, x.named n = []) →
        d.named n ≠ [] →
          (∀ m ∈ d.named n, ¬ Recurs MethodDoc.fingerprint post m) ∨
            (∀ m ∈ d.named n, Recurs MethodDoc.fingerprint post m) ∧
              SameMethods (nearestIntroduced n post) (d.named n) := by
  rw [nearest_flatten hs]
  exact sameMethods_nearestIntroduced_iff

/-- A class that has a method as the last class of its lineage has it. -/
def redeclaredChild : ClassDoc :=
  { name := "Player", parent := some "Living", methods := [{ name := "getName" }] }

/-- Three classes, of which the one in the middle redeclares the method. -/
def redeclared : Hierarchy where
  classes :=
    [redeclaredChild,
      { name := "Living", parent := some "Entity",
        methods := [{ name := "getName", isStatic := true }] },
      { name := "Entity", methods := [{ name := "getName" }] }]

/-- The method is left out for the sake of the last class, and hidden by the one in the
middle. -/
theorem not_offers_hidden :
    redeclared.Distinct ∧ redeclaredChild ∈ redeclared.classes ∧
      (redeclared.ancestry redeclaredChild).stop = .root ∧
      ¬ SameMethods
          (nearest "getName"
            ((redeclared.lineage redeclaredChild).map fun d => (redeclared.flatten d).own))
          (nearest "getName" (redeclared.lineage redeclaredChild)) :=
  ⟨by decide +kernel, List.mem_cons_self, by decide +kernel, by decide +kernel⟩

theorem nearest_flatten_iff_redeclared :
    (redeclared.ancestry redeclaredChild).stop = .root ∧
      (SameMethods
          (nearest "getName"
            ((redeclared.lineage redeclaredChild).map fun d => (redeclared.flatten d).own))
          (nearest "getName" (redeclared.lineage redeclaredChild)) ↔
        ∀ pre d post, redeclared.lineage redeclaredChild = pre ++ d :: post →
          (∀ x ∈ pre, x.named "getName" = []) → d.named "getName" ≠ [] →
            (∀ m ∈ d.named "getName", ¬ Recurs MethodDoc.fingerprint post m) ∨
              (∀ m ∈ d.named "getName", Recurs MethodDoc.fingerprint post m) ∧
                SameMethods (nearestIntroduced "getName" post) (d.named "getName")) := by
  have hs : (redeclared.ancestry redeclaredChild).stop = .root := by decide +kernel
  exact ⟨hs, nearest_flatten_iff hs "getName"⟩

end Hierarchy

end ApiTypings
