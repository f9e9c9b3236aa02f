import ApiTypings.Proofs.Ancestry.Deduplication
import ApiTypings.Proofs.Docs.Encoding

/-!
# Whether everything inherited is left out

What is left out of a class is the same as a method of an ancestor. This module asks the
converse: whether no method that is kept is the same as an inherited one (`Complete`).
Candidates for a comparison are found by their fingerprints, so it hangs on whether methods
that are the same have one fingerprint.

* **`complete_iff`** — a class is flattened completely exactly if each of its methods that is the
  same as an inherited one is also equal to an inherited one, or has its fingerprint by a
  collision of checksums. Methods that are the same have one encoding exactly if they are equal,
  and they are if no zero among the doubles is carried along.
* `not_complete_zeros` — of two methods that carry the two zeros along, which are the same, the
  descendant's is kept.
-/

namespace ApiTypings

/-- Two methods have one fingerprint although their encodings differ. -/
def Collide (m n : MethodDoc) : Prop := m.encoding ≠ n.encoding ∧ m.fingerprint = n.fingerprint

/-- Methods that are the same have one fingerprint exactly if they are equal or collide. -/
theorem fingerprint_eq_iff_of_same {m n : MethodDoc} (h : m.same n = true) :
    m.fingerprint = n.fingerprint ↔ m = n ∨ Collide m n := by
  constructor
  · intro hf
    by_cases he : m.encoding = n.encoding
    · exact .inl ((MethodDoc.encoding_eq_iff_of_same h).1 he)
    · exact .inr ⟨he, hf⟩
  · rintro (rfl | ⟨-, hf⟩)
    · rfl
    · exact hf

namespace Hierarchy

/-- The methods that the ancestors of a class document. -/
def inherited (h : Hierarchy) (c : ClassDoc) : List MethodDoc :=
  (h.ancestry c).chain.flatMap (·.methods)

/-- No method that is kept is the same as an inherited one. -/
def Complete (h : Hierarchy) (c : ClassDoc) : Prop :=
  ∀ m ∈ (h.flatten c).own.methods, ∀ n ∈ h.inherited c, m.same n = false

instance (h : Hierarchy) (c : ClassDoc) : Decidable (h.Complete c) :=
  inferInstanceAs
    (Decidable (∀ m ∈ (h.flatten c).own.methods, ∀ n ∈ h.inherited c, m.same n = false))

variable {h : Hierarchy} {c : ClassDoc} {m : MethodDoc}

theorem recurs_iff {fingerprint : MethodDoc → UInt32} :
    Recurs fingerprint (h.ancestry c).chain m ↔ ∃ n ∈ h.inherited c, Alike fingerprint m n := by
  constructor
  · rintro ⟨d, hd, n, hn, ha⟩
    exact ⟨n, List.mem_flatMap.2 ⟨d, hd, hn⟩, ha⟩
  · rintro ⟨n, hn, ha⟩
    obtain ⟨d, hd, hn⟩ := List.mem_flatMap.1 hn
    exact ⟨d, hd, n, hn, ha⟩

/-- A method recurs among the ancestors exactly if it is inherited as it is, or a method that is
the same and collides with it is. -/
theorem recurs_fingerprint_iff :
    Recurs MethodDoc.fingerprint (h.ancestry c).chain m ↔
      m ∈ h.inherited c ∨ ∃ n ∈ h.inherited c, m.same n = true ∧ Collide m n := by
  rw [recurs_iff]
  constructor
  · rintro ⟨n, hn, hf, hs⟩
    rcases (fingerprint_eq_iff_of_same hs).1 hf with rfl | hcollide
    · exact .inl hn
    · exact .inr ⟨n, hn, hs, hcollide⟩
  · rintro (hm | ⟨n, hn, hs, hcollide⟩)
    · exact ⟨m, hm, .refl m⟩
    · exact ⟨n, hn, hcollide.2, hs⟩

/-- A class is flattened completely exactly if each of its methods that is the same as an
inherited one recurs among the ancestors. -/
theorem complete_iff_recurs :
    h.Complete c ↔ ∀ m ∈ c.methods, (∃ n ∈ h.inherited c, m.same n = true) →
      Recurs MethodDoc.fingerprint (h.ancestry c).chain m := by
  constructor
  · rintro hcomplete m hm ⟨n, hn, hs⟩
    by_contra hr
    have hdiffer := hcomplete m (mem_own_methods_iff.2 ⟨hm, hr⟩) n hn
    rw [hs] at hdiffer
    exact absurd hdiffer (by decide)
  · intro hall m hm n hn
    obtain ⟨hm, hr⟩ := mem_own_methods_iff.1 hm
    rw [Bool.eq_false_iff]
    exact fun hs => hr (hall m hm ⟨n, hn, hs⟩)

variable (h c)

/-- **Flattening is complete exactly if** each method of the class that is the same as an
inherited one is equal to an inherited one or collides with one that is the same. Methods that
are the same have one encoding exactly if they are equal, so flattening is complete for every
class whose methods carry no zero among the doubles along. -/
theorem complete_iff :
    (h.Complete c ↔ ∀ m ∈ c.methods, (∃ n ∈ h.inherited c, m.same n = true) →
      m ∈ h.inherited c ∨ ∃ n ∈ h.inherited c, m.same n = true ∧ Collide m n) ∧
    (∀ m n : MethodDoc, m.same n = true → (m.encoding = n.encoding ↔ m = n)) ∧
    ((∀ m ∈ c.methods, Json.zeroFreeItems m.children = true) → h.Complete c) := by
  refine ⟨?_, fun m n hs => MethodDoc.encoding_eq_iff_of_same hs, fun hz => ?_⟩
  · simp only [complete_iff_recurs, recurs_fingerprint_iff]
  · rw [complete_iff_recurs]
    rintro m hm ⟨n, hn, hs⟩
    have heq := MethodDoc.eq_of_same_of_zeroFree hs (hz m hm)
    exact recurs_fingerprint_iff.2 (.inl (heq ▸ hn))

/-- A method that carries a zero along. -/
def zeroMethod (negative : Bool) : MethodDoc :=
  { name := "x", children := [.num (.double (.zero negative))] }

/-- A class that documents the method with one of the zeros. -/
def zeroChild : ClassDoc :=
  { name := "Player", parent := some "Entity", methods := [zeroMethod false] }

/-- Its parent documents the method with the other zero. -/
def zeros : Hierarchy where
  classes := [zeroChild, { name := "Entity", methods := [zeroMethod true] }]

/-- The two methods are the same and have different fingerprints, and the class keeps its own. -/
theorem not_complete_zeros :
    (zeroMethod false).same (zeroMethod true) = true ∧
      (zeroMethod false).fingerprint ≠ (zeroMethod true).fingerprint ∧
      ¬ zeros.Complete zeroChild :=
  ⟨by decide +kernel, by decide +kernel, by decide +kernel⟩

end Hierarchy

end ApiTypings
