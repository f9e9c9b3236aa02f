import ApiTypings.Ancestry.Fingerprint
import ApiTypings.Ancestry.Walk
import ApiTypings.Keyed

/-!
# Inherited methods

A method that a class has in common with one of its ancestors need not be declared again.
`Hierarchy.flatten` leaves such methods out of a class. The methods of the ancestors are put
under their fingerprints (`Candidates`), which find those that are worth a comparison; a
method is left out only if it is the same as one of them (**`isInherited_ofMethods`**).
-/

namespace ApiTypings

/-- A class without the methods that it inherits. -/
structure Flattened where
  /-- The class with the methods that are its own. -/
  own : ClassDoc
  /-- Its ancestors, the nearest first. -/
  ancestors : List ClassDoc
  /-- Why it has no more ancestors. -/
  stop : Stop
  /-- The names of the methods that were left out, in their order. -/
  removed : List String

namespace Flattened

/-- The name of the parent, if the class has one that is documented. -/
def parent? (f : Flattened) : Option String := f.ancestors.head?.map (·.name)

end Flattened

/-! ### Candidates -/

/-- Methods under their fingerprints, those of one fingerprint in their order. -/
abbrev Candidates := Keyed UInt32 (List MethodDoc)

namespace Candidates

/-- The methods of a fingerprint. -/
def under (candidates : Candidates) (mark : UInt32) : List MethodDoc :=
  (candidates.get? mark).getD []

/-- One more method, behind those of its fingerprint. -/
def add (fingerprint : MethodDoc → UInt32) (candidates : Candidates) (m : MethodDoc) :
    Candidates :=
  candidates.update (fingerprint m) fun ms => ms.getD [] ++ [m]

/-- The given methods under their fingerprints. -/
def ofMethods (fingerprint : MethodDoc → UInt32) (ms : List MethodDoc) : Candidates :=
  ms.foldl (add fingerprint) .empty

theorem under_add (fingerprint : MethodDoc → UInt32) (candidates : Candidates) (m : MethodDoc)
    (mark : UInt32) :
    (candidates.add fingerprint m).under mark =
      candidates.under mark ++ if mark = fingerprint m then [m] else [] := by
  simp only [under, add, Keyed.get?_update]
  by_cases h : mark = fingerprint m
  · simp [h]
  · simp [h]

theorem under_foldl_add (fingerprint : MethodDoc → UInt32) (mark : UInt32)
    (ms : List MethodDoc) (candidates : Candidates) :
    (ms.foldl (add fingerprint) candidates).under mark =
      candidates.under mark ++ ms.filter (mark = fingerprint ·) := by
  induction ms generalizing candidates with
  | nil => simp
  | cons m ms ih =>
    rw [List.foldl_cons, ih, under_add, List.filter_cons]
    by_cases h : mark = fingerprint m <;> simp [h]

/-- Under a fingerprint are exactly the methods that have it, in their order. -/
theorem under_ofMethods (fingerprint : MethodDoc → UInt32) (mark : UInt32)
    (ms : List MethodDoc) :
    (ofMethods fingerprint ms).under mark = ms.filter (mark = fingerprint ·) := by
  rw [ofMethods, under_foldl_add]
  rfl

end Candidates

/-- Whether one of the inherited methods is the same as a method, of those that have its
fingerprint. -/
def isInherited (fingerprint : MethodDoc → UInt32) (inherited : Candidates) (m : MethodDoc) :
    Bool :=
  (inherited.under (fingerprint m)).any (·.same m)

theorem isInherited_ofMethods {fingerprint : MethodDoc → UInt32} {ms : List MethodDoc}
    {m : MethodDoc} :
    isInherited fingerprint (.ofMethods fingerprint ms) m = true ↔
      ∃ n ∈ ms, fingerprint m = fingerprint n ∧ n.same m = true := by
  rw [isInherited, Candidates.under_ofMethods]
  simp

/-! ### Classes without what they inherit -/

namespace Hierarchy

/-- A class without the methods that it inherits, by fingerprints of the given kind. -/
def flattenBy (fingerprint : MethodDoc → UInt32) (h : Hierarchy) (c : ClassDoc) : Flattened :=
  let ancestry := h.ancestry c
  let inherited := Candidates.ofMethods fingerprint (ancestry.chain.flatMap (·.methods))
  let (removed, kept) := c.methods.partition (isInherited fingerprint inherited)
  { own := { c with methods := kept }
    ancestors := ancestry.chain
    stop := ancestry.stop
    removed := removed.map (·.name) }

/-- A class without the methods that it inherits. -/
def flatten (h : Hierarchy) (c : ClassDoc) : Flattened := h.flattenBy MethodDoc.fingerprint c

end Hierarchy

end ApiTypings
