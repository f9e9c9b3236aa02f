/-!
# Finite doubles

A finite double is a sign and the place of its magnitude among the magnitudes of all
finite doubles, from zero upwards (`Binary64`). The place is the number that the
lower 63 bits of the IEEE 754 encoding spell, so neighbours differ by one, and a
magnitude is a significand times a power of two (`significand`, `exponent`).

Two doubles are the same number if they are equal, or are the two zeros (`same`).
-/

namespace ApiTypings

/-- How many magnitudes share a power of two: `2 ^ 52`. -/
def binadeSize : Nat := 0x10000000000000

/-- How many magnitudes finite doubles have. -/
def magnitudes : Nat := 0x7FF * binadeSize

/-- A finite double. -/
structure Binary64 where
  /-- Whether the sign is a minus; the two zeros differ in it alone. -/
  negative : Bool
  /-- The place of the magnitude, counted from zero. -/
  rank : Fin magnitudes
  deriving DecidableEq

namespace Binary64

/-- The least power of two in which a magnitude is counted. -/
def leastExponent : Int := -1074

/-- The significand of a magnitude: below `2 ^ 53`. -/
def significand (x : Binary64) : Nat :=
  if x.rank.val < binadeSize then x.rank.val else binadeSize + x.rank.val % binadeSize

/-- The power of two that the significand counts. -/
def exponent (x : Binary64) : Int :=
  if x.rank.val < binadeSize then leastExponent
  else x.rank.val / binadeSize - 1 + leastExponent

/-- The zero with a given sign. -/
def zero (negative : Bool) : Binary64 := ⟨negative, 0, by decide⟩

/-- Whether this is one of the two zeros. -/
def isZero (x : Binary64) : Bool := x.rank.val == 0

/-- Whether two doubles are the same number: the two zeros are. -/
def same (x y : Binary64) : Bool :=
  x.rank == y.rank && (x.negative == y.negative || x.isZero)

theorem same_refl (x : Binary64) : x.same x = true := by simp [same]

theorem same_symm {x y : Binary64} (h : x.same y = true) : y.same x = true := by
  simp only [same, isZero, Bool.and_eq_true, Bool.or_eq_true, beq_iff_eq] at h ⊢
  obtain ⟨hr, hs⟩ := h
  refine ⟨hr.symm, hs.imp Eq.symm fun hz => ?_⟩
  rw [← hr]
  exact hz

theorem same_trans {x y z : Binary64} (hxy : x.same y = true) (hyz : y.same z = true) :
    x.same z = true := by
  simp only [same, isZero, Bool.and_eq_true, Bool.or_eq_true, beq_iff_eq] at *
  obtain ⟨hr, hs⟩ := hxy
  obtain ⟨hr', hs'⟩ := hyz
  refine ⟨hr.trans hr', ?_⟩
  rcases hs with hs | hs
  · rcases hs' with hs' | hs'
    · exact .inl (hs.trans hs')
    · exact .inr (by rw [hr]; exact hs')
  · exact .inr hs

end Binary64

end ApiTypings
