import ApiTypings.Binary64.Basic

/-!
# Doubles and decimals

The double nearest to a decimal (`ofDecimal?`), and the decimal that stands for a
double (`shortest`): of the decimals with the fewest digits that read back as the
double, the one nearest to it. All of it is exact arithmetic on natural numbers.
-/

namespace ApiTypings

/-- The number `digits * 10 ^ exponent`. -/
structure Decimal where
  digits : Nat
  exponent : Int
  deriving DecidableEq, Repr

/-- A quotient rounded to the nearest whole number, a half to the even neighbour. -/
def roundEven (num den : Nat) : Nat :=
  let whole := num / den
  let twice := 2 * (num % den)
  if twice < den then whole
  else if den < twice then whole + 1
  else if whole % 2 = 0 then whole else whole + 1

/-- Numerator and denominator of `num / den` times a power of `base`. -/
def scaled (base num den : Nat) (power : Int) : Nat × Nat :=
  if power < 0 then (num, den * Nat.pow base power.natAbs)
  else (num * Nat.pow base power.natAbs, den)

/-- How many decimal digits a positive number has. -/
def digitCount (n : Nat) : Nat := (Nat.toDigits 10 n).length

namespace Decimal

/-- The decimal without the zeros at the end of its digits; `fuel` bounds their number. -/
def stripped (fuel : Nat) (d : Decimal) : Decimal :=
  match fuel with
  | 0 => d
  | fuel + 1 =>
    if d.digits % 10 = 0 ∧ d.digits ≠ 0 then stripped fuel ⟨d.digits / 10, d.exponent + 1⟩ else d

end Decimal

namespace Binary64

/-- The place of the magnitude nearest to a positive quotient, none if that is beyond
the largest finite one. The significand has 53 binary digits unless the least
exponent allows fewer, and a significand rounded up to `2 ^ 53` lands on the next
place by itself. -/
def rankOfRatio? (num den : Nat) : Option (Fin magnitudes) :=
  let estimate : Int := (Nat.log2 num : Int) - Nat.log2 den
  let (low, high) := scaled 2 den num estimate
  let binade := if low ≤ high then estimate else estimate - 1
  let exponent := max (binade - 52) leastExponent
  let (num', den') := scaled 2 num den (-exponent)
  let rank := (exponent - leastExponent).toNat * binadeSize + roundEven num' den'
  if h : rank < magnitudes then some ⟨rank, h⟩ else none

/-- The double nearest to a decimal, with the sign given; none if it is too large.
Below `10 ^ (-400)` all is nearest to zero, and from `10 ^ 400` on all is too large. -/
def ofDecimal? (negative : Bool) (d : Decimal) : Option Binary64 :=
  let leading := digitCount d.digits + d.exponent
  if d.digits = 0 ∨ leading < -400 then some (zero negative)
  else if 400 < leading then none
  else
    let (num, den) := scaled 10 d.digits 1 d.exponent
    (rankOfRatio? num den).map (⟨negative, ·⟩)

/-- The exponent of the leading decimal digit of a positive quotient. -/
def leadingPlace (num den : Nat) : Int :=
  if den ≤ num then digitCount (num / den) - 1
  else
    match (List.range 400).find? fun j => den ≤ num * Nat.pow 10 j with
    | some j => -j
    | none => -400

/-- The decimal with `count` digits that is nearest to the double `num / den` among
those that read back as it; a tie goes to the even digits. -/
def withDigits? (x : Binary64) (num den count : Nat) : Option Decimal :=
  let place := leadingPlace num den - count + 1
  let (num', den') := scaled 10 num den (-place)
  let readsBack (digits : Nat) : Bool := ofDecimal? x.negative ⟨digits, place⟩ == some x
  let below := num' / den'
  let nearest := roundEven num' den'
  let other := if nearest = below then below + 1 else below
  if readsBack nearest then some ⟨nearest, place⟩
  else if readsBack other then some ⟨other, place⟩
  else none

/-- The decimal with the fewest digits that reads back as the double, of these the
nearest one. Seventeen digits always suffice. -/
def shortest (x : Binary64) : Decimal :=
  if x.isZero then ⟨0, 0⟩
  else
    let (num, den) := scaled 2 x.significand 1 x.exponent
    match (List.range 17).findSome? fun fewer => withDigits? x num den (fewer + 1) with
    | some d => d.stripped 20
    | none => ⟨0, 0⟩

end Binary64

end ApiTypings
