import PalletTypes.Decimal.Digits

/-!
Double-precision numbers. The finite magnitudes are numbered in ascending order
from zero on, as their bit patterns are; every one is a whole number of units of
2⁻¹⁰⁷⁴. A decimal is read as the nearest double, the even one of two.
-/

namespace PalletTypes

/-- A finite magnitude, by its rank among all of them. -/
structure Magnitude where
  rank : Nat
  finite : rank < 2047 * Nat.pow 2 52
deriving DecidableEq

/-- The value of the magnitude of a rank, in units of 2⁻¹⁰⁷⁴. The formula goes on
beyond the finite ranks: the first one stands for 2¹⁰²⁴. -/
def unitsOfRank (rank : Nat) : Nat :=
  let binade := Nat.pow 2 52
  if rank < binade then rank
  else (binade + rank % binade) * Nat.pow 2 (rank / binade - 1)

def Magnitude.units (magnitude : Magnitude) : Nat :=
  unitsOfRank magnitude.rank

inductive NonFinite where
  | notANumber
  | infinity
  | negativeInfinity
deriving DecidableEq

inductive Binary64 where
  | finite (negative : Bool) (magnitude : Magnitude)
  | nonFinite (kind : NonFinite)
deriving DecidableEq

/-- A quotient rounded to a whole number, a half to the even one. -/
def roundQuotient (numerator denominator : Nat) : Nat :=
  let quotient := numerator / denominator
  let twice := 2 * (numerator % denominator)
  if twice < denominator then quotient
  else if denominator < twice then quotient + 1
  else quotient + quotient % 2

/-- The rank nearest to a quotient of units. With 53 bits to keep, the quotient
is rounded to a multiple of the power of two that leaves no more. -/
def nearestRank (numerator denominator : Nat) : Nat :=
  let shift := Nat.log2 (numerator / denominator) - 52
  roundQuotient numerator (denominator * Nat.pow 2 shift) + shift * Nat.pow 2 52

namespace Binary64

def zero (negative : Bool) : Binary64 :=
  .finite negative ⟨0, by decide⟩

def infinite (negative : Bool) : Binary64 :=
  .nonFinite (if negative then .negativeInfinity else .infinity)

def ofRank (negative : Bool) (rank : Nat) : Binary64 :=
  if finite : rank < 2047 * Nat.pow 2 52 then .finite negative ⟨rank, finite⟩
  else infinite negative

/-- The double nearest to `digits · 10 ^ exponent`. Beyond 10³⁰⁹ and below
10⁻³²⁴ the answer is known without the power. -/
def ofDecimal (negative : Bool) (digits : List Char) (exponent : Int) : Binary64 :=
  let number := Decimal.ofDigits digits
  if number = 0 ∨ exponent + digits.length < -324 then zero negative
  else if 309 < exponent then infinite negative
  else ofRank negative
    (nearestRank (number * Nat.pow 10 exponent.toNat * Nat.pow 2 1074)
      (Nat.pow 10 (-exponent).toNat))

def nonFinite? : Binary64 → Option NonFinite
  | .finite _ _ => none
  | .nonFinite kind => some kind

end Binary64

end PalletTypes
