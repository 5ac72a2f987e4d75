import PalletTypes.Decimal.Binary64

/-!
The shortest decimal that reads back as a given double. A decimal reads back
when it lies between the midpoints to the neighbouring doubles, the midpoints
themselves included where the rank is even. The coarsest grid of decimals with
a point there has the fewest digits, and of its points the nearest is taken.
-/

namespace PalletTypes

/-- The decimal `digits · 10 ^ exponent`. -/
structure ShortDecimal where
  digits : Nat
  exponent : Int
deriving DecidableEq

namespace Magnitude

/-- The powers of ten and two that turn the units of a magnitude into points of
the grid `10 ^ exponent`: `point · gridStep` is compared with
`2 · units · gridScale`. -/
def gridStep (exponent : Int) : Nat :=
  Nat.pow 10 exponent.toNat * Nat.pow 2 1075

def gridScale (exponent : Int) : Nat :=
  Nat.pow 10 (-exponent).toNat

def readsBack (magnitude : Magnitude) (exponent : Int) (point : Nat) : Bool :=
  let low := (unitsOfRank (magnitude.rank - 1) + magnitude.units) * gridScale exponent
  let high := (magnitude.units + unitsOfRank (magnitude.rank + 1)) * gridScale exponent
  let value := point * gridStep exponent
  if magnitude.rank % 2 = 0 then decide (low ≤ value) && decide (value ≤ high)
  else decide (low < value) && decide (value < high)

/-- The point of the grid that reads back and is nearest, the even one of two. -/
def nearestOn? (magnitude : Magnitude) (exponent : Int) : Option Nat :=
  let value := 2 * magnitude.units * gridScale exponent
  let below := value / gridStep exponent
  match magnitude.readsBack exponent below,
      magnitude.readsBack exponent (below + 1) with
  | true, true =>
      if roundQuotient value (gridStep exponent) = below then some below
      else some (below + 1)
  | true, false => some below
  | false, true => some (below + 1)
  | false, false => none

/-- Searches the grids from `10 ^ (steps - 1074)` down to the one that every
magnitude lies on. -/
def shortestFrom (magnitude : Magnitude) : (steps : Nat) → ShortDecimal
  | 0 => ⟨magnitude.units * Nat.pow 5 1074, -1074⟩
  | steps + 1 =>
      let exponent : Int := steps + 1 - 1074
      match magnitude.nearestOn? exponent with
      | some digits => ⟨digits, exponent⟩
      | none => magnitude.shortestFrom steps

def shortest (magnitude : Magnitude) : ShortDecimal :=
  magnitude.shortestFrom (1074 + 308)

end Magnitude

/-! The written form. The point stands among or next to the digits while the
number is below 10¹⁶ and not below 10⁻⁴; otherwise one digit is before the point
and the exponent has at least two. -/

def exponentMark (exponent : Int) : List Char :=
  let digits := Decimal.toDigits exponent.natAbs
  (if exponent < 0 then '-' else '+') ::
    (if digits.length < 2 then '0' :: digits else digits)

/-- Writes digits whose point stands after the first `point` of them. -/
def writeDecimal (digits : List Char) (point : Int) : List Char :=
  if 16 < point ∨ point ≤ -4 then
    digits.take 1 ++ (if digits.length ≤ 1 then [] else '.' :: digits.drop 1) ++
      'e' :: exponentMark (point - 1)
  else if point ≤ 0 then
    '0' :: '.' :: List.replicate (-point).toNat '0' ++ digits
  else if digits.length ≤ point.toNat then
    digits ++ List.replicate (point.toNat - digits.length) '0' ++ ['.', '0']
  else digits.take point.toNat ++ '.' :: digits.drop point.toNat

def Magnitude.write (magnitude : Magnitude) : List Char :=
  if magnitude.rank = 0 then ['0', '.', '0']
  else
    let shortest := magnitude.shortest
    let digits := Decimal.toDigits shortest.digits
    writeDecimal digits (shortest.exponent + digits.length)

def NonFinite.word : NonFinite → String
  | .notANumber => "NaN"
  | .infinity => "Infinity"
  | .negativeInfinity => "-Infinity"

def Binary64.write : Binary64 → List Char
  | .finite negative magnitude =>
      if negative then '-' :: magnitude.write else magnitude.write
  | .nonFinite kind => kind.word.toList

end PalletTypes
