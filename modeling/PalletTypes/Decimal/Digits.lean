/-!
Decimal numerals over characters.
-/

namespace PalletTypes.Decimal

def ofDigits (digits : List Char) : Nat :=
  digits.foldl (fun number digit => number * 10 + (digit.toNat - 48)) 0

/-- A number's digits, without leading zeros. -/
def toDigits (number : Nat) : List Char :=
  Nat.toDigits 10 number

end PalletTypes.Decimal
