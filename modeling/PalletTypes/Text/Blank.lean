/-!
White space as Unicode has it: the separators and the controls that separate.
-/

namespace PalletTypes

/-- The ranges of code points that are white space, ends included. -/
def blankRanges : List (Nat × Nat) :=
  [(0x09, 0x0D), (0x1C, 0x20), (0x85, 0x85), (0xA0, 0xA0), (0x1680, 0x1680),
    (0x2000, 0x200A), (0x2028, 0x2029), (0x202F, 0x202F), (0x205F, 0x205F),
    (0x3000, 0x3000)]

def isBlank (character : Char) : Bool :=
  blankRanges.any fun (low, high) =>
    decide (low ≤ character.toNat) && decide (character.toNat ≤ high)

end PalletTypes
