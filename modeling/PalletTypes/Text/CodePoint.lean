/-!
Code points. A text of the data may hold a lone surrogate, which an escape can
name and which no encoding can write; every other code point is a character.
-/

namespace PalletTypes

/-- A surrogate, by its place in U+D800..U+DFFF. -/
structure Surrogate where
  offset : Fin 2048
deriving DecidableEq

def Surrogate.value (half : Surrogate) : Nat :=
  0xD800 + half.offset.val

inductive CodePoint where
  | scalar (character : Char)
  | surrogate (half : Surrogate)
deriving DecidableEq

namespace CodePoint

def value : CodePoint → Nat
  | .scalar character => character.toNat
  | .surrogate half => half.value

def ofUnit (unit : Nat) : CodePoint :=
  if bound : 0xD800 ≤ unit ∧ unit < 0xE000 then
    .surrogate ⟨⟨unit - 0xD800, by omega⟩⟩
  else .scalar (Char.ofNat unit)

def isSurrogate : CodePoint → Bool
  | .scalar _ => false
  | .surrogate _ => true

def character? : CodePoint → Option Char
  | .scalar character => some character
  | .surrogate _ => none

end CodePoint

/-- What a string of the data holds: any code points, in order. -/
abbrev Text := List CodePoint

namespace Text

def ofChars (characters : List Char) : Text :=
  characters.map .scalar

def ofString (string : String) : Text :=
  ofChars string.toList

/-- The characters of a text, its surrogates left out. -/
def characters (text : Text) : List Char :=
  text.filterMap CodePoint.character?

end Text

/-! Hexadecimal numerals of a fixed width, in lower case. -/

def hexDigit (digit : Nat) : Char :=
  if digit < 10 then Char.ofNat (48 + digit) else Char.ofNat (87 + digit)

def hexDigits : (width : Nat) → Nat → List Char
  | 0, _ => []
  | width + 1, number => hexDigits width (number / 16) ++ [hexDigit (number % 16)]

def hexDigit? (character : Char) : Option Nat :=
  let code := character.toNat
  if 48 ≤ code ∧ code ≤ 57 then some (code - 48)
  else if 97 ≤ code ∧ code ≤ 102 then some (code - 87)
  else if 65 ≤ code ∧ code ≤ 70 then some (code - 55)
  else none

end PalletTypes
