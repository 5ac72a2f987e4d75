import Mathlib.Algebra.Ring.Nat
import PalletTypes.Text.CodePoint

/-!
Texts without surrogates are those of characters alone. Code points and numerals of a fixed
width are told by their numbers.
-/

namespace PalletTypes

@[simp] theorem CodePoint.isSurrogate_scalar (character : Char) :
    (CodePoint.scalar character).isSurrogate = false := rfl

@[simp] theorem CodePoint.value_scalar (character : Char) :
    (CodePoint.scalar character).value = character.toNat := rfl

namespace Text

def NoSurrogates (text : Text) : Prop :=
  ∀ codePoint ∈ text, codePoint.isSurrogate = false

@[simp] theorem noSurrogates_nil : NoSurrogates [] := fun _ member => nomatch member

@[simp] theorem noSurrogates_cons {codePoint : CodePoint} {text : Text} :
    NoSurrogates (codePoint :: text) ↔
      codePoint.isSurrogate = false ∧ NoSurrogates text :=
  List.forall_mem_cons

@[simp] theorem noSurrogates_append {first second : Text} :
    NoSurrogates (first ++ second) ↔ NoSurrogates first ∧ NoSurrogates second :=
  List.forall_mem_append

@[simp] theorem noSurrogates_ofChars (characters : List Char) :
    NoSurrogates (ofChars characters) := by
  intro codePoint member
  obtain ⟨character, _, rfl⟩ := List.mem_map.mp member
  rfl

@[simp] theorem noSurrogates_ofString (string : String) :
    NoSurrogates (ofString string) :=
  noSurrogates_ofChars string.toList

@[simp] theorem characters_nil : characters [] = [] := rfl

@[simp] theorem characters_scalar (character : Char) (text : Text) :
    characters (.scalar character :: text) = character :: characters text := rfl

@[simp] theorem characters_surrogate (half : Surrogate) (text : Text) :
    characters (.surrogate half :: text) = characters text := rfl

@[simp] theorem characters_append (first second : Text) :
    characters (first ++ second) = characters first ++ characters second :=
  List.filterMap_append

@[simp] theorem characters_ofChars (text : List Char) :
    (ofChars text).characters = text := by
  induction text with
  | nil => rfl
  | cons character text induction => exact congrArg (character :: ·) induction

theorem mem_characters {character : Char} {text : Text} :
    character ∈ text.characters ↔ .scalar character ∈ text := by
  induction text with
  | nil => simp
  | cons codePoint text induction =>
      cases codePoint with
      | scalar other => simp [induction]
      | surrogate half => simp [induction]

end Text

theorem isValidChar_toNat (character : Char) :
    character.toNat < 0xD800 ∨ 0xE000 ≤ character.toNat ∧ character.toNat < 0x110000 := by
  have valid := character.valid
  simp only [UInt32.isValidChar, Nat.isValidChar] at valid
  change character.toNat < 0xD800 ∨ 0xDFFF < character.toNat ∧
    character.toNat < 0x110000 at valid
  omega

theorem CodePoint.value_lt (codePoint : CodePoint) : codePoint.value < 0x110000 := by
  cases codePoint with
  | scalar character =>
      have valid := isValidChar_toNat character
      rw [value_scalar]
      omega
  | surrogate half =>
      have bound := half.offset.isLt
      simp only [value, Surrogate.value]
      omega

theorem CodePoint.ofUnit_value (codePoint : CodePoint) : ofUnit codePoint.value = codePoint := by
  cases codePoint with
  | scalar character =>
      have valid := isValidChar_toNat character
      rw [value_scalar, ofUnit, dif_neg (by omega), Char.ofNat_toNat]
  | surrogate half =>
      have bound := half.offset.isLt
      have inside : 0xD800 ≤ half.value ∧ half.value < 0xE000 := by
        unfold Surrogate.value
        omega
      rw [value, ofUnit, dif_pos inside]
      simp [Surrogate.value]

theorem hexDigit?_hexDigit : ∀ digit < 16, hexDigit? (hexDigit digit) = some digit := by
  decide

theorem exists_of_mem_hexDigits {width number : Nat} {character : Char}
    (member : character ∈ hexDigits width number) :
    ∃ digit < 16, character = hexDigit digit := by
  induction width generalizing number with
  | zero => cases member
  | succ width induction =>
      rcases List.mem_append.mp member with before | last
      · exact induction before
      · exact ⟨number % 16, Nat.mod_lt number (by decide), List.mem_singleton.mp last⟩

theorem length_hexDigits (width number : Nat) : (hexDigits width number).length = width := by
  induction width generalizing number with
  | zero => rfl
  | succ width induction => simp [hexDigits, induction]

def ofHexDigits (digits : List Char) : Nat :=
  digits.foldl (fun number digit => 16 * number + (hexDigit? digit).getD 0) 0

theorem ofHexDigits_hexDigits (width number : Nat) :
    ofHexDigits (hexDigits width number) = number % 16 ^ width := by
  induction width generalizing number with
  | zero => simp [hexDigits, ofHexDigits, Nat.mod_one]
  | succ width induction =>
      have last : hexDigit? (hexDigit (number % 16)) = some (number % 16) :=
        hexDigit?_hexDigit _ (Nat.mod_lt number (by decide))
      calc
        ofHexDigits (hexDigits (width + 1) number) =
            16 * ofHexDigits (hexDigits width (number / 16)) + number % 16 := by
          simp [hexDigits, ofHexDigits, last]
        _ = 16 * (number / 16 % 16 ^ width) + number % 16 := by rw [induction]
        _ = number % 16 ^ (width + 1) := by
          rw [Nat.pow_succ', Nat.mod_mul, Nat.add_comm]

end PalletTypes
