import PalletTypes.Json.Layout
import PalletTypes.Proofs.Json.Grammar
import PalletTypes.Proofs.Text.CodePoint

/-!
What is written for a string the grammar derives, and it denotes the string,
unless the string has surrogates.
-/

namespace PalletTypes.Json

open Grammar

theorem unit?_hexDigits {unit : Nat} (small : unit < 0x10000) :
    StringLiteral.unit? (hexDigit (unit / 16 / 16 / 16 % 16))
      (hexDigit (unit / 16 / 16 % 16)) (hexDigit (unit / 16 % 16))
      (hexDigit (unit % 16)) = some unit := by
  have digit (number : Nat) : hexDigit? (hexDigit (number % 16)) = some (number % 16) :=
    hexDigit?_hexDigit _ (Nat.mod_lt number (by decide))
  simp only [StringLiteral.unit?, digit, Option.some.injEq]
  omega

theorem partText_escapeUnit {unit : Nat} (small : unit < 0x10000) :
    PartText (escapeUnit unit) (.unit unit) :=
  .number (unit?_hexDigits small)

theorem joinParts_unit {unit : Nat} (notHigh : unit < 0xD800) (parts : List Part) :
    joinParts (.unit unit :: parts) = .scalar (Char.ofNat unit) :: joinParts parts := by
  have alone : CodePoint.ofUnit unit = .scalar (Char.ofNat unit) := by
    simp [CodePoint.ofUnit, Nat.not_le.mpr notHigh]
  have noPair (low : Nat) :
      ¬ ((0xD800 ≤ unit ∧ unit < 0xDC00) ∧ 0xDC00 ≤ low ∧ low < 0xE000) := by
    omega
  rw [← alone]
  cases parts with
  | nil => rfl
  | cons part parts =>
      cases part with
      | character => rfl
      | unit low => rw [joinParts, if_neg (noPair low)]

theorem part_of_escape (character : Char) :
    ∃ part, PartText ((requiredEscape? character).getD [character]) part ∧
      ∀ parts, joinParts (part :: parts) = .scalar character :: joinParts parts := by
  have letter {sign character : Char} (named : StringLiteral.escaped? sign = some character) :
      ∃ part, PartText ['\\', sign] part ∧
        ∀ parts, joinParts (part :: parts) = .scalar character :: joinParts parts :=
    ⟨.character character, .letter named, fun _ => by rw [joinParts]⟩
  fun_cases requiredEscape? character with
  | case8 =>
      rename_i control _ _ _ _ _ _ _
      rw [if_pos control]
      refine ⟨_, partText_escapeUnit (Nat.lt_trans control (by decide)), ?_⟩
      intro parts
      rw [joinParts_unit (by omega), Char.ofNat_toNat]
  | case9 =>
      rename_i control noQuote noBackslash _ _ _ _ _
      rw [if_neg control]
      refine ⟨_, .plain (Nat.not_lt.mp control) noQuote noBackslash, ?_⟩
      intro parts
      rw [joinParts]
  | _ => exact letter rfl

theorem parts_of_text {text : Text} (clean : text.NoSurrogates) :
    ∃ parts, PartsText (Text.characters (text.flatMap Escape.minimal)) parts ∧
      joinParts parts = text := by
  induction text with
  | nil => exact ⟨[], .nil, rfl⟩
  | cons codePoint text induction =>
      rw [Text.noSurrogates_cons] at clean
      obtain ⟨parts, spelled, joined⟩ := induction clean.2
      cases codePoint with
      | surrogate half => cases clean.1
      | scalar character =>
          obtain ⟨part, isPart, joins⟩ := part_of_escape character
          refine ⟨part :: parts, ?_, ?_⟩
          · rw [List.flatMap_cons, Text.characters_append, Escape.minimal,
              Text.characters_ofChars]
            exact .cons isPart spelled
          · rw [joins, joined]

theorem stringText_writeString {text : Text} (clean : text.NoSurrogates) :
    StringText (writeString .minimal text).characters text := by
  obtain ⟨parts, spelled, joined⟩ := parts_of_text clean
  have quoted := StringText.quoted spelled
  rw [joined] at quoted
  simpa [writeString] using quoted

end PalletTypes.Json
