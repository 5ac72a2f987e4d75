import PalletTypes.Proofs.Text.CodePoint
import PalletTypes.Text.Utf8

/-!
Writing UTF-8 and reading it back.
-/

namespace PalletTypes

namespace Utf8

theorem toNat_toUInt8 {number : Nat} (small : number < 256) :
    number.toUInt8.toNat = number := by
  simp [Nat.toUInt8, Nat.mod_eq_of_lt small]

theorem toNat_continuation (number : Nat) :
    (continuation number).toNat = 0x80 + number % 64 :=
  toNat_toUInt8 (by omega)

theorem continuation_mod (number : Nat) :
    (continuation number).toNat % 64 = number % 64 := by
  rw [toNat_continuation]
  omega

theorem contains_iff {range : Range} {byte : UInt8} :
    range.contains byte ↔
      range.low.toNat ≤ byte.toNat ∧ byte.toNat ≤ range.high.toNat := by
  simp [Range.contains, UInt8.le_iff_toNat_le]

theorem tail_contains_continuation (number : Nat) :
    Range.tail.contains (continuation number) := by
  rw [contains_iff, toNat_continuation]
  simp only [Range.tail, UInt8.reduceToNat]
  omega

theorem lead?_two {number : Nat} (low : 0x80 ≤ number) (high : number < 0x800) :
    lead? (0xC0 + number / 64).toUInt8 = some (number / 64, [.tail]) := by
  have value := toNat_toUInt8 (show 0xC0 + number / 64 < 256 by omega)
  have notAscii : ¬ 0xC0 + number / 64 < 0x80 := by omega
  have notOverlong : ¬ 0xC0 + number / 64 < 0xC2 := by omega
  have isTwo : 0xC0 + number / 64 < 0xE0 := by omega
  simp only [lead?, value, notAscii, notOverlong, isTwo, if_false, if_true,
    Nat.add_sub_cancel_left]

theorem lead?_three {number : Nat} (low : 0x800 ≤ number) (high : number < 0x10000)
    (scalar : number < 0xD800 ∨ 0xE000 ≤ number) :
    ∃ range, lead? (0xE0 + number / 4096).toUInt8 =
        some (number / 4096, [range, .tail]) ∧
      range.contains (continuation (number / 64)) := by
  have value := toNat_toUInt8 (show 0xE0 + number / 4096 < 256 by omega)
  have notAscii : ¬ 0xE0 + number / 4096 < 0x80 := by omega
  have notOverlong : ¬ 0xE0 + number / 4096 < 0xC2 := by omega
  have notTwo : ¬ 0xE0 + number / 4096 < 0xE0 := by omega
  simp only [lead?, value, notAscii, notOverlong, notTwo, if_false, contains_iff,
    toNat_continuation]
  by_cases first : 0xE0 + number / 4096 = 0xE0
  · refine ⟨⟨0xA0, 0xBF⟩, ?_, ?_⟩
    · have isZero : number / 4096 = 0 := by omega
      simp only [isZero, Nat.add_zero, if_true]
    · simp only [UInt8.reduceToNat]
      omega
  · by_cases beforeSurrogates : 0xE0 + number / 4096 = 0xED
    · refine ⟨⟨0x80, 0x9F⟩, ?_, ?_⟩
      · have isThirteen : number / 4096 = 13 := by omega
        simp only [isThirteen, Nat.reduceAdd, Nat.reduceEqDiff, if_true, if_false]
      · simp only [UInt8.reduceToNat]
        omega
    · have isThree : 0xE0 + number / 4096 < 0xF0 := by omega
      refine ⟨.tail, ?_, ?_⟩
      · simp only [first, beforeSurrogates, isThree, if_true, if_false,
          Nat.add_sub_cancel_left]
      · simp only [Range.tail, UInt8.reduceToNat]
        omega

theorem lead?_four {number : Nat} (low : 0x10000 ≤ number)
    (high : number < 0x110000) :
    ∃ range, lead? (0xF0 + number / 262144).toUInt8 =
        some (number / 262144, [range, .tail, .tail]) ∧
      range.contains (continuation (number / 4096)) := by
  have value := toNat_toUInt8 (show 0xF0 + number / 262144 < 256 by omega)
  have notAscii : ¬ 0xF0 + number / 262144 < 0x80 := by omega
  have notOverlong : ¬ 0xF0 + number / 262144 < 0xC2 := by omega
  have notTwo : ¬ 0xF0 + number / 262144 < 0xE0 := by omega
  have notFirstThree : ¬ 0xF0 + number / 262144 = 0xE0 := by omega
  have notSurrogate : ¬ 0xF0 + number / 262144 = 0xED := by omega
  have notThree : ¬ 0xF0 + number / 262144 < 0xF0 := by omega
  simp only [lead?, value, notAscii, notOverlong, notTwo, notFirstThree, notSurrogate,
    notThree, if_false, contains_iff, toNat_continuation]
  by_cases first : 0xF0 + number / 262144 = 0xF0
  · refine ⟨⟨0x90, 0xBF⟩, ?_, ?_⟩
    · have isZero : number / 262144 = 0 := by omega
      simp only [isZero, Nat.add_zero, if_true]
    · simp only [UInt8.reduceToNat]
      omega
  · by_cases middle : 0xF0 + number / 262144 < 0xF4
    · refine ⟨.tail, ?_, ?_⟩
      · simp only [first, middle, if_true, if_false, Nat.add_sub_cancel_left]
      · simp only [Range.tail, UInt8.reduceToNat]
        omega
    · have last : 0xF0 + number / 262144 = 0xF4 := by omega
      refine ⟨⟨0x80, 0x8F⟩, ?_, ?_⟩
      · have isFour : number / 262144 = 4 := by omega
        simp only [isFour, Nat.reduceAdd, Nat.reduceEqDiff, Nat.lt_irrefl, if_true,
          if_false]
      · simp only [UInt8.reduceToNat]
        omega

theorem decodeFrom_encodeChar (done : List Char) (start : Nat) (character : Char)
    (rest : Bytes) :
    decodeFrom ⟨done, start, [], 0, []⟩ (encodeChar character ++ rest) =
      decodeFrom ⟨character :: done, start + (encodeChar character).length, [], 0, []⟩
        rest := by
  have valid := isValidChar_toNat character
  have same := Char.ofNat_toNat character
  unfold encodeChar
  generalize character.toNat = number at valid same ⊢
  subst same
  by_cases one : number < 0x80
  · have value := toNat_toUInt8 (show number < 256 by omega)
    have lead : lead? number.toUInt8 = some (number, []) := by
      simp only [lead?, value, one, if_true]
    simp only [one, if_true]
    generalize number.toUInt8 = byte at lead ⊢
    simp [decodeFrom, Progress.advance, lead]
  by_cases two : number < 0x800
  · have lead := lead?_two (Nat.le_of_not_lt one) two
    have total : number / 64 * 64 + number % 64 = number := by omega
    simp only [one, two, if_true, if_false]
    generalize (0xC0 + number / 64).toUInt8 = byte at lead ⊢
    simp [decodeFrom, Progress.advance, lead, tail_contains_continuation,
      continuation_mod, total, Nat.add_assoc]
  by_cases three : number < 0x10000
  · obtain ⟨range, lead, second⟩ :=
      lead?_three (Nat.le_of_not_lt two) three (by omega)
    have total : (number / 4096 * 64 + number / 64 % 64) * 64 + number % 64 =
        number := by omega
    simp only [one, two, three, if_true, if_false]
    generalize (0xE0 + number / 4096).toUInt8 = byte at lead ⊢
    simp [decodeFrom, Progress.advance, lead, second,
      tail_contains_continuation, continuation_mod, total, Nat.add_assoc]
  · obtain ⟨range, lead, second⟩ := lead?_four (Nat.le_of_not_lt three) (by omega)
    have total : ((number / 262144 * 64 + number / 4096 % 64) * 64 +
        number / 64 % 64) * 64 + number % 64 = number := by omega
    simp only [one, two, three, if_false]
    generalize (0xF0 + number / 262144).toUInt8 = byte at lead ⊢
    simp [decodeFrom, Progress.advance, lead, second,
      tail_contains_continuation, continuation_mod, total, Nat.add_assoc]

theorem decodeFrom_encode (done : List Char) (start : Nat) (characters : List Char) :
    decodeFrom ⟨done, start, [], 0, []⟩ (encode characters) =
      .ok (done.reverse ++ characters) := by
  induction characters generalizing done start with
  | nil => simp [encode, decodeFrom]
  | cons character characters induction =>
      change decodeFrom _ (encodeChar character ++ encode characters) = _
      rw [decodeFrom_encodeChar, induction]
      simp

theorem decode_encode (characters : List Char) :
    decode (encode characters) = .ok characters :=
  decodeFrom_encode [] 0 characters

theorem firstRunFrom?_eq_none_iff {position : Nat} {text : Text} :
    firstRunFrom? position text = none ↔ text.NoSurrogates := by
  induction text generalizing position with
  | nil => simp [firstRunFrom?]
  | cons codePoint text induction =>
      cases codePoint with
      | scalar character => simp [firstRunFrom?, induction, CodePoint.isSurrogate]
      | surrogate half => simp [firstRunFrom?, CodePoint.isSurrogate]

end Utf8

theorem Text.encode_eq_ok_iff {text : Text} {bytes : Bytes} :
    text.encode = .ok bytes ↔
      text.NoSurrogates ∧ bytes = Utf8.encode text.characters := by
  unfold encode
  cases run : Utf8.firstRunFrom? 0 text with
  | none =>
      simp only [Except.ok.injEq, Utf8.firstRunFrom?_eq_none_iff.mp run, true_and]
      exact eq_comm
  | some found =>
      simp only [reduceCtorEq, false_iff, not_and]
      intro clean
      rw [Utf8.firstRunFrom?_eq_none_iff.mpr clean] at run
      cases run

end PalletTypes
