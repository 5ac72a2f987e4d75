import PalletTypes.Proofs.Text.Utf8

/-!
Bytes that are read as UTF-8 are the UTF-8 form of what they are read as. A lead byte and
the bytes that it asks for are the form of the character that they come to.
-/

namespace PalletTypes.Utf8

theorem toNat_ofNat {number : Nat} (valid : number.isValidChar) :
    (Char.ofNat number).toNat = number := by
  rw [Char.ofNat, dif_pos valid]
  rfl

theorem encodeChar_one {number : Nat} (small : number < 0x80) :
    encodeChar (Char.ofNat number) = [number.toUInt8] := by
  have same : (Char.ofNat number).toNat = number := toNat_ofNat (Or.inl (by omega))
  simp only [encodeChar, same, small, if_true]

theorem encodeChar_two {number : Nat} (low : 0x80 ≤ number) (high : number < 0x800) :
    encodeChar (Char.ofNat number) =
      [(0xC0 + number / 64).toUInt8, continuation number] := by
  have same : (Char.ofNat number).toNat = number := toNat_ofNat (Or.inl (by omega))
  have notOne : ¬ number < 0x80 := by omega
  simp only [encodeChar, same, notOne, high, if_true, if_false]

theorem encodeChar_three {number : Nat} (low : 0x800 ≤ number) (high : number < 0x10000)
    (valid : number.isValidChar) :
    encodeChar (Char.ofNat number) =
      [(0xE0 + number / 4096).toUInt8, continuation (number / 64),
        continuation number] := by
  have same := toNat_ofNat valid
  have notOne : ¬ number < 0x80 := by omega
  have notTwo : ¬ number < 0x800 := by omega
  simp only [encodeChar, same, notOne, notTwo, high, if_true, if_false]

theorem encodeChar_four {number : Nat} (low : 0x10000 ≤ number)
    (valid : number.isValidChar) :
    encodeChar (Char.ofNat number) =
      [(0xF0 + number / 262144).toUInt8, continuation (number / 4096),
        continuation (number / 64), continuation number] := by
  have same := toNat_ofNat valid
  have notOne : ¬ number < 0x80 := by omega
  have notTwo : ¬ number < 0x800 := by omega
  have notThree : ¬ number < 0x10000 := by omega
  simp only [encodeChar, same, notOne, notTwo, notThree, if_false]

theorem toUInt8_eq (byte : UInt8) {number : Nat} (same : number = byte.toNat) :
    number.toUInt8 = byte := by
  rw [same, Nat.toUInt8_eq, UInt8.ofNat_toNat]

theorem continuation_eq {byte : UInt8} {number : Nat} (low : 0x80 ≤ byte.toNat)
    (high : byte.toNat ≤ 0xBF) (same : number % 64 = byte.toNat % 64) :
    continuation number = byte :=
  toUInt8_eq byte (by omega)

/-- The bytes are those that a character that has begun still asks for, and the number
that it comes to with them. -/
inductive Completes : Nat → List Range → Bytes → Nat → Prop
  | nil {number : Nat} : Completes number [] [] number
  | cons {number result : Nat} {range : Range} {owed : List Range} {byte : UInt8}
      {bytes : Bytes} : range.contains byte →
        Completes (number * 64 + byte.toNat % 64) owed bytes result →
          Completes number (range :: owed) (byte :: bytes) result

theorem tail_contains_iff {byte : UInt8} :
    Range.tail.contains byte ↔ 0x80 ≤ byte.toNat ∧ byte.toNat ≤ 0xBF := by
  rw [contains_iff]
  rfl

theorem encodeChar_of_two {lead : UInt8} {bytes : Bytes} {number result : Nat}
    (isLead : lead.toNat = 0xC0 + number) (low : 2 ≤ number) (high : number < 0x20)
    (completes : Completes number [.tail] bytes result) :
    encodeChar (Char.ofNat result) = lead :: bytes := by
  cases completes with
  | @cons _ _ _ _ second _ isSecond rest =>
      cases rest
      rw [tail_contains_iff] at isSecond
      rw [encodeChar_two (by omega) (by omega), toUInt8_eq lead (by omega),
        continuation_eq isSecond.1 isSecond.2 (by omega)]

/-- The first byte after the lead byte keeps out overlong forms and surrogates. -/
theorem encodeChar_of_three {lead : UInt8} {bytes : Bytes} {number result : Nat}
    {range : Range} (isLead : lead.toNat = 0xE0 + number) (high : number < 0x10)
    (tail : ∀ byte, range.contains byte → 0x80 ≤ byte.toNat ∧ byte.toNat ≤ 0xBF ∧
      (number = 0 → 0xA0 ≤ byte.toNat) ∧ (number = 13 → byte.toNat ≤ 0x9F))
    (completes : Completes number [range, .tail] bytes result) :
    encodeChar (Char.ofNat result) = lead :: bytes := by
  cases completes with
  | @cons _ _ _ _ second _ isSecond rest =>
      cases rest with
      | @cons _ _ _ _ third _ isThird rest =>
          cases rest
          obtain ⟨low, high, notOverlong, notSurrogate⟩ := tail second isSecond
          rw [tail_contains_iff] at isThird
          have valid :
              Nat.isValidChar ((number * 64 + second.toNat % 64) * 64 +
                third.toNat % 64) := by
            simp only [Nat.isValidChar]
            omega
          rw [encodeChar_three (by omega) (by omega) valid,
            toUInt8_eq lead (by omega),
            continuation_eq low high (by omega),
            continuation_eq isThird.1 isThird.2 (by omega)]

/-- The first byte after the lead byte keeps out overlong forms and what lies above the
last character. -/
theorem encodeChar_of_four {lead : UInt8} {bytes : Bytes} {number result : Nat}
    {range : Range} (isLead : lead.toNat = 0xF0 + number) (high : number < 5)
    (tail : ∀ byte, range.contains byte → 0x80 ≤ byte.toNat ∧ byte.toNat ≤ 0xBF ∧
      (number = 0 → 0x90 ≤ byte.toNat) ∧ (number = 4 → byte.toNat ≤ 0x8F))
    (completes : Completes number [range, .tail, .tail] bytes result) :
    encodeChar (Char.ofNat result) = lead :: bytes := by
  cases completes with
  | @cons _ _ _ _ second _ isSecond rest =>
      cases rest with
      | @cons _ _ _ _ third _ isThird rest =>
          cases rest with
          | @cons _ _ _ _ fourth _ isFourth rest =>
              cases rest
              obtain ⟨low, high, notOverlong, notAbove⟩ := tail second isSecond
              rw [tail_contains_iff] at isThird isFourth
              have valid :
                  Nat.isValidChar (((number * 64 + second.toNat % 64) * 64 +
                    third.toNat % 64) * 64 + fourth.toNat % 64) := by
                simp only [Nat.isValidChar]
                omega
              rw [encodeChar_four (by omega) valid, toUInt8_eq lead (by omega),
                continuation_eq low high (by omega),
                continuation_eq isThird.1 isThird.2 (by omega),
                continuation_eq isFourth.1 isFourth.2 (by omega)]

theorem encodeChar_of_lead {lead : UInt8} {owed : List Range} {bytes : Bytes}
    {number result : Nat} (begins : lead? lead = some (number, owed))
    (completes : Completes number owed bytes result) :
    encodeChar (Char.ofNat result) = lead :: bytes := by
  have sameLead (value : Nat) (ranges : List Range)
      (same : some (value, ranges) = some (number, owed)) :
      number = value ∧ owed = ranges := by
    simpa only [Option.some.injEq, Prod.mk.injEq, eq_comm] using same
  unfold lead? at begins
  simp only at begins
  split at begins
  · rename_i small
    obtain ⟨rfl, rfl⟩ := sameLead _ _ begins
    cases completes
    rw [encodeChar_one small, toUInt8_eq lead rfl]
  split at begins
  · cases begins
  split at begins
  · obtain ⟨isNumber, rfl⟩ := sameLead _ _ begins
    exact encodeChar_of_two (by omega) (by omega) (by omega) completes
  split at begins
  · obtain ⟨isNumber, rfl⟩ := sameLead _ _ begins
    refine encodeChar_of_three (by omega) (by omega) (fun byte isSecond => ?_) completes
    simp only [contains_iff, UInt8.reduceToNat] at isSecond
    omega
  split at begins
  · obtain ⟨isNumber, rfl⟩ := sameLead _ _ begins
    refine encodeChar_of_three (by omega) (by omega) (fun byte isSecond => ?_) completes
    simp only [contains_iff, UInt8.reduceToNat] at isSecond
    omega
  split at begins
  · obtain ⟨isNumber, rfl⟩ := sameLead _ _ begins
    refine encodeChar_of_three (by omega) (by omega) (fun byte isSecond => ?_) completes
    rw [tail_contains_iff] at isSecond
    omega
  split at begins
  · obtain ⟨isNumber, rfl⟩ := sameLead _ _ begins
    refine encodeChar_of_four (by omega) (by omega) (fun byte isSecond => ?_) completes
    simp only [contains_iff, UInt8.reduceToNat] at isSecond
    omega
  split at begins
  · obtain ⟨isNumber, rfl⟩ := sameLead _ _ begins
    refine encodeChar_of_four (by omega) (by omega) (fun byte isSecond => ?_) completes
    rw [tail_contains_iff] at isSecond
    omega
  split at begins
  · obtain ⟨isNumber, rfl⟩ := sameLead _ _ begins
    refine encodeChar_of_four (by omega) (by omega) (fun byte isSecond => ?_) completes
    simp only [contains_iff, UInt8.reduceToNat] at isSecond
    omega
  · cases begins

abbrev between (done : List Char) (start : Nat) : Progress := ⟨done, start, [], 0, []⟩

theorem decodeFrom_within {progress : Progress} {bytes : Bytes} {text : List Char}
    (begun : progress.owed ≠ []) (decoded : decodeFrom progress bytes = .ok text) :
    ∃ taken rest result start, bytes = taken ++ rest ∧
      Completes progress.number progress.owed taken result ∧
      decodeFrom (between (Char.ofNat result :: progress.done) start) rest = .ok text := by
  obtain ⟨done, start, read, number, owed⟩ := progress
  induction owed generalizing number read bytes with
  | nil => exact absurd rfl begun
  | cons range owed induction =>
      cases bytes with
      | nil => cases decoded
      | cons byte bytes =>
          simp only [decodeFrom] at decoded
          split at decoded
          · rename_i isNext
            cases owed with
            | nil =>
                exact ⟨[byte], bytes, _, _, rfl, .cons isNext .nil, decoded⟩
            | cons next owed =>
                obtain ⟨taken, rest, result, place, split, completes, after⟩ :=
                  induction _ _ (List.cons_ne_nil _ _) decoded
                exact ⟨byte :: taken, rest, result, place, congrArg (byte :: ·) split,
                  .cons isNext completes, after⟩
          · cases decoded

theorem decodeFrom_between {done : List Char} {start : Nat} {lead : UInt8}
    {bytes : Bytes} {text : List Char}
    (decoded : decodeFrom (between done start) (lead :: bytes) = .ok text) :
    ∃ character rest place, lead :: bytes = encodeChar character ++ rest ∧
      decodeFrom (between (character :: done) place) rest = .ok text := by
  simp only [decodeFrom] at decoded
  split at decoded
  · cases decoded
  · rename_i number owed begins
    cases owed with
    | nil =>
        have form := encodeChar_of_lead begins .nil
        exact ⟨Char.ofNat number, bytes, _, by rw [form]; rfl, decoded⟩
    | cons range owed =>
        obtain ⟨taken, rest, result, place, split, completes, after⟩ :=
          decodeFrom_within (List.cons_ne_nil _ _) decoded
        have form := encodeChar_of_lead begins completes
        refine ⟨Char.ofNat result, rest, place, ?_, after⟩
        rw [form, split]
        rfl

theorem encode_of_decodeFrom {done : List Char} {start : Nat} {bytes : Bytes}
    {text : List Char} (decoded : decodeFrom (between done start) bytes = .ok text) :
    ∃ characters, text = done.reverse ++ characters ∧ bytes = encode characters := by
  cases bytes with
  | nil => exact ⟨[], by simpa [decodeFrom] using decoded.symm, rfl⟩
  | cons lead bytes =>
      obtain ⟨character, rest, place, split, after⟩ := decodeFrom_between decoded
      have shorter : rest.length < (lead :: bytes).length := by
        have some : 0 < (encodeChar character).length := by
          unfold encodeChar
          simp only
          split
          · exact Nat.one_pos
          split
          · exact Nat.two_pos
          split
          · exact Nat.succ_pos _
          · exact Nat.succ_pos _
        rw [split, List.length_append]
        omega
      obtain ⟨characters, read, form⟩ := encode_of_decodeFrom after
      refine ⟨character :: characters, ?_, ?_⟩
      · rw [read, List.reverse_cons, List.append_assoc, List.singleton_append]
      · rw [split, form]
        rfl
termination_by bytes.length

theorem decode_eq_ok_iff {bytes : Bytes} {text : List Char} :
    decode bytes = .ok text ↔ bytes = encode text := by
  constructor
  · intro decoded
    have fromStart : decodeFrom (between [] 0) bytes = .ok text := decoded
    obtain ⟨characters, read, form⟩ := encode_of_decodeFrom fromStart
    rw [form, read]
    rfl
  · rintro rfl
    exact decode_encode text

end PalletTypes.Utf8
