import PalletTypes.Json.Layout
import PalletTypes.Proofs.Decimal.Shortest
import PalletTypes.Proofs.Json.Grammar

/-!
What is written for a number the grammar derives, and it denotes the number. A
decimal has four written forms, by where its point stands; each of them spells
the same digits and the same exponent.
-/

namespace PalletTypes

open Json Grammar

namespace Decimal

theorem digits_toDigits (number : Nat) : Digits (toDigits number) :=
  ⟨toDigits_ne_nil number, fun _ member => isDigit_of_mem_toDigits member⟩

theorem whole_toDigits (number : Nat) : Whole (toDigits number) := by
  by_cases zero : number = 0
  · rw [zero]
    exact .zero
  · exact .digits (digits_toDigits number) (head?_toDigits_ne zero)

theorem ofDigits_append_zeros (digits : List Char) (count : Nat) :
    ofDigits (digits ++ List.replicate count '0') = ofDigits digits * 10 ^ count := by
  rw [ofDigits_append, ofDigits_zeros, List.length_replicate, Nat.add_zero, Nat.mul_comm]

end Decimal

namespace Json

theorem spelled_writeInteger (value : Int) :
    Number (writeInteger value)
      ⟨decide (value < 0), Decimal.toDigits value.natAbs, [], none⟩ := by
  have isWhole := Decimal.whole_toDigits value.natAbs
  by_cases negative : value < 0
  · have spelled := Number.parts .minus isWhole .absent .absent
    simpa [writeInteger, negative] using spelled
  · have spelled := Number.parts .absent isWhole .absent .absent
    simpa [writeInteger, negative] using spelled

theorem number_writeInteger {value : Int}
    (short : (Decimal.toDigits value.natAbs).length ≤ NumberLiteral.digitLimit) :
    Scalar (writeInteger value) (.integer value) := by
  have denoted :
      NumberValue ⟨decide (value < 0), Decimal.toDigits value.natAbs, [], none⟩ _ :=
    .whole short
  have same : (if decide (value < 0) = true then -(value.natAbs : Int) else value.natAbs) =
      value := by
    split
    · rename_i negative
      have := of_decide_eq_true negative
      omega
    · rename_i notNegative
      have := of_decide_eq_false (Bool.not_eq_true _ ▸ notNegative)
      omega
  rw [Decimal.ofDigits_toDigits, same] at denoted
  exact .number (spelled_writeInteger value) denoted

/-- The text spells `number · 10 ^ exponent`, perhaps with further zeros, as a
number that is not whole. -/
inductive Spells : List Char → Nat → Int → Prop
  | parts {whole fraction digits mark : List Char} {power : Option (Bool × List Char)}
      {number : Nat} {exponent : Int} (zeros : Nat) :
      Whole whole → Fraction fraction digits → Exponent mark power →
        (digits ≠ [] ∨ power ≠ none) →
        Decimal.ofDigits (whole ++ digits) = number * 10 ^ zeros →
        NumberLiteral.exponentValue ⟨false, whole, digits, power⟩ - digits.length =
          exponent - zeros →
        Spells (whole ++ (fraction ++ mark)) number exponent

theorem exponent_exponentMark (exponent : Int) :
    ∃ negative digits, Exponent ('e' :: exponentMark exponent) (some (negative, digits)) ∧
      ∀ whole fraction, NumberLiteral.exponentValue
        ⟨false, whole, fraction, some (negative, digits)⟩ = exponent := by
  obtain ⟨digits, written, isDigits, value⟩ : ∃ digits,
      exponentMark exponent = (if exponent < 0 then '-' else '+') :: digits ∧
        Digits digits ∧ Decimal.ofDigits digits = exponent.natAbs := by
    have plain := Decimal.digits_toDigits exponent.natAbs
    refine ⟨_, rfl, ?_, ?_⟩
    · split
      · refine ⟨List.cons_ne_nil _ _, ?_⟩
        intro character member
        rcases List.mem_cons.mp member with rfl | inDigits
        · rfl
        · exact plain.all character inDigits
      · exact plain
    · split
      · rw [Decimal.ofDigits_zero_cons, Decimal.ofDigits_toDigits]
      · exact Decimal.ofDigits_toDigits exponent.natAbs
  rw [written]
  by_cases negative : exponent < 0
  · rw [if_pos negative]
    refine ⟨true, digits, .present (Or.inl rfl) .minus isDigits, ?_⟩
    intro whole fraction
    simp only [NumberLiteral.exponentValue, value]
    omega
  · rw [if_neg negative]
    refine ⟨false, digits, .present (Or.inl rfl) .plus isDigits, ?_⟩
    intro whole fraction
    simp only [NumberLiteral.exponentValue, value]
    omega

/-! The written form of a decimal, by where its point stands. -/

section Forms

variable {number : Nat} {exponent : Int}

theorem digits_zero : Digits ['0'] :=
  ⟨List.cons_ne_nil _ _, List.forall_mem_singleton.mpr rfl⟩

theorem digits_sublist {digits part : List Char} (isDigits : Digits digits)
    (within : part.Sublist digits) (nonempty : part ≠ []) : Digits part :=
  ⟨nonempty, fun character member => isDigits.all character (within.subset member)⟩

theorem whole_take {count : Nat} (nonzero : number ≠ 0) (some : 0 < count) :
    Whole ((Decimal.toDigits number).take count) := by
  have isDigits := Decimal.digits_toDigits number
  have leading := Decimal.head?_toDigits_ne nonzero
  apply Whole.digits
  · apply digits_sublist isDigits (List.take_sublist _ _)
    intro empty
    rcases List.take_eq_nil_iff.mp empty with none | none
    · omega
    · exact isDigits.nonempty none
  · rwa [List.head?_take, if_neg (by omega)]

theorem spells_scientific (nonzero : number ≠ 0) :
    Spells ((Decimal.toDigits number).take 1 ++
        ((if (Decimal.toDigits number).length ≤ 1 then []
          else '.' :: (Decimal.toDigits number).drop 1) ++
        'e' :: exponentMark (exponent + (Decimal.toDigits number).length - 1)))
      number exponent := by
  have isDigits := Decimal.digits_toDigits number
  have size := List.length_pos_iff.mpr isDigits.nonempty
  obtain ⟨negative, powerDigits, isExponent, value⟩ :=
    exponent_exponentMark (exponent + (Decimal.toDigits number).length - 1)
  have isFraction : Fraction (if (Decimal.toDigits number).length ≤ 1 then []
      else '.' :: (Decimal.toDigits number).drop 1)
      ((Decimal.toDigits number).drop 1) := by
    split
    · rename_i alone
      rw [List.drop_eq_nil_of_le alone]
      exact .absent
    · rename_i more
      apply Fraction.present
      apply digits_sublist isDigits (List.drop_sublist _ _)
      intro empty
      exact more (List.drop_eq_nil_iff.mp empty)
  apply Spells.parts 0 (whole_take nonzero Nat.one_pos) isFraction isExponent
  · exact Or.inr (Option.some_ne_none _)
  · rw [List.take_append_drop, Decimal.ofDigits_toDigits, Nat.pow_zero, Nat.mul_one]
  · rw [value, List.length_drop]
    omega

theorem spells_below_one {zeros : Nat}
    (point : exponent + (Decimal.toDigits number).length = -zeros) :
    Spells (['0'] ++ ('.' :: (List.replicate zeros '0' ++ Decimal.toDigits number) ++ []))
      number exponent := by
  have isDigits := Decimal.digits_toDigits number
  have all : Digits (List.replicate zeros '0' ++ Decimal.toDigits number) := by
    refine ⟨List.append_ne_nil_of_right_ne_nil _ isDigits.nonempty, ?_⟩
    intro character member
    rcases List.mem_append.mp member with inZeros | inDigits
    · rw [List.eq_of_mem_replicate inZeros]
      rfl
    · exact isDigits.all character inDigits
  apply Spells.parts 0 .zero (.present all) .absent
  · exact Or.inl all.nonempty
  · rw [List.singleton_append, Decimal.ofDigits_zero_cons, Decimal.ofDigits_append,
      Decimal.ofDigits_zeros, Decimal.ofDigits_toDigits, Nat.mul_zero, Nat.zero_add,
      Nat.pow_zero, Nat.mul_one]
  · rw [List.length_append, List.length_replicate]
    simp only [NumberLiteral.exponentValue]
    omega

theorem spells_whole {zeros : Nat} (nonzero : number ≠ 0) (point : exponent = zeros) :
    Spells ((Decimal.toDigits number ++ List.replicate zeros '0') ++ (['.', '0'] ++ []))
      number exponent := by
  have isDigits := Decimal.digits_toDigits number
  have isWhole : Whole (Decimal.toDigits number ++ List.replicate zeros '0') := by
    apply Whole.digits
    · refine ⟨List.append_ne_nil_of_left_ne_nil isDigits.nonempty _, ?_⟩
      intro character member
      rcases List.mem_append.mp member with inDigits | inZeros
      · exact isDigits.all character inDigits
      · rw [List.eq_of_mem_replicate inZeros]
        rfl
    · have leading := Decimal.head?_toDigits_ne nonzero
      cases written : Decimal.toDigits number with
      | nil => exact absurd written isDigits.nonempty
      | cons first rest => rwa [written] at leading
  apply Spells.parts (zeros + 1) isWhole (.present digits_zero) .absent
  · exact Or.inl digits_zero.nonempty
  · have more : List.replicate zeros '0' ++ ['0'] = List.replicate (zeros + 1) '0' :=
      List.replicate_succ'.symm
    rw [List.append_assoc, more, Decimal.ofDigits_append_zeros, Decimal.ofDigits_toDigits]
  · simp only [NumberLiteral.exponentValue, List.length_singleton]
    omega

theorem spells_split {count : Nat} (nonzero : number ≠ 0) (some : 0 < count)
    (inside : count < (Decimal.toDigits number).length)
    (point : exponent + (Decimal.toDigits number).length = count) :
    Spells ((Decimal.toDigits number).take count ++
        ('.' :: (Decimal.toDigits number).drop count ++ [])) number exponent := by
  have isFraction : Digits ((Decimal.toDigits number).drop count) := by
    apply digits_sublist (Decimal.digits_toDigits number) (List.drop_sublist _ _)
    intro empty
    have atEnd := List.drop_eq_nil_iff.mp empty
    omega
  apply Spells.parts 0 (whole_take nonzero some) (.present isFraction) .absent
  · exact Or.inl isFraction.nonempty
  · rw [List.take_append_drop, Decimal.ofDigits_toDigits, Nat.pow_zero, Nat.mul_one]
  · rw [List.length_drop]
    simp only [NumberLiteral.exponentValue]
    omega

theorem spells_writeDecimal (nonzero : number ≠ 0) (exponent : Int) :
    Spells (writeDecimal (Decimal.toDigits number)
      (exponent + (Decimal.toDigits number).length)) number exponent := by
  unfold writeDecimal
  split
  · have spelled := @spells_scientific number exponent nonzero
    rwa [← List.append_assoc] at spelled
  · split
    · have spelled := @spells_below_one number exponent
        (-(exponent + (Decimal.toDigits number).length)).toNat (by omega)
      rwa [List.append_nil] at spelled
    · split
      · have spelled := @spells_whole number exponent
          ((exponent + (Decimal.toDigits number).length).toNat -
            (Decimal.toDigits number).length) nonzero (by omega)
        rwa [List.append_nil] at spelled
      · have spelled := @spells_split number exponent
          (exponent + (Decimal.toDigits number).length).toNat nonzero (by omega)
          (by omega) (by omega)
        rwa [List.append_nil] at spelled

end Forms

/-! Doubles. -/

theorem shortest_digits_ne_zero {magnitude : Magnitude} (nonzero : magnitude.rank ≠ 0) :
    magnitude.shortest.digits ≠ 0 := by
  intro zero
  have held := Magnitude.readsBack_shortest nonzero
  rw [zero] at held
  have least := (Magnitude.encloses_of_readsBack held).least nonzero
  have positive : 0 < 10 ^ (-magnitude.shortest.exponent).toNat :=
    Nat.pow_pos (by decide)
  rw [Nat.zero_mul, Nat.zero_mul] at least
  omega

theorem sign_write (negative : Bool) (magnitude : Magnitude) :
    ∃ sign, Sign sign negative ∧
      (Binary64.finite negative magnitude).write = sign ++ magnitude.write := by
  cases negative with
  | true => exact ⟨['-'], .minus, rfl⟩
  | false => exact ⟨[], .absent, rfl⟩

theorem float_of_spells {text sign : List Char} {negative : Bool} {number : Nat}
    {exponent : Int} {magnitude : Magnitude} (spelled : Spells text number exponent)
    (isSign : Sign sign negative) (nonzero : magnitude.rank ≠ 0)
    (held : magnitude.readsBack exponent number = true) (small : exponent ≤ 308) :
    Scalar (sign ++ text) (.float (.finite negative magnitude)) := by
  cases spelled with
  | @parts whole fraction digits mark power _ _ zeros isWhole isFraction isExponent
      notWhole digitsValue scale =>
      have allDigits : ∀ digit ∈ whole ++ digits, digit.isDigit := by
        intro digit member
        rcases List.mem_append.mp member with inWhole | inFraction
        · exact isDigit_of_mem_whole isWhole digit inWhole
        · exact isDigit_of_mem_fraction isFraction digit inFraction
      have read := Binary64.ofDecimal_eq negative nonzero allDigits digitsValue held small
      rw [← scale] at read
      apply Scalar.number (.parts isSign isWhole isFraction isExponent)
      rw [← read]
      exact .double notWhole

theorem number_write (negative : Bool) (magnitude : Magnitude) :
    Scalar (Binary64.finite negative magnitude).write
      (.float (.finite negative magnitude)) := by
  obtain ⟨sign, isSign, written⟩ := sign_write negative magnitude
  rw [written]
  by_cases zero : magnitude.rank = 0
  · obtain ⟨rank, finite⟩ := magnitude
    cases zero
    apply Scalar.number (.parts isSign .zero (.present digits_zero) .absent)
    exact .double (Or.inl digits_zero.nonempty)
  · rw [Magnitude.write, if_neg zero]
    exact float_of_spells (spells_writeDecimal (shortest_digits_ne_zero zero) _) isSign zero
      (Magnitude.readsBack_shortest zero) (Magnitude.shortest_exponent_le zero)

end Json

end PalletTypes
