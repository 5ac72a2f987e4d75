import Mathlib.Algebra.Ring.Nat
import PalletTypes.Decimal.Digits

/-!
Laws of decimal numerals.
-/

namespace PalletTypes.Decimal

theorem ofDigits_eq (digits : List Char) :
    ofDigits digits = Nat.ofDigitChars 10 digits 0 := by
  simp only [ofDigits, Nat.ofDigitChars_eq_foldl, Nat.mul_comm]
  rfl

theorem ofDigits_append (first second : List Char) :
    ofDigits (first ++ second) =
      10 ^ second.length * ofDigits first + ofDigits second := by
  rw [ofDigits_eq, ofDigits_eq, ofDigits_eq, Nat.ofDigitChars_append,
    Nat.ofDigitChars_eq_ofDigitChars_zero]

theorem ofDigits_zeros (count : Nat) : ofDigits (List.replicate count '0') = 0 := by
  rw [ofDigits_eq, Nat.ofDigitChars_replicate_zero, Nat.mul_zero]

theorem ofDigits_zero_cons (digits : List Char) :
    ofDigits ('0' :: digits) = ofDigits digits := by
  have split := ofDigits_append ['0'] digits
  rwa [show ofDigits ['0'] = 0 from rfl, Nat.mul_zero, Nat.zero_add] at split

@[simp] theorem ofDigits_toDigits (number : Nat) : ofDigits (toDigits number) = number := by
  rw [ofDigits_eq]
  exact Nat.ofDigitChars_ten_toDigits

theorem toDigits_ne_nil (number : Nat) : toDigits number ≠ [] :=
  Nat.toDigits_ne_nil

theorem isDigit_of_mem_toDigits {number : Nat} {digit : Char}
    (member : digit ∈ toDigits number) : digit.isDigit :=
  Nat.isDigit_of_mem_toDigits (by decide) (by decide) member

theorem digitValue_lt {digit : Char} (isDigit : digit.isDigit) :
    digit.toNat - 48 < 10 := by
  obtain ⟨_, high⟩ := Char.isDigit_iff_toNat.mp isDigit
  change digit.toNat ≤ 57 at high
  omega

theorem ofDigits_lt {digits : List Char} (allDigits : ∀ digit ∈ digits, digit.isDigit) :
    ofDigits digits < 10 ^ digits.length := by
  induction digits with
  | nil => exact Nat.one_pos
  | cons digit rest induction =>
      have bound := induction fun other member =>
        allDigits other (List.mem_cons_of_mem _ member)
      have small := digitValue_lt (allDigits digit List.mem_cons_self)
      have split := ofDigits_append [digit] rest
      have value : ofDigits [digit] = digit.toNat - 48 := by simp [ofDigits]
      rw [List.singleton_append, value] at split
      rw [split, List.length_cons, Nat.pow_succ]
      calc 10 ^ rest.length * (digit.toNat - 48) + ofDigits rest
        _ < 10 ^ rest.length * (digit.toNat - 48) + 10 ^ rest.length :=
          Nat.add_lt_add_left bound _
        _ = 10 ^ rest.length * (digit.toNat - 48 + 1) := (Nat.mul_succ _ _).symm
        _ ≤ 10 ^ rest.length * 10 := Nat.mul_le_mul_left _ small

theorem length_toDigits_le_iff {number count : Nat} (some : 0 < count) :
    (toDigits number).length ≤ count ↔ number < 10 ^ count :=
  Nat.length_toDigits_le_iff (by decide) some

theorem head?_toDigits_ne {number : Nat} (nonzero : number ≠ 0) :
    (toDigits number).head? ≠ some '0' := by
  intro leading
  cases digits : toDigits number with
  | nil => exact toDigits_ne_nil number digits
  | cons first rest =>
      rw [digits, List.head?_cons, Option.some.injEq] at leading
      have value := ofDigits_toDigits number
      rw [digits, leading, ofDigits_zero_cons] at value
      have allDigits : ∀ digit ∈ rest, digit.isDigit := fun digit member =>
        isDigit_of_mem_toDigits (digits ▸ List.mem_cons_of_mem first member)
      have bound := ofDigits_lt allDigits
      rw [value] at bound
      cases rest with
      | nil =>
          simp only [List.length_nil, Nat.pow_zero] at bound
          omega
      | cons second rest =>
          have short := (length_toDigits_le_iff (Nat.succ_pos rest.length)).mpr bound
          simp only [digits, List.length_cons] at short
          omega

end PalletTypes.Decimal
