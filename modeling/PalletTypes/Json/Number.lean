import PalletTypes.Decimal.Digits
import PalletTypes.Json.Fault
import PalletTypes.Json.Value

/-!
Number literals: a whole part without leading zeros, then a fraction and an
exponent, each only if a digit follows its mark.
-/

namespace PalletTypes.Json

structure NumberLiteral where
  negative : Bool
  whole : List Char
  fraction : List Char
  exponent : Option (Bool × List Char)
deriving DecidableEq

namespace NumberLiteral

def leadingDigits (text : List Char) : List Char :=
  text.takeWhile Char.isDigit

def afterDigits (text : List Char) : List Char :=
  text.dropWhile Char.isDigit

def takeSign : List Char → Bool × List Char
  | '-' :: rest => (true, rest)
  | text => (false, text)

def takeWhole : List Char → List Char × List Char
  | '0' :: rest => (['0'], rest)
  | text => (leadingDigits text, afterDigits text)

def takeFraction : List Char → List Char × List Char
  | '.' :: rest =>
      if leadingDigits rest = [] then ([], '.' :: rest)
      else (leadingDigits rest, afterDigits rest)
  | text => ([], text)

def takeExponentSign : List Char → Bool × List Char
  | '-' :: rest => (true, rest)
  | '+' :: rest => (false, rest)
  | text => (false, text)

def takeExponent : List Char → Option (Bool × List Char) × List Char
  | mark :: rest =>
      let signed := takeExponentSign rest
      if (mark = 'e' ∨ mark = 'E') ∧ leadingDigits signed.2 ≠ [] then
        (some (signed.1, leadingDigits signed.2), afterDigits signed.2)
      else (none, mark :: rest)
  | [] => (none, [])

def take? (text : List Char) : Option (NumberLiteral × List Char) :=
  let sign := takeSign text
  let whole := takeWhole sign.2
  let fraction := takeFraction whole.2
  let exponent := takeExponent fraction.2
  if whole.1 = [] then none
  else some (⟨sign.1, whole.1, fraction.1, exponent.1⟩, exponent.2)

def exponentValue (literal : NumberLiteral) : Int :=
  match literal.exponent with
  | none => 0
  | some (true, digits) => -(Decimal.ofDigits digits : Int)
  | some (false, digits) => Decimal.ofDigits digits

def digitLimit : Nat := 4300

/-- A literal of a whole part alone is a whole number, any other a double. -/
def value (literal : NumberLiteral) : Except Fault Value :=
  match literal.fraction, literal.exponent with
  | [], none =>
      if digitLimit < literal.whole.length then
        .error (.longInteger literal.whole.length)
      else
        let magnitude : Int := Decimal.ofDigits literal.whole
        .ok (.integer (if literal.negative then -magnitude else magnitude))
  | fraction, _ =>
      .ok (.float (.ofDecimal literal.negative (literal.whole ++ fraction)
        (literal.exponentValue - fraction.length)))

/-! Every part of a literal leaves no more than it found, and the whole part
less. -/

theorem afterDigits_length_le (text : List Char) :
    (afterDigits text).length ≤ text.length :=
  (List.dropWhile_sublist Char.isDigit).length_le

theorem takeSign_length_le (text : List Char) :
    (takeSign text).2.length ≤ text.length := by
  fun_cases takeSign text <;> simp

theorem takeWhole_length_lt {text : List Char} (found : (takeWhole text).1 ≠ []) :
    (takeWhole text).2.length < text.length := by
  fun_cases takeWhole text with
  | case1 rest => simp
  | case2 _ =>
      rename_i notZero
      simp only [takeWhole] at found
      have split := congrArg List.length
        (List.takeWhile_append_dropWhile (p := Char.isDigit) (l := text))
      have nonempty := List.length_pos_iff.mpr found
      simp only [List.length_append] at split
      simp only [leadingDigits, afterDigits] at *
      omega

theorem takeFraction_length_le (text : List Char) :
    (takeFraction text).2.length ≤ text.length := by
  fun_cases takeFraction text with
  | case1 => exact Nat.le_refl _
  | case2 rest =>
      have bound := afterDigits_length_le rest
      simp only [List.length_cons]
      omega
  | case3 => exact Nat.le_refl _

theorem takeExponentSign_length_le (text : List Char) :
    (takeExponentSign text).2.length ≤ text.length := by
  fun_cases takeExponentSign text <;> simp

theorem takeExponent_length_le (text : List Char) :
    (takeExponent text).2.length ≤ text.length := by
  fun_cases takeExponent text with
  | case1 mark rest signed _ =>
      have signBound : signed.2.length ≤ rest.length :=
        takeExponentSign_length_le rest
      have bound := afterDigits_length_le signed.2
      simp only [List.length_cons]
      omega
  | case2 => exact Nat.le_refl _
  | case3 => exact Nat.le_refl _

theorem take?_length_lt {text rest : List Char} {literal : NumberLiteral}
    (result : take? text = some (literal, rest)) : rest.length < text.length := by
  simp only [take?] at result
  split at result
  · exact absurd result (by simp)
  · rename_i found
    have signBound := takeSign_length_le text
    have wholeBound := takeWhole_length_lt found
    have fractionBound := takeFraction_length_le (takeWhole (takeSign text).2).2
    have exponentBound := takeExponent_length_le
      (takeFraction (takeWhole (takeSign text).2).2).2
    simp only [Option.some.injEq, Prod.mk.injEq] at result
    rw [← result.2]
    omega

end NumberLiteral

end PalletTypes.Json
