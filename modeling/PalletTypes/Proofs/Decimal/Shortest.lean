import PalletTypes.Decimal.Shortest
import PalletTypes.Proofs.Decimal.Digits
import PalletTypes.Proofs.Decimal.Nearest

/-!
The shortest decimal of a double is read as that double again, in whatever way
its digits and its exponent are split.
-/

namespace PalletTypes

namespace Magnitude

variable {magnitude : Magnitude}

theorem two_pow_of_succ {exponent next : Nat} (isNext : next = exponent + 1) :
    2 ^ next = 2 ^ exponent * 2 := by
  rw [isNext, pow_succ]

theorem gridStep_eq (exponent : Int) :
    gridStep exponent = 10 ^ exponent.toNat * (2 ^ 1074 * 2) := by
  have next : 2 ^ 1075 = 2 ^ 1074 * 2 := two_pow_of_succ rfl
  simp only [gridStep, Nat.pow_eq, next]

theorem gridStep_neg (places : Nat) : gridStep (-(places : Int)) = 2 ^ 1074 * 2 := by
  rw [gridStep_eq, Int.toNat_neg_natCast, pow_zero, Nat.one_mul]

theorem gridScale_eq (exponent : Int) : gridScale exponent = 10 ^ (-exponent).toNat :=
  Nat.pow_eq

theorem gridScale_neg (places : Nat) :
    gridScale (-(places : Int)) = 5 ^ places * 2 ^ places := by
  rw [gridScale_eq, Int.neg_neg, Int.toNat_natCast, ← Nat.mul_pow]

theorem gridScale_pos (exponent : Int) : 0 < gridScale exponent :=
  Nat.pow_pos (by decide)

theorem encloses_of_readsBack {exponent : Int} {point : Nat}
    (held : magnitude.readsBack exponent point = true) :
    Encloses magnitude.rank (point * 10 ^ exponent.toNat * 2 ^ 1074)
      (10 ^ (-exponent).toNat) := by
  simp only [readsBack, gridStep_eq, gridScale_eq, units] at held
  generalize 2 ^ 1074 = twos at held ⊢
  have double : 2 * (point * 10 ^ exponent.toNat * twos) =
      point * (10 ^ exponent.toNat * (twos * 2)) := by ring
  split at held
  · rename_i even
    simp only [Bool.and_eq_true, decide_eq_true_eq, ← double] at held
    exact ⟨held.1, held.2, fun isOdd => by omega⟩
  · simp only [Bool.and_eq_true, decide_eq_true_eq, ← double] at held
    exact ⟨Nat.le_of_lt held.1, Nat.le_of_lt held.2,
      fun _ => ⟨Nat.ne_of_lt held.1, Nat.ne_of_lt held.2⟩⟩

theorem readsBack_of_nearestOn? {exponent : Int} {point : Nat}
    (found : magnitude.nearestOn? exponent = some point) :
    magnitude.readsBack exponent point = true := by
  simp only [nearestOn?] at found
  split at found
  · rename_i below above
    split at found
    · exact Option.some.inj found ▸ below
    · exact Option.some.inj found ▸ above
  · rename_i below _
    exact Option.some.inj found ▸ below
  · rename_i _ above
    exact Option.some.inj found ▸ above
  · cases found

theorem readsBack_finest (nonzero : magnitude.rank ≠ 0) :
    magnitude.readsBack (-1074) (magnitude.units * 5 ^ 1074) = true := by
  have below : unitsOfRank (magnitude.rank - 1) < magnitude.units :=
    unitsOfRank_strictMono (by omega)
  have above : magnitude.units < unitsOfRank (magnitude.rank + 1) :=
    unitsOfRank_lt_succ magnitude.rank
  have scale : gridScale (-1074) = 5 ^ 1074 * 2 ^ 1074 := gridScale_neg 1074
  have step : gridStep (-1074) = 2 ^ 1074 * 2 := gridStep_neg 1074
  have positive := gridScale_pos (-1074)
  rw [scale] at positive
  unfold readsBack
  rw [scale, step]
  generalize 5 ^ 1074 = fives at positive ⊢
  generalize 2 ^ 1074 = twos at positive ⊢
  have value : magnitude.units * fives * (twos * 2) =
      (magnitude.units + magnitude.units) * (fives * twos) := by ring
  have low : (unitsOfRank (magnitude.rank - 1) + magnitude.units) * (fives * twos) <
      magnitude.units * fives * (twos * 2) := by
    rw [value]
    exact Nat.mul_lt_mul_of_pos_right (by omega) positive
  have high : magnitude.units * fives * (twos * 2) <
      (magnitude.units + unitsOfRank (magnitude.rank + 1)) * (fives * twos) := by
    rw [value]
    exact Nat.mul_lt_mul_of_pos_right (by omega) positive
  split
  · simp only [Nat.le_of_lt low, Nat.le_of_lt high, decide_true, Bool.and_self]
  · simp only [low, high, decide_true, Bool.and_self]

theorem shortestFrom_spec (nonzero : magnitude.rank ≠ 0) (steps : Nat) :
    magnitude.readsBack (magnitude.shortestFrom steps).exponent
        (magnitude.shortestFrom steps).digits = true ∧
      (magnitude.shortestFrom steps).exponent ≤ steps - 1074 := by
  induction steps with
  | zero =>
      have finest := readsBack_finest nonzero
      simp only [shortestFrom, Nat.pow_eq, finest]
      decide
  | succ steps induction =>
      simp only [shortestFrom]
      split
      · rename_i digits found
        exact ⟨readsBack_of_nearestOn? found, by push_cast; omega⟩
      · exact ⟨induction.1, by push_cast; omega⟩

theorem readsBack_shortest (nonzero : magnitude.rank ≠ 0) :
    magnitude.readsBack magnitude.shortest.exponent magnitude.shortest.digits = true :=
  (shortestFrom_spec nonzero _).1

theorem shortest_exponent_le (nonzero : magnitude.rank ≠ 0) :
    magnitude.shortest.exponent ≤ 308 :=
  (shortestFrom_spec nonzero _).2

end Magnitude

theorem units_pos {rank : Nat} (nonzero : rank ≠ 0) : 0 < unitsOfRank rank :=
  unitsOfRank_strictMono (Nat.pos_of_ne_zero nonzero)

theorem Encloses.least {rank numerator denominator : Nat} (nonzero : rank ≠ 0)
    (encloses : Encloses rank numerator denominator) :
    denominator ≤ 2 * numerator := by
  refine Nat.le_trans ?_ encloses.low
  have units := units_pos nonzero
  exact Nat.le_mul_of_pos_left denominator (by omega)

/-- A decimal with trailing zeros has the value of the one without them. -/
theorem shifted_value (number zeros scale : Nat) (exponent : Int) :
    number * 10 ^ exponent.toNat * scale * 10 ^ (-(exponent - zeros)).toNat =
      number * 10 ^ zeros * 10 ^ (exponent - zeros).toNat * scale *
        10 ^ (-exponent).toNat := by
  have powers : 10 ^ exponent.toNat * 10 ^ (-(exponent - zeros)).toNat =
      10 ^ zeros * 10 ^ (exponent - zeros).toNat * 10 ^ (-exponent).toNat := by
    rw [← pow_add, ← pow_add, ← pow_add]
    congr 1
    omega
  calc number * 10 ^ exponent.toNat * scale * 10 ^ (-(exponent - zeros)).toNat
    _ = number * scale *
        (10 ^ exponent.toNat * 10 ^ (-(exponent - zeros)).toNat) := by ring
    _ = number * scale *
        (10 ^ zeros * 10 ^ (exponent - zeros).toNat * 10 ^ (-exponent).toNat) := by
      rw [powers]
    _ = _ := by ring

theorem two_pow_le_ten_pow {exponent count : Nat} (size : exponent + 1 = 215 * count) :
    2 ^ exponent * 2 ≤ (10 ^ 65) ^ count := by
  rw [← pow_succ, size, pow_mul]
  exact Nat.pow_le_pow_left (by norm_num) count

theorem not_too_small {number length : Nat} {exponent : Int}
    (bound : number < 10 ^ length) (small : exponent + length < -324) :
    2 * (number * 10 ^ exponent.toNat * 2 ^ 1074) < 10 ^ (-exponent).toNat := by
  have noPower : exponent.toNat = 0 := by omega
  have split : 10 ^ (-exponent).toNat =
      10 ^ length * ((10 ^ 65) ^ 5 * 10 ^ ((-exponent).toNat - length - 65 * 5)) := by
    rw [← pow_mul, ← pow_add, ← pow_add]
    exact congrArg (10 ^ ·) (by omega)
  have least : 2 ^ 1074 * 2 ≤ (10 ^ 65) ^ 5 := two_pow_le_ten_pow rfl
  have more : 0 < 10 ^ ((-exponent).toNat - length - 65 * 5) :=
    Nat.pow_pos (by decide)
  rw [noPower, split, pow_zero, Nat.mul_one]
  generalize 10 ^ ((-exponent).toNat - length - 65 * 5) = rest at more ⊢
  generalize 2 ^ 1074 = half at least ⊢
  have positive : 0 < (10 ^ 65) ^ 5 := Nat.pow_pos (by decide)
  generalize (10 ^ 65) ^ 5 = large at least positive ⊢
  calc 2 * (number * half) = number * (half * 2) := by ring
    _ ≤ number * large := Nat.mul_le_mul_left number least
    _ < 10 ^ length * large := Nat.mul_lt_mul_of_pos_right bound positive
    _ ≤ 10 ^ length * (large * rest) :=
      Nat.mul_le_mul_left _ (Nat.le_mul_of_pos_right large more)

namespace Binary64

/-- Digits that end in zeros beyond a decimal that reads back are read as the
magnitude. -/
theorem ofDecimal_eq {magnitude : Magnitude} {digits : List Char} {number zeros : Nat}
    {exponent : Int} (negative : Bool) (nonzero : magnitude.rank ≠ 0)
    (allDigits : ∀ digit ∈ digits, digit.isDigit)
    (value : Decimal.ofDigits digits = number * 10 ^ zeros)
    (held : magnitude.readsBack exponent number = true) (small : exponent ≤ 308) :
    ofDecimal negative digits (exponent - zeros) = .finite negative magnitude := by
  have encloses : Encloses magnitude.rank
      (Decimal.ofDigits digits * 10 ^ (exponent - zeros).toNat * 2 ^ 1074)
      (10 ^ (-(exponent - zeros)).toNat) := by
    have enclosed := Magnitude.encloses_of_readsBack held
    rw [value]
    generalize 2 ^ 1074 = scale at enclosed ⊢
    exact enclosed.of_eq (Nat.pow_pos (by decide))
      (shifted_value number zeros scale exponent) (Nat.pow_pos (by decide))
  have least := encloses.least nonzero
  have rank := nearestRank_eq (Nat.pow_pos (by decide)) encloses
  have notZero : Decimal.ofDigits digits ≠ 0 := by
    intro zero
    have positive : 0 < 10 ^ (-(exponent - zeros)).toNat := Nat.pow_pos (by decide)
    rw [zero, Nat.zero_mul, Nat.zero_mul] at least
    omega
  have notSmall : ¬ exponent - zeros + digits.length < -324 := fun tooSmall =>
    absurd (not_too_small (Decimal.ofDigits_lt allDigits) tooSmall)
      (Nat.not_lt.mpr least)
  have notLarge : ¬ 309 < exponent - zeros := by omega
  simp only [ofDecimal, Nat.pow_eq, notZero, notSmall, notLarge, or_self, if_false, rank,
    ofRank]
  exact dif_pos magnitude.finite

end Binary64

end PalletTypes
