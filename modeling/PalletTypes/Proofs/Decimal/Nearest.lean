import Mathlib.Order.Monotone.Basic
import Mathlib.Tactic.Linarith
import Mathlib.Tactic.Ring
import PalletTypes.Decimal.Binary64

/-!
The rank nearest to a quotient is the one between whose midpoints the quotient
lies, a midpoint itself going to the even rank.
-/

namespace PalletTypes

/-- The quotient lies between the midpoints to the neighbouring ranks, and on one
of them only if the rank is even. -/
structure Encloses (rank numerator denominator : Nat) : Prop where
  low : (unitsOfRank (rank - 1) + unitsOfRank rank) * denominator ≤ 2 * numerator
  high : 2 * numerator ≤ (unitsOfRank rank + unitsOfRank (rank + 1)) * denominator
  odd : rank % 2 = 1 →
    (unitsOfRank (rank - 1) + unitsOfRank rank) * denominator ≠ 2 * numerator ∧
      2 * numerator ≠ (unitsOfRank rank + unitsOfRank (rank + 1)) * denominator

/-- Within one power of two the ranks are evenly spaced, both ends included. -/
theorem unitsOfRank_binade {shift offset : Nat}
    (low : shift = 0 ∨ 2 ^ 52 ≤ offset) (high : offset ≤ 2 ^ 53) :
    unitsOfRank (offset + shift * 2 ^ 52) = offset * 2 ^ shift := by
  simp only [unitsOfRank, Nat.pow_eq]
  by_cases subnormal : offset + shift * 2 ^ 52 < 2 ^ 52
  · have noShift : shift = 0 := by omega
    rw [if_pos subnormal, noShift]
    omega
  · rw [if_neg subnormal]
    by_cases last : offset = 2 ^ 53
    · have quotient : (offset + shift * 2 ^ 52) / 2 ^ 52 - 1 = shift + 1 := by omega
      have remainder : (offset + shift * 2 ^ 52) % 2 ^ 52 = 0 := by omega
      rw [quotient, remainder, last, pow_succ 2 shift]
      ring
    · have quotient : (offset + shift * 2 ^ 52) / 2 ^ 52 - 1 = shift := by omega
      have remainder : 2 ^ 52 + (offset + shift * 2 ^ 52) % 2 ^ 52 = offset := by omega
      rw [quotient, remainder]

theorem unitsOfRank_lt_succ (rank : Nat) : unitsOfRank rank < unitsOfRank (rank + 1) := by
  obtain ⟨shift, offset, split, low, high⟩ : ∃ shift offset,
      rank = offset + shift * 2 ^ 52 ∧ (shift = 0 ∨ 2 ^ 52 ≤ offset) ∧
        offset < 2 ^ 53 :=
    ⟨rank / 2 ^ 52 - 1, rank - (rank / 2 ^ 52 - 1) * 2 ^ 52, by omega, by omega,
      by omega⟩
  have next : rank + 1 = offset + 1 + shift * 2 ^ 52 := by omega
  rw [next, split, unitsOfRank_binade low (Nat.le_of_lt high),
    unitsOfRank_binade (low.imp_right fun bound => by omega) high]
  exact Nat.mul_lt_mul_of_pos_right (Nat.lt_succ_self offset) (Nat.two_pow_pos shift)

theorem unitsOfRank_strictMono : StrictMono unitsOfRank :=
  strictMono_nat_of_lt_succ unitsOfRank_lt_succ

theorem roundQuotient_eq {numerator denominator quotient : Nat}
    (positive : 0 < denominator)
    (low : 2 * quotient * denominator ≤ 2 * numerator + denominator)
    (high : 2 * numerator ≤ (2 * quotient + 1) * denominator)
    (odd : quotient % 2 = 1 →
      2 * quotient * denominator ≠ 2 * numerator + denominator ∧
        2 * numerator ≠ (2 * quotient + 1) * denominator) :
    roundQuotient numerator denominator = quotient := by
  have split : denominator * (numerator / denominator) + numerator % denominator =
      numerator := Nat.div_add_mod numerator denominator
  have less : numerator % denominator < denominator := Nat.mod_lt numerator positive
  unfold roundQuotient
  generalize numerator / denominator = floor at split ⊢
  generalize numerator % denominator = remainder at split less ⊢
  subst split
  have atMost : floor ≤ quotient := by
    by_contra above
    have beyond := Nat.mul_le_mul_left denominator (show quotient + 1 ≤ floor by omega)
    linarith
  have atLeast : quotient ≤ floor + 1 := by
    by_contra below
    have beyond := Nat.mul_le_mul_left denominator
      (show floor + 2 ≤ quotient by omega)
    linarith
  have choice : quotient = floor ∨ quotient = floor + 1 := by omega
  rcases choice with rfl | rfl
  · have half : 2 * remainder ≤ denominator := by linarith
    by_cases under : 2 * remainder < denominator
    · simp only [under, if_true]
    · have exact : 2 * remainder = denominator := by omega
      have even : quotient % 2 = 0 := by
        by_contra isOdd
        exact (odd (by omega)).2 (by linarith)
      simp only [exact, Nat.lt_irrefl, if_false, even, Nat.add_zero]
  · have half : denominator ≤ 2 * remainder := by linarith
    have notUnder : ¬ 2 * remainder < denominator := by omega
    by_cases above : denominator < 2 * remainder
    · simp only [notUnder, above, if_true, if_false]
    · have exact : 2 * remainder = denominator := by omega
      have odd' : floor % 2 = 1 := by
        by_contra isEven
        exact (odd (by omega)).1 (by linarith)
      simp only [exact, Nat.lt_irrefl, if_false, odd']

theorem shift_spec (floor : Nat) :
    (Nat.log2 floor - 52 = 0 ∨ 2 ^ 52 * 2 ^ (Nat.log2 floor - 52) ≤ floor) ∧
      floor < 2 ^ 53 * 2 ^ (Nat.log2 floor - 52) := by
  by_cases small : floor < 2 ^ 53
  · have noShift : Nat.log2 floor - 52 = 0 := by
      by_cases zero : floor = 0
      · rw [zero]
        rfl
      · have bound := (Nat.log2_lt zero).mpr small
        omega
    rw [noShift]
    exact ⟨.inl rfl, by omega⟩
  · have nonzero : floor ≠ 0 := by omega
    have large : 53 ≤ Nat.log2 floor := (Nat.le_log2 nonzero).mpr (by omega)
    have below := Nat.log2_self_le nonzero
    have above := @Nat.lt_log2_self floor
    rw [← pow_add, ← pow_add]
    have sum : 52 + (Nat.log2 floor - 52) = Nat.log2 floor := by omega
    have next : 53 + (Nat.log2 floor - 52) = Nat.log2 floor + 1 := by omega
    rw [sum, next]
    exact ⟨.inr below, above⟩

section Binade

variable {rank offset shift numerator denominator : Nat}

theorem Encloses.le_of_lt_binade (encloses : Encloses rank numerator denominator)
    (above : numerator < 2 ^ 53 * 2 ^ shift * denominator) :
    rank ≤ 2 ^ 53 + shift * 2 ^ 52 := by
  by_contra beyond
  have first : unitsOfRank (2 ^ 53 + shift * 2 ^ 52) ≤ unitsOfRank (rank - 1) :=
    unitsOfRank_strictMono.monotone (by omega)
  have second : unitsOfRank (rank - 1) ≤ unitsOfRank rank :=
    unitsOfRank_strictMono.monotone (by omega)
  rw [unitsOfRank_binade (.inr (by decide)) (Nat.le_refl _)] at first
  have bound := Nat.mul_le_mul_right denominator
    (Nat.add_le_add first (first.trans second))
  have low := encloses.low
  linarith

theorem Encloses.ge_of_binade_le (positive : 0 < denominator)
    (encloses : Encloses rank numerator denominator)
    (below : 2 ^ 52 * 2 ^ shift * denominator ≤ numerator) :
    2 ^ 52 + shift * 2 ^ 52 ≤ rank := by
  by_contra before
  have first : unitsOfRank (rank + 1) ≤ unitsOfRank (2 ^ 52 + shift * 2 ^ 52) :=
    unitsOfRank_strictMono.monotone (by omega)
  have second := unitsOfRank_lt_succ rank
  rw [unitsOfRank_binade (.inr (Nat.le_refl _)) (by decide)] at first
  have sum : unitsOfRank rank + unitsOfRank (rank + 1) + 1 ≤
      2 ^ 52 * 2 ^ shift + 2 ^ 52 * 2 ^ shift := by omega
  have scaled := Nat.mul_le_mul_right denominator sum
  have high := encloses.high
  linarith

theorem Encloses.roundQuotient_eq (positive : 0 < denominator)
    (below : shift = 0 ∨ 2 ^ 52 * 2 ^ shift * denominator ≤ numerator)
    (above : numerator < 2 ^ 53 * 2 ^ shift * denominator)
    (lowOffset : shift = 0 ∨ 2 ^ 52 ≤ offset) (highOffset : offset ≤ 2 ^ 53)
    (encloses : Encloses (offset + shift * 2 ^ 52) numerator denominator) :
    roundQuotient numerator (denominator * 2 ^ shift) = offset := by
  obtain ⟨low, high, odd⟩ := encloses
  have parity : (offset + shift * 2 ^ 52) % 2 = offset % 2 := by omega
  have units := unitsOfRank_binade lowOffset highOffset
  rw [units, parity] at odd
  rw [units] at low high
  have lower : 2 * offset * (denominator * 2 ^ shift) ≤
        2 * numerator + denominator * 2 ^ shift ∧
      (offset % 2 = 1 → 2 * offset * (denominator * 2 ^ shift) ≠
        2 * numerator + denominator * 2 ^ shift) := by
    -- The rank before the first one of a power of two is nearer than one step.
    by_cases first : offset = 2 ^ 52 ∧ shift ≠ 0
    · have start := below.resolve_left first.2
      rw [first.1]
      exact ⟨by linarith, by omega⟩
    · cases offset with
      | zero => exact ⟨by omega, by omega⟩
      | succ before =>
          have previous : unitsOfRank (before + 1 + shift * 2 ^ 52 - 1) =
              before * 2 ^ shift := by
            rw [show before + 1 + shift * 2 ^ 52 - 1 = before + shift * 2 ^ 52 by omega]
            exact unitsOfRank_binade (by omega) (by omega)
          rw [previous] at low odd
          exact ⟨by linarith, fun isOdd same => (odd isOdd).1 (by linarith)⟩
  have upper : 2 * numerator ≤ (2 * offset + 1) * (denominator * 2 ^ shift) ∧
      (offset % 2 = 1 → 2 * numerator ≠
        (2 * offset + 1) * (denominator * 2 ^ shift)) := by
    by_cases last : offset = 2 ^ 53
    · rw [last]
      exact ⟨by linarith, by omega⟩
    · have next : unitsOfRank (offset + shift * 2 ^ 52 + 1) =
          (offset + 1) * 2 ^ shift := by
        rw [show offset + shift * 2 ^ 52 + 1 = offset + 1 + shift * 2 ^ 52 by omega]
        exact unitsOfRank_binade (by omega) (by omega)
      rw [next] at high odd
      exact ⟨by linarith, fun isOdd same => (odd isOdd).2 (by linarith)⟩
  exact PalletTypes.roundQuotient_eq (Nat.mul_pos positive (Nat.two_pow_pos shift))
    lower.1 upper.1 fun isOdd => ⟨lower.2 isOdd, upper.2 isOdd⟩

end Binade

theorem nearestRank_eq {rank numerator denominator : Nat} (positive : 0 < denominator)
    (encloses : Encloses rank numerator denominator) :
    nearestRank numerator denominator = rank := by
  obtain ⟨below, above⟩ := shift_spec (numerator / denominator)
  simp only [nearestRank, Nat.pow_eq]
  generalize Nat.log2 (numerator / denominator) - 52 = shift at below above ⊢
  have belowNumerator : shift = 0 ∨ 2 ^ 52 * 2 ^ shift * denominator ≤ numerator :=
    below.imp_right fun bound => (Nat.le_div_iff_mul_le positive).mp bound
  have aboveNumerator : numerator < 2 ^ 53 * 2 ^ shift * denominator :=
    (Nat.div_lt_iff_lt_mul positive).mp above
  have atMost := encloses.le_of_lt_binade aboveNumerator
  have atLeast : shift = 0 ∨ 2 ^ 52 + shift * 2 ^ 52 ≤ rank :=
    belowNumerator.imp_right (encloses.ge_of_binade_le positive)
  obtain ⟨offset, rfl⟩ : ∃ offset, rank = offset + shift * 2 ^ 52 :=
    ⟨rank - shift * 2 ^ 52, by omega⟩
  rw [encloses.roundQuotient_eq positive belowNumerator aboveNumerator
    (atLeast.imp_right fun _ => by omega) (by omega)]

theorem Encloses.of_eq {rank numerator denominator other otherDenominator : Nat}
    (positive : 0 < denominator)
    (same : numerator * otherDenominator = other * denominator)
    (positiveOther : 0 < otherDenominator)
    (encloses : Encloses rank numerator denominator) :
    Encloses rank other otherDenominator := by
  obtain ⟨low, high, odd⟩ := encloses
  have double : 2 * numerator * otherDenominator = 2 * other * denominator := by
    rw [Nat.mul_assoc, same, Nat.mul_assoc]
  have swap (units : Nat) : units * denominator * otherDenominator =
      units * otherDenominator * denominator := Nat.mul_right_comm _ _ _
  refine ⟨?_, ?_, fun isOdd => ⟨fun atLow => ?_, fun atHigh => ?_⟩⟩
  · refine Nat.le_of_mul_le_mul_right ?_ positive
    rw [← double, ← swap]
    exact Nat.mul_le_mul_right _ low
  · refine Nat.le_of_mul_le_mul_right ?_ positive
    rw [← double, ← swap]
    exact Nat.mul_le_mul_right _ high
  · refine (odd isOdd).1 (Nat.eq_of_mul_eq_mul_right positiveOther ?_)
    rw [swap, atLow, double]
  · refine (odd isOdd).2 (Nat.eq_of_mul_eq_mul_right positiveOther ?_)
    rw [swap, ← atHigh, double]

end PalletTypes
