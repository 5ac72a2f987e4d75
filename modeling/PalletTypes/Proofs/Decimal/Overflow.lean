import PalletTypes.Proofs.Decimal.Shortest

/-!
Which decimals are beyond all doubles. Every quotient has a nearest rank, and a quotient
reaches an even rank from the midpoint before it on; the first rank that is not finite is
even.
-/

namespace PalletTypes

theorem exists_encloses (numerator : Nat) {denominator : Nat} (positive : 0 < denominator) :
    ∃ rank, Encloses rank numerator denominator := by
  have reached : ∃ rank,
      2 * numerator ≤ (unitsOfRank rank + unitsOfRank (rank + 1)) * denominator := by
    have beyond : 2 * numerator ≤ unitsOfRank (2 * numerator) :=
      unitsOfRank_strictMono.le_apply
    exact ⟨2 * numerator, Nat.le_trans (by omega) (Nat.le_mul_of_pos_right _ positive)⟩
  -- The first rank whose upper midpoint is not passed; on that midpoint, the even one.
  obtain ⟨rank, high, first⟩ : ∃ rank,
      2 * numerator ≤ (unitsOfRank rank + unitsOfRank (rank + 1)) * denominator ∧
        ∀ lower < rank,
          (unitsOfRank lower + unitsOfRank (lower + 1)) * denominator < 2 * numerator :=
    ⟨Nat.find reached, Nat.find_spec reached, fun lower before =>
      Nat.lt_of_not_le (Nat.find_min reached before)⟩
  have low : rank ≠ 0 →
      (unitsOfRank (rank - 1) + unitsOfRank rank) * denominator < 2 * numerator := by
    intro nonzero
    have before := first (rank - 1) (by omega)
    rwa [Nat.sub_add_cancel (by omega)] at before
  by_cases tie : rank % 2 = 1 ∧
      2 * numerator = (unitsOfRank rank + unitsOfRank (rank + 1)) * denominator
  · refine ⟨rank + 1, Nat.le_of_eq tie.2.symm, ?_, fun isOdd => absurd isOdd (by omega)⟩
    rw [tie.2]
    refine Nat.mul_le_mul_right denominator ?_
    have here := unitsOfRank_lt_succ rank
    have next := unitsOfRank_lt_succ (rank + 1)
    omega
  · refine ⟨rank, ?_, high, fun isOdd => ⟨Nat.ne_of_lt (low (by omega)), fun same =>
      tie ⟨isOdd, same⟩⟩⟩
    by_cases zero : rank = 0
    · rw [zero]
      exact Nat.le_trans (Nat.le_of_eq (Nat.zero_mul denominator)) (Nat.zero_le _)
    · exact Nat.le_of_lt (low zero)

theorem encloses_nearestRank (numerator : Nat) {denominator : Nat}
    (positive : 0 < denominator) :
    Encloses (nearestRank numerator denominator) numerator denominator := by
  obtain ⟨rank, encloses⟩ := exists_encloses numerator positive
  rwa [nearestRank_eq positive encloses]

theorem le_nearestRank_iff {bound numerator denominator : Nat} (positive : 0 < denominator)
    (even : bound % 2 = 0) :
    bound ≤ nearestRank numerator denominator ↔
      (unitsOfRank (bound - 1) + unitsOfRank bound) * denominator ≤ 2 * numerator := by
  have encloses := encloses_nearestRank numerator positive
  generalize nearestRank numerator denominator = rank at encloses ⊢
  have monotone {low high : Nat} (below : low ≤ high) : unitsOfRank low ≤ unitsOfRank high :=
    unitsOfRank_strictMono.monotone below
  constructor
  · intro reaches
    refine Nat.le_trans (Nat.mul_le_mul_right denominator ?_) encloses.low
    exact Nat.add_le_add (monotone (by omega)) (monotone reaches)
  · intro passed
    by_contra before
    have sum : unitsOfRank rank + unitsOfRank (rank + 1) ≤
        unitsOfRank (bound - 1) + unitsOfRank bound :=
      Nat.add_le_add (monotone (by omega)) (monotone (by omega))
    have onMidpoint :
        2 * numerator = (unitsOfRank rank + unitsOfRank (rank + 1)) * denominator :=
      Nat.le_antisymm encloses.high
        (Nat.le_trans (Nat.mul_le_mul_right denominator sum) passed)
    have sameSum : unitsOfRank (bound - 1) + unitsOfRank bound ≤
        unitsOfRank rank + unitsOfRank (rank + 1) := by
      rw [onMidpoint] at passed
      exact Nat.le_of_mul_le_mul_right passed positive
    -- So the rank is the odd one before the bound, which no midpoint rounds to.
    have isPrevious : rank = bound - 1 := by
      by_contra lower
      have less : unitsOfRank rank < unitsOfRank (bound - 1) :=
        unitsOfRank_strictMono (by omega)
      have atMost : unitsOfRank (rank + 1) ≤ unitsOfRank bound := monotone (by omega)
      omega
    exact (encloses.odd (by omega)).2 onMidpoint

/-- The midpoint between the largest double and 2¹⁰²⁴. -/
def overflowBound : Nat := (2 ^ 54 - 1) * 2 ^ 970

theorem units_overflow :
    unitsOfRank (2047 * 2 ^ 52 - 1) + unitsOfRank (2047 * 2 ^ 52) =
      (2 ^ 54 - 1) * 2 ^ 2045 := by
  have largest : 2047 * 2 ^ 52 - 1 = (2 ^ 53 - 1) + 2045 * 2 ^ 52 := by omega
  have beyond : 2047 * 2 ^ 52 = 2 ^ 53 + 2045 * 2 ^ 52 := by omega
  rw [largest, beyond, unitsOfRank_binade (.inr (by omega)) (by omega),
    unitsOfRank_binade (.inr (by omega)) (Nat.le_refl _), ← Nat.add_mul]
  exact congrArg (· * 2 ^ 2045) (by omega)

namespace Binary64

/-- The decimal is no nearer to the largest double than to 2¹⁰²⁴. -/
def Overflows (number : Nat) (exponent : Int) : Prop :=
  overflowBound * 10 ^ (-exponent).toNat ≤ number * 10 ^ exponent.toNat

theorem infinite_rank_iff {number denominator places : Nat} (positive : 0 < denominator)
    (unit : places = 1074) :
    2047 * Nat.pow 2 52 ≤ nearestRank (number * Nat.pow 2 places) denominator ↔
      overflowBound * denominator ≤ number := by
  have powers : 2 ^ 2045 = 2 ^ 970 * (2 * 2 ^ places) := by
    rw [← pow_succ', ← pow_add, unit]
  simp only [Nat.pow_eq]
  rw [le_nearestRank_iff positive (by omega), units_overflow, overflowBound, powers]
  have some : 0 < 2 * 2 ^ places := by positivity
  generalize 2 ^ places = half at some ⊢
  generalize (2 : Nat) ^ 970 = scale
  have left : (2 ^ 54 - 1) * (scale * (2 * half)) * denominator =
      (2 ^ 54 - 1) * scale * denominator * (2 * half) := by ring
  have right : 2 * (number * half) = number * (2 * half) := by ring
  rw [left, right]
  exact Nat.mul_le_mul_right_iff some

theorem ofRank_overflow (negative : Bool) {rank : Nat} {overflows : Prop}
    (reaches : 2047 * Nat.pow 2 52 ≤ rank ↔ overflows) :
    (overflows → ofRank negative rank = infinite negative) ∧
      (¬ overflows → (ofRank negative rank).nonFinite? = none) := by
  unfold ofRank
  split
  · rename_i finite
    exact ⟨fun held => absurd (reaches.mpr held) (Nat.not_le.mpr finite), fun _ => rfl⟩
  · rename_i beyond
    exact ⟨fun _ => rfl, fun fits => absurd (reaches.mp (Nat.not_lt.mp beyond)) fits⟩

theorem not_overflows_of_small {number length : Nat} {exponent : Int}
    (bound : number < 10 ^ length) (small : exponent + length ≤ 0) :
    ¬ Overflows number exponent := by
  intro overflows
  have noPower : exponent.toNat = 0 := by omega
  have more : 10 ^ length ≤ 10 ^ (-exponent).toNat :=
    Nat.pow_le_pow_right (by decide) (by omega)
  have positive : 0 < overflowBound := by
    rw [overflowBound]
    positivity
  rw [Overflows, noPower, pow_zero, Nat.mul_one] at overflows
  have atLeast := Nat.le_mul_of_pos_left (10 ^ (-exponent).toNat) positive
  omega

theorem overflowBound_le : overflowBound ≤ (10 ^ 62) ^ 5 :=
  calc overflowBound
    _ ≤ 2 ^ 55 * 2 ^ 970 := Nat.mul_le_mul_right _ (by omega)
    _ = (2 ^ 205) ^ 5 := by rw [← pow_add, ← pow_mul]
    _ ≤ (10 ^ 62) ^ 5 := Nat.pow_le_pow_left (by norm_num) 5

theorem overflows_of_large {number : Nat} {exponent : Int} (nonzero : number ≠ 0)
    (large : 309 < exponent) : Overflows number exponent := by
  have noScale : (-exponent).toNat = 0 := by omega
  have split : (10 ^ 62) ^ 5 * 10 ^ (exponent.toNat - 62 * 5) = 10 ^ exponent.toNat := by
    rw [← pow_mul, ← pow_add]
    exact congrArg (10 ^ ·) (by omega)
  rw [Overflows, noScale, pow_zero, Nat.mul_one]
  calc overflowBound
    _ ≤ (10 ^ 62) ^ 5 := overflowBound_le
    _ ≤ (10 ^ 62) ^ 5 * 10 ^ (exponent.toNat - 62 * 5) :=
      Nat.le_mul_of_pos_right _ (Nat.pow_pos (by decide))
    _ = 10 ^ exponent.toNat := split
    _ ≤ number * 10 ^ exponent.toNat :=
      Nat.le_mul_of_pos_left _ (Nat.pos_of_ne_zero nonzero)

theorem not_overflows_zero (exponent : Int) : ¬ Overflows 0 exponent := by
  have positive : 0 < overflowBound * 10 ^ (-exponent).toNat := by
    rw [overflowBound]
    positivity
  rw [Overflows, Nat.zero_mul]
  exact Nat.not_le.mpr positive

/-- A decimal that overflows is read as infinite, any other as a finite double. -/
theorem ofDecimal_overflow {digits : List Char} (negative : Bool) (exponent : Int)
    (allDigits : ∀ digit ∈ digits, digit.isDigit) :
    (Overflows (Decimal.ofDigits digits) exponent →
        ofDecimal negative digits exponent = infinite negative) ∧
      (¬ Overflows (Decimal.ofDigits digits) exponent →
        (ofDecimal negative digits exponent).nonFinite? = none) := by
  fun_cases ofDecimal negative digits exponent with
  | case1 number vanishes =>
      have fits : ¬ Overflows (Decimal.ofDigits digits) exponent := by
        rcases vanishes with isZero | small
        · rw [show Decimal.ofDigits digits = 0 from isZero]
          exact not_overflows_zero exponent
        · exact not_overflows_of_small (Decimal.ofDigits_lt allDigits) (by omega)
      exact ⟨fun overflows => absurd overflows fits, fun _ => rfl⟩
  | case2 number counts large =>
      have nonzero : Decimal.ofDigits digits ≠ 0 := fun isZero => counts (.inl isZero)
      exact ⟨fun _ => rfl, fun fits => absurd (overflows_of_large nonzero large) fits⟩
  | case3 number =>
      have positive : 0 < Nat.pow 10 (-exponent).toNat := Nat.pow_pos (by decide)
      generalize unit : 1074 = places
      exact ofRank_overflow negative (infinite_rank_iff positive unit.symm)

end Binary64

end PalletTypes
