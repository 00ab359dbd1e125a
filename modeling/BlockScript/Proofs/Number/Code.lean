import BlockScript.Number.Decimal
import Mathlib.Algebra.Group.Nat.Defs

/-!
# The code of a decimal

Which double is nearest to a decimal depends on its value alone and not on how many zeros its
digits end with (`Decimal.code_ten_mul`). The shortest decimal of a finite magnitude reads back
as that magnitude (`code_shortest`): most candidates are tried out before they are taken, and
the exact value, which is the last resort, is its own nearest double.
-/

namespace BlockScript

/-! ## Quotients -/

theorem roundDiv_mul_left {factor : Nat} (positive : 0 < factor) (numerator denominator : Nat) :
    roundDiv (factor * numerator) (factor * denominator) = roundDiv numerator denominator := by
  have twice : 2 * (factor * numerator % (factor * denominator)) =
      factor * (2 * (numerator % denominator)) := by
    rw [Nat.mul_mod_mul_left, Nat.mul_left_comm]
  simp only [roundDiv, twice, Nat.mul_div_mul_left _ _ positive, Nat.mul_lt_mul_left positive]

theorem roundDiv_one (numerator : Nat) : roundDiv numerator 1 = numerator := by
  simp [roundDiv, Nat.mod_one]

theorem mul_shiftLeft (factor value count : Nat) :
    (factor * value) <<< count = factor * value <<< count := by
  rw [Nat.shiftLeft_eq, Nat.shiftLeft_eq, Nat.mul_assoc]

/-- A quotient can be extended without changing what is nearest to it. -/
theorem nearestCode_mul_left {factor : Nat} (positive : 0 < factor) (numerator denominator : Nat) :
    nearestCode (factor * numerator) (factor * denominator) = nearestCode numerator denominator := by
  simp only [nearestCode, mul_shiftLeft, Nat.mul_div_mul_left _ _ positive,
    roundDiv_mul_left positive]

/-! ## Decimals -/

namespace Decimal

theorem length_numerals_ten_mul {digits : Nat} (positive : 0 < digits) :
    (Nat.toDigits 10 (10 * digits)).length = (Nat.toDigits 10 digits).length + 1 := by
  have split := Nat.toDigits_append_toDigits (b := 10) (d := 0) (by decide) positive (by decide)
  rw [Nat.add_zero, Nat.toDigits_zero] at split
  rw [← split, List.length_append]
  rfl

/-- A zero at the end of the digits counts as much as a higher unit. -/
theorem code_ten_mul (digits : Nat) (exponent : Int) :
    code ⟨10 * digits, exponent⟩ = code ⟨digits, exponent + 1⟩ := by
  by_cases zero : digits = 0
  · simp [code, zero]
  have positive : 0 < digits := Nat.pos_of_ne_zero zero
  have nonzero : 10 * digits ≠ 0 := by omega
  have leading : leading ⟨10 * digits, exponent⟩ = leading ⟨digits, exponent + 1⟩ := by
    simp only [Decimal.leading, numerals, length_numerals_ten_mul positive]
    omega
  have nearest : nearestCode (numerator ⟨10 * digits, exponent⟩) (denominator ⟨10 * digits, exponent⟩) =
      nearestCode (numerator ⟨digits, exponent + 1⟩) (denominator ⟨digits, exponent + 1⟩) := by
    simp only [numerator, denominator]
    rcases Int.lt_or_le exponent 0 with below | above
    · have units : exponent.toNat = 0 ∧ (exponent + 1).toNat = 0 := by omega
      have places : (-exponent).toNat = (-(exponent + 1)).toNat + 1 := by omega
      rw [units.1, units.2, places]
      simp only [Nat.pow_eq, Nat.pow_zero, Nat.mul_one, Nat.pow_succ']
      exact nearestCode_mul_left (by decide) _ _
    · have units : (exponent + 1).toNat = exponent.toNat + 1 := by omega
      have places : (-exponent).toNat = 0 ∧ (-(exponent + 1)).toNat = 0 := by omega
      rw [units, places.1, places.2]
      simp only [Nat.pow_eq, Nat.pow_succ', Nat.mul_assoc, Nat.mul_left_comm]
  simp only [code, leading, nearest, zero, nonzero]

theorem code_mul_pow (digits : Nat) (exponent : Int) (zeros : Nat) :
    code ⟨10 ^ zeros * digits, exponent⟩ = code ⟨digits, exponent + zeros⟩ := by
  induction zeros generalizing exponent with
  | zero => simp
  | succ zeros ih =>
    rw [Nat.pow_succ', Nat.mul_assoc, code_ten_mul, ih]
    congr 2
    omega

theorem code_trim (decimal : Decimal) : decimal.trim.code = decimal.code := by
  fun_induction trim decimal with
  | case1 decimal ends ih =>
    have digits : decimal.digits = 10 * (decimal.digits / 10) := by omega
    rw [ih, ← code_ten_mul, ← digits]
  | case2 decimal => rfl

end Decimal

/-! ## The exact value -/

namespace Binary64

variable {code : Nat}

theorem ticks_eq (code : Nat) : ticks code = significand code * 2 ^ scale code := by
  rw [ticks, Nat.shiftLeft_eq]

theorem ticks_of_subnormal (subnormal : code < fractionCount) : ticks code = code := by
  rw [ticks_eq, significand, if_pos subnormal, scale, Nat.div_eq_of_lt subnormal, Nat.zero_sub,
    Nat.pow_zero, Nat.mul_one]

theorem significand_bounds (normal : fractionCount ≤ code) :
    2 ^ 52 ≤ significand code ∧ significand code < 2 ^ 53 := by
  have count : fractionCount = 2 ^ 52 := rfl
  rw [significand, if_neg (Nat.not_lt_of_le normal), count]
  omega

theorem ticks_pos (nonzero : code ≠ 0) : 0 < ticks code := by
  rcases Nat.lt_or_ge code fractionCount with subnormal | normal
  · rw [ticks_of_subnormal subnormal]
    exact Nat.pos_of_ne_zero nonzero
  · obtain ⟨least, -⟩ := significand_bounds normal
    rw [ticks_eq]
    exact Nat.mul_pos (by omega) (Nat.two_pow_pos _)

theorem scale_le (finite : code < infinityCode) : scale code ≤ 2045 := by
  have count : fractionCount = 2 ^ 52 := rfl
  have beyond : infinityCode = 2047 * 2 ^ 52 := rfl
  rw [scale, count]
  omega

theorem ticks_lt {most : Nat} (bounded : scale code ≤ most) : ticks code < 2 ^ 53 * 2 ^ most := by
  have count : fractionCount = 2 ^ 52 := rfl
  rcases Nat.lt_or_ge code fractionCount with subnormal | normal
  · rw [ticks_of_subnormal subnormal]
    calc code < 2 ^ 53 := by omega
      _ ≤ 2 ^ 53 * 2 ^ most := Nat.le_mul_of_pos_right _ (Nat.two_pow_pos _)
  · obtain ⟨-, below⟩ := significand_bounds normal
    calc ticks code = significand code * 2 ^ scale code := ticks_eq code
      _ < 2 ^ 53 * 2 ^ scale code := Nat.mul_lt_mul_of_pos_right below (Nat.two_pow_pos _)
      _ ≤ 2 ^ 53 * 2 ^ most := Nat.mul_le_mul_left _ (Nat.pow_le_pow_right (by decide) bounded)

/-- The code is the significand, counted from the exponent field that `scale` gives. -/
theorem scale_mul_add_significand (normal : fractionCount ≤ code) :
    scale code * fractionCount + significand code = code := by
  have count : fractionCount = 2 ^ 52 := rfl
  rw [scale, significand, if_neg (Nat.not_lt_of_le normal), count]
  rw [count] at normal
  omega

end Binary64

open Binary64

/-- A magnitude is nearest to itself. -/
theorem nearestCode_ticks (code : Nat) : nearestCode (ticks code) (2 ^ tickPower) = code := by
  have whole : ticks code <<< tickPower / 2 ^ tickPower = ticks code := by
    rw [Nat.shiftLeft_eq, Nat.mul_div_cancel _ (Nat.two_pow_pos _)]
  have rounded : ∀ scale, roundDiv (ticks code <<< tickPower) (2 ^ tickPower <<< scale) =
      roundDiv (ticks code) (2 ^ scale) := by
    intro scale
    rw [Nat.shiftLeft_eq, Nat.shiftLeft_eq, Nat.mul_comm _ (2 ^ tickPower),
      roundDiv_mul_left (Nat.two_pow_pos _)]
  simp only [nearestCode, whole, rounded]
  rcases Nat.lt_or_ge code fractionCount with subnormal | normal
  · -- A small magnitude is counted in ticks, and keeps all its bits.
    have scale : Nat.log2 code - 52 = 0 := by
      by_cases zero : code = 0
      · rw [zero]
        rfl
      · have below : Nat.log2 code < 52 := (Nat.log2_lt zero).mpr subnormal
        omega
    rw [ticks_of_subnormal subnormal, scale, Nat.zero_mul, Nat.pow_zero, roundDiv_one, Nat.zero_add]
  · -- A larger one has 53 bits above its scale.
    obtain ⟨least, most⟩ := significand_bounds normal
    have nonzero : ticks code ≠ 0 :=
      Nat.ne_of_gt (ticks_pos (Nat.ne_of_gt (Nat.lt_of_lt_of_le (by decide) normal)))
    have bits : Nat.log2 (ticks code) = 52 + scale code := by
      rw [Nat.log2_eq_iff nonzero, ticks_eq, Nat.add_right_comm, Nat.pow_add, Nat.pow_add]
      exact ⟨Nat.mul_le_mul_right _ least, Nat.mul_lt_mul_of_pos_right most (Nat.two_pow_pos _)⟩
    rw [bits, Nat.add_sub_cancel_left, ticks_eq, Nat.mul_comm (significand code),
      ← Nat.mul_one (2 ^ scale code), Nat.mul_assoc, roundDiv_mul_left (Nat.two_pow_pos _),
      Nat.one_mul, roundDiv_one]
    exact scale_mul_add_significand normal

theorem digits_exactDecimal (code : Nat) :
    (exactDecimal code).digits = 5 ^ tickPower * ticks code := by
  rw [exactDecimal, Nat.pow_eq, Nat.mul_comm]

/-- The exact value lies where its code is computed. -/
theorem leading_exactDecimal {code : Nat} (nonzero : code ≠ 0) (finite : code < infinityCode) :
    -330 ≤ (exactDecimal code).leading ∧ (exactDecimal code).leading ≤ 310 := by
  have many : ¬ (exactDecimal code).numerals.length ≤ 744 := by
    rw [Decimal.numerals, Nat.length_toDigits_le_iff (by decide) (by decide), Nat.not_lt,
      digits_exactDecimal]
    calc 10 ^ 744 ≤ 5 ^ tickPower := by decide +kernel
      _ ≤ 5 ^ tickPower * ticks code := Nat.le_mul_of_pos_right _ (ticks_pos nonzero)
  have few : (exactDecimal code).numerals.length ≤ 1385 := by
    rw [Decimal.numerals, Nat.length_toDigits_le_iff (by decide) (by decide), digits_exactDecimal]
    calc 5 ^ tickPower * ticks code < 5 ^ tickPower * (2 ^ 53 * 2 ^ 2045) :=
          Nat.mul_lt_mul_of_pos_left (ticks_lt (scale_le finite)) (Nat.pow_pos (by decide))
      _ ≤ 10 ^ 1385 := by decide +kernel
  have exponent : (exactDecimal code).exponent = -1074 := rfl
  rw [Decimal.leading, exponent]
  omega

theorem nearestCode_exactDecimal (code : Nat) :
    nearestCode (exactDecimal code).numerator (exactDecimal code).denominator = code := by
  have units : (exactDecimal code).exponent.toNat = 0 := rfl
  have places : (-(exactDecimal code).exponent).toNat = tickPower := rfl
  have ten : ∀ power, 10 ^ power = 5 ^ power * 2 ^ power := Nat.mul_pow 5 2
  rw [Decimal.numerator, Decimal.denominator, units, places, digits_exactDecimal, Nat.pow_eq,
    Nat.pow_eq, Nat.pow_zero, Nat.mul_one, ten, nearestCode_mul_left (Nat.pow_pos (by decide)),
    nearestCode_ticks]

theorem code_exactDecimal {code : Nat} (nonzero : code ≠ 0) (finite : code < infinityCode) :
    (exactDecimal code).code = code := by
  have digits : (exactDecimal code).digits ≠ 0 := by
    rw [digits_exactDecimal]
    exact Nat.ne_of_gt (Nat.mul_pos (Nat.pow_pos (by decide)) (ticks_pos nonzero))
  obtain ⟨least, most⟩ := leading_exactDecimal nonzero finite
  rw [Decimal.code, if_neg (by omega), if_neg (by omega), nearestCode_exactDecimal]
  omega

/-! ## The shortest decimal -/

theorem code_of_neighbour? {tie : Tie} {code : Nat} {power : Int} {decimal : Decimal}
    (found : neighbour? tie code power = some decimal) : decimal.code = code := by
  simpa using List.find?_some found

/-- The shortest decimal of a finite magnitude reads back as this magnitude. -/
theorem code_shortest (tie : Tie) {code : Nat} (finite : code < infinityCode) :
    (shortest tie code).code = code := by
  rw [shortest]
  split
  · rename_i zero
    rw [zero]
    rfl
  · rename_i nonzero
    rw [Decimal.code_trim]
    cases found : (List.range 17).findSome? fun (digits : Nat) =>
        neighbour? tie code (leadingPower (ticks code) - digits) with
    | none => exact code_exactDecimal nonzero finite
    | some decimal =>
      obtain ⟨digits, -, tried⟩ := List.exists_of_findSome?_eq_some found
      exact code_of_neighbour? tried

end BlockScript
