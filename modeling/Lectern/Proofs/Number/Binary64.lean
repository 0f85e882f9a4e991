import Mathlib.Algebra.Order.Field.Power
import Mathlib.Data.Rat.Floor
import Mathlib.Tactic.FieldSimp
import Mathlib.Tactic.GCongr
import Mathlib.Tactic.Linarith
import Mathlib.Tactic.NormNum
import Mathlib.Tactic.Positivity
import Mathlib.Tactic.Ring
import Lectern.Number.Binary64

/-!
# Laws of rounding to binary64

Rounding keeps the order of nonnegative numbers (`round_mono`), leaves binary64 numbers as they are
(`IsBinary64.round_eq`), always gives one (`isBinary64_round`), and changes a number that is not
tiny by at most one part in `2 ^ 53` (`abs_round_sub_le`). All of it rests on where the last bit of
a number stands: `exponent_spec` bounds a number by the powers of two around it.
-/

namespace Lectern.Binary64

/-- A nonnegative number with at most 53 significant bits and none below the last subnormal bit. -/
def IsBinary64 (q : ℚ) : Prop :=
  ∃ (digits : ℕ) (last : ℤ), digits < 2 ^ 53 ∧ -1074 ≤ last ∧ q = digits * (2 : ℚ) ^ last

/-! ## The nearest integer -/

/-- The nearest integer is at most one half away. -/
theorem abs_roundHalfEven_sub_le (q : ℚ) : |(roundHalfEven q : ℚ) - q| ≤ 1 / 2 := by
  have low : (q.floor : ℚ) ≤ q := Int.floor_le q
  have high : q < q.floor + 1 := Int.lt_floor_add_one q
  rw [roundHalfEven, abs_le]
  split_ifs <;> push_cast <;> constructor <;> linarith

/-- Where two results were in the wrong order, both numbers would be in the middle between them. -/
theorem roundHalfEven_mono {p q : ℚ} (atMost : p ≤ q) : roundHalfEven p ≤ roundHalfEven q := by
  by_contra above
  have apart : (roundHalfEven q : ℚ) + 1 ≤ roundHalfEven p := by exact_mod_cast not_le.mp above
  have nearP := abs_le.mp (abs_roundHalfEven_sub_le p)
  have nearQ := abs_le.mp (abs_roundHalfEven_sub_le q)
  have same : p = q := by linarith
  exact above (same ▸ le_refl _)

theorem roundHalfEven_intCast (n : ℤ) : roundHalfEven n = n := by
  have near := abs_roundHalfEven_sub_le n
  have small : |((roundHalfEven n - n : ℤ) : ℚ)| < 1 := by
    push_cast
    linarith
  have none : roundHalfEven n - n = 0 := Int.abs_lt_one_iff.mp (by exact_mod_cast small)
  omega

/-! ## The place of the last bit -/

/-- The powers of two around a quotient, by the lengths of its parts. -/
theorem quotient_bounds {n d : ℕ} (numerator : 0 < n) (denominator : 0 < d) :
    (2 : ℚ) ^ ((n.log2 : ℤ) - d.log2 - 1) ≤ (n : ℚ) / d ∧
      (n : ℚ) / d < (2 : ℚ) ^ ((n.log2 : ℤ) - d.log2 + 1) := by
  have lowN : (2 : ℚ) ^ n.log2 ≤ n := by exact_mod_cast Nat.log2_self_le numerator.ne'
  have highN : (n : ℚ) < 2 ^ (n.log2 + 1) := by exact_mod_cast Nat.lt_log2_self
  have lowD : (2 : ℚ) ^ d.log2 ≤ d := by exact_mod_cast Nat.log2_self_le denominator.ne'
  have highD : (d : ℚ) < 2 ^ (d.log2 + 1) := by exact_mod_cast Nat.lt_log2_self
  have positive : (0 : ℚ) < d := by exact_mod_cast denominator
  constructor
  · rw [le_div_iff₀ positive]
    calc (2 : ℚ) ^ ((n.log2 : ℤ) - d.log2 - 1) * d
        ≤ 2 ^ ((n.log2 : ℤ) - d.log2 - 1) * 2 ^ (d.log2 + 1) := by gcongr
      _ = 2 ^ n.log2 := by
          rw [← zpow_natCast, ← zpow_add₀ two_ne_zero, ← zpow_natCast]
          congr 1
          push_cast
          ring
      _ ≤ n := lowN
  · rw [div_lt_iff₀ positive]
    calc (n : ℚ) < 2 ^ (n.log2 + 1) := highN
      _ = 2 ^ ((n.log2 : ℤ) - d.log2 + 1) * 2 ^ d.log2 := by
          rw [← zpow_natCast, ← zpow_natCast, ← zpow_add₀ two_ne_zero]
          congr 1
          push_cast
          ring
      _ ≤ 2 ^ ((n.log2 : ℤ) - d.log2 + 1) * d := by gcongr

/-- A positive number is at or above the power of two of its exponent, and below the next one. -/
theorem exponent_spec {q : ℚ} (positive : 0 < q) :
    (2 : ℚ) ^ exponent q ≤ q ∧ q < (2 : ℚ) ^ (exponent q + 1) := by
  have numerator : 0 < q.num.natAbs := Int.natAbs_pos.mpr (Rat.num_pos.mpr positive).ne'
  have quotient : (q.num.natAbs : ℚ) / q.den = q := by
    have cast : (q.num.natAbs : ℚ) = (q.num : ℚ) := by
      rw [Nat.cast_natAbs, abs_of_pos (Rat.num_pos.mpr positive)]
    rw [cast, Rat.num_div_den]
  have bounds := quotient_bounds numerator q.den_pos
  rw [quotient] at bounds
  rw [exponent]
  split_ifs with reached
  · exact ⟨reached, bounds.2⟩
  · refine ⟨bounds.1, ?_⟩
    rw [sub_add_cancel]
    exact not_le.mp reached

theorem exponent_lt_of_lt {q : ℚ} (positive : 0 < q) {e : ℤ} (below : q < (2 : ℚ) ^ e) :
    exponent q < e :=
  (zpow_lt_zpow_iff_right₀ one_lt_two).mp ((exponent_spec positive).1.trans_lt below)

theorem le_exponent_of_le {q : ℚ} (positive : 0 < q) {e : ℤ} (above : (2 : ℚ) ^ e ≤ q) :
    e ≤ exponent q := by
  have next := (zpow_lt_zpow_iff_right₀ one_lt_two).mp (above.trans_lt (exponent_spec positive).2)
  omega

/-- A number has at most 53 bits in front of and at its last one. -/
theorem div_lastBit_lt {q : ℚ} (positive : 0 < q) : q / (2 : ℚ) ^ lastBit q < 2 ^ 53 := by
  rw [div_lt_iff₀ (by positivity)]
  calc q < (2 : ℚ) ^ (exponent q + 1) := (exponent_spec positive).2
    _ ≤ (2 : ℚ) ^ (53 + lastBit q) := by
        apply zpow_le_zpow_right₀ one_le_two
        have atLeast : exponent q - 52 ≤ lastBit q := le_max_left ..
        omega
    _ = 2 ^ 53 * (2 : ℚ) ^ lastBit q := by rw [zpow_add₀ two_ne_zero]; norm_num

/-! ## Rounding -/

theorem round_zero : round 0 = 0 := if_pos rfl

theorem round_of_pos {q : ℚ} (positive : 0 < q) :
    round q = roundHalfEven (q / (2 : ℚ) ^ lastBit q) * (2 : ℚ) ^ lastBit q := by
  rw [round, if_neg positive.ne']

/-- The digits of a rounded number; a carry may make them `2 ^ 53`. -/
theorem exists_digits {q : ℚ} (positive : 0 < q) :
    ∃ digits : ℕ, digits ≤ 2 ^ 53 ∧
      roundHalfEven (q / (2 : ℚ) ^ lastBit q) = digits ∧
      round q = digits * (2 : ℚ) ^ lastBit q := by
  have low : ((0 : ℤ) : ℚ) ≤ q / (2 : ℚ) ^ lastBit q := by
    push_cast
    positivity
  have high : q / (2 : ℚ) ^ lastBit q ≤ ((2 ^ 53 : ℤ) : ℚ) := by
    push_cast
    exact (div_lastBit_lt positive).le
  have nonnegative := roundHalfEven_mono low
  have bound := roundHalfEven_mono high
  rw [roundHalfEven_intCast] at nonnegative bound
  obtain ⟨digits, isDigits⟩ := Int.eq_ofNat_of_zero_le nonnegative
  refine ⟨digits, by omega, isDigits, ?_⟩
  rw [round_of_pos positive, isDigits, Int.cast_natCast]

theorem round_nonneg {q : ℚ} (nonnegative : 0 ≤ q) : 0 ≤ round q := by
  rcases nonnegative.eq_or_lt with rfl | positive
  · rw [round_zero]
  · obtain ⟨digits, -, -, rounded⟩ := exists_digits positive
    rw [rounded]
    positivity

/-- A number whose digits fit keeps them. -/
theorem IsBinary64.round_eq {q : ℚ} (isBinary64 : IsBinary64 q) : round q = q := by
  obtain ⟨digits, last, fits, bound, rfl⟩ := isBinary64
  rcases Nat.eq_zero_or_pos digits with rfl | some
  · simp [round_zero]
  have positive : 0 < (digits : ℚ) * (2 : ℚ) ^ last := by positivity
  have coarse : lastBit (digits * (2 : ℚ) ^ last) ≤ last := by
    have below : (digits : ℚ) * (2 : ℚ) ^ last < (2 : ℚ) ^ (53 + last) := by
      rw [zpow_add₀ two_ne_zero]
      gcongr
      exact_mod_cast fits
    have exponentBelow := exponent_lt_of_lt positive below
    exact max_le (by omega) bound
  obtain ⟨shift, isShift⟩ := Int.eq_ofNat_of_zero_le (sub_nonneg.mpr coarse)
  have whole : (digits : ℚ) * (2 : ℚ) ^ last / (2 : ℚ) ^ lastBit (digits * (2 : ℚ) ^ last) =
      ((digits * 2 ^ shift : ℤ) : ℚ) := by
    rw [mul_div_assoc, ← zpow_sub₀ two_ne_zero, isShift]
    push_cast
    rfl
  rw [round_of_pos positive, whole, roundHalfEven_intCast, ← whole,
    div_mul_cancel₀ _ (by positivity)]

/-- Rounding gives a binary64 number. -/
theorem isBinary64_round {q : ℚ} (nonnegative : 0 ≤ q) : IsBinary64 (round q) := by
  rcases nonnegative.eq_or_lt with rfl | positive
  · exact ⟨0, 0, by norm_num, by norm_num, by simp [round_zero]⟩
  obtain ⟨digits, bound, -, rounded⟩ := exists_digits positive
  have notFiner : -1074 ≤ lastBit q := le_max_right ..
  rcases bound.lt_or_eq with fits | rfl
  · exact ⟨digits, lastBit q, fits, notFiner, rounded⟩
  · refine ⟨2 ^ 52, lastBit q + 1, by norm_num, by omega, ?_⟩
    rw [rounded, zpow_add_one₀ two_ne_zero]
    push_cast
    ring

/-- Numbers with different last bits are rounded to different sides of the power of two where the
place of the last bit changes. -/
theorem round_mono {p q : ℚ} (nonnegative : 0 ≤ p) (atMost : p ≤ q) : round p ≤ round q := by
  rcases nonnegative.eq_or_lt with rfl | positive
  · rw [round_zero]
    exact round_nonneg atMost
  have positiveQ : 0 < q := positive.trans_le atMost
  have exponents : exponent p ≤ exponent q :=
    le_exponent_of_le positiveQ ((exponent_spec positive).1.trans atMost)
  have places : lastBit p ≤ lastBit q := max_le_max (by omega) (le_refl _)
  rcases places.eq_or_lt with same | below
  · have digits : roundHalfEven (p / (2 : ℚ) ^ lastBit q) ≤
        roundHalfEven (q / (2 : ℚ) ^ lastBit q) := by
      apply roundHalfEven_mono
      gcongr
    rw [round_of_pos positive, round_of_pos positiveQ, same]
    gcongr
  · obtain ⟨digits, bound, -, rounded⟩ := exists_digits positive
    have notFiner : -1074 ≤ lastBit p := le_max_right ..
    have place : lastBit q = exponent q - 52 := by
      have coarser : lastBit q = max (exponent q - 52) (-1074) := rfl
      omega
    have leading : ((2 ^ 52 : ℤ) : ℚ) ≤ q / (2 : ℚ) ^ lastBit q := by
      rw [le_div_iff₀ (by positivity), place, zpow_sub₀ two_ne_zero]
      push_cast
      have power := (exponent_spec positiveQ).1
      linarith
    have many := roundHalfEven_mono leading
    rw [roundHalfEven_intCast] at many
    calc round p = digits * (2 : ℚ) ^ lastBit p := rounded
      _ ≤ 2 ^ 53 * (2 : ℚ) ^ lastBit p := by
          gcongr
          exact_mod_cast bound
      _ = 2 ^ 52 * (2 : ℚ) ^ (lastBit p + 1) := by
          rw [zpow_add_one₀ two_ne_zero]
          ring
      _ ≤ 2 ^ 52 * (2 : ℚ) ^ lastBit q := by
          gcongr
          · exact one_le_two
          · omega
      _ ≤ roundHalfEven (q / (2 : ℚ) ^ lastBit q) * (2 : ℚ) ^ lastBit q := by
          gcongr
          exact_mod_cast many
      _ = round q := (round_of_pos positiveQ).symm

namespace IsBinary64

variable {q bound : ℚ}

theorem nonneg (isBinary64 : IsBinary64 bound) : 0 ≤ bound := by
  obtain ⟨digits, last, -, -, rfl⟩ := isBinary64
  positivity

/-- A binary64 number that is an upper bound stays one. -/
theorem round_le (isBinary64 : IsBinary64 bound) (nonnegative : 0 ≤ q) (atMost : q ≤ bound) :
    round q ≤ bound :=
  (round_mono nonnegative atMost).trans_eq isBinary64.round_eq

/-- A binary64 number that is a lower bound stays one. -/
theorem le_round (isBinary64 : IsBinary64 bound) (atLeast : bound ≤ q) : bound ≤ round q :=
  isBinary64.round_eq.symm.trans_le (round_mono isBinary64.nonneg atLeast)

theorem natCast {n : ℕ} (fits : n < 2 ^ 53) : IsBinary64 n :=
  ⟨n, 0, fits, by norm_num, by simp⟩

theorem two_zpow {e : ℤ} (notFiner : -1074 ≤ e) : IsBinary64 ((2 : ℚ) ^ e) :=
  ⟨1, e, by norm_num, notFiner, by simp⟩

end IsBinary64

/-- A number that is not below the least normal number changes by at most one part in `2 ^ 53`. -/
theorem abs_round_sub_le {q : ℚ} (normal : (2 : ℚ) ^ (-1022 : ℤ) ≤ q) :
    |round q - q| ≤ q * (2 : ℚ) ^ (-53 : ℤ) := by
  have positive : 0 < q := lt_of_lt_of_le (by positivity) normal
  have place : lastBit q = exponent q - 52 := by
    have atLeast := le_exponent_of_le positive normal
    rw [lastBit]
    omega
  have power : 0 < (2 : ℚ) ^ lastBit q := by positivity
  have scaled : round q - q =
      (roundHalfEven (q / (2 : ℚ) ^ lastBit q) - q / (2 : ℚ) ^ lastBit q)
        * (2 : ℚ) ^ lastBit q := by
    rw [round_of_pos positive, sub_mul, div_mul_cancel₀ _ (by positivity)]
  calc |round q - q|
      = |roundHalfEven (q / (2 : ℚ) ^ lastBit q) - q / (2 : ℚ) ^ lastBit q|
          * (2 : ℚ) ^ lastBit q := by
        rw [scaled, abs_mul, abs_of_pos power]
    _ ≤ 1 / 2 * (2 : ℚ) ^ lastBit q := by
        gcongr
        exact abs_roundHalfEven_sub_le _
    _ = (2 : ℚ) ^ exponent q * (2 : ℚ) ^ (-53 : ℤ) := by
        rw [place, ← zpow_add₀ two_ne_zero, sub_eq_add_neg, zpow_add₀ two_ne_zero,
          zpow_add₀ two_ne_zero]
        norm_num
        ring
    _ ≤ q * (2 : ℚ) ^ (-53 : ℤ) := by
        gcongr
        exact (exponent_spec positive).1

/-- Rounding adds at most one part in `2 ^ 53`. -/
theorem round_le_mul {q : ℚ} (normal : (2 : ℚ) ^ (-1022 : ℤ) ≤ q) :
    round q ≤ q * (1 + (2 : ℚ) ^ (-53 : ℤ)) := by
  have near := (abs_le.mp (abs_round_sub_le normal)).2
  linarith

/-- Rounding takes away at most one part in `2 ^ 53`. -/
theorem mul_le_round {q : ℚ} (normal : (2 : ℚ) ^ (-1022 : ℤ) ≤ q) :
    q * (1 - (2 : ℚ) ^ (-53 : ℤ)) ≤ round q := by
  have near := (abs_le.mp (abs_round_sub_le normal)).1
  linarith

end Lectern.Binary64
