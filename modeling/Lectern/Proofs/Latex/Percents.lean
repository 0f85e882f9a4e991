import Lectern.Proofs.Latex.Columns
import Lectern.Proofs.Number.Binary64

/-!
# Percents of the text width

Every width has a share, no share is more than the whole (`percentOf_le`), and the shares of widths
whose sum is a 64-bit number are together no more than the whole. For the last, rounding changes
each share by a small part of itself only (`uncutPercent_near`), so the sum of the percents is below
101, and it is an integer. `percents_bounded` puts the three together.
-/

namespace Lectern.Latex

open Binary64 (IsBinary64)

/-! ## One share -/

theorem round_natCast_nonneg (n : ℕ) : 0 ≤ Binary64.round n :=
  Binary64.round_nonneg (Nat.cast_nonneg n)

/-- The percents of a share before they are cut to a whole number. -/
def uncutPercent (total : ℚ) (width : ℕ) : ℚ :=
  Binary64.round (Binary64.round (Binary64.round width / total) * 100)

theorem percentOf_eq_floor (total : ℚ) (width : ℕ) :
    percentOf total width = ⌊uncutPercent total width⌋₊ := rfl

theorem uncutPercent_zero (total : ℚ) : uncutPercent total 0 = 0 := by
  simp only [uncutPercent, Nat.cast_zero, Binary64.round_zero, zero_div, zero_mul]

theorem uncutPercent_nonneg {total : ℚ} (nonnegative : 0 ≤ total) (width : ℕ) :
    0 ≤ uncutPercent total width := by
  have quotient : 0 ≤ Binary64.round width / total :=
    div_nonneg (round_natCast_nonneg width) nonnegative
  exact Binary64.round_nonneg (mul_nonneg (Binary64.round_nonneg quotient) (by norm_num))

/-- A share of a total that is not below the rounded width is at most the whole. -/
theorem percentOf_le {total : ℚ} {width : ℕ} (atMost : Binary64.round width ≤ total) :
    percentOf total width ≤ 100 := by
  have one : IsBinary64 (1 : ℕ) := .natCast (by norm_num)
  have hundred : IsBinary64 (100 : ℕ) := .natCast (by norm_num)
  have nonnegative : 0 ≤ total := (round_natCast_nonneg width).trans atMost
  have quotient : 0 ≤ Binary64.round width / total :=
    div_nonneg (round_natCast_nonneg width) nonnegative
  have share : Binary64.round (Binary64.round width / total) ≤ (1 : ℕ) := by
    refine one.round_le quotient ?_
    rw [Nat.cast_one]
    exact div_le_one_of_le₀ atMost nonnegative
  have product : 0 ≤ Binary64.round (Binary64.round width / total) * 100 :=
    mul_nonneg (Binary64.round_nonneg quotient) (by norm_num)
  have percent : uncutPercent total width ≤ (100 : ℕ) := hundred.round_le product (by
    push_cast at share ⊢
    linarith)
  rw [percentOf_eq_floor]
  exact_mod_cast (Nat.floor_le (uncutPercent_nonneg nonnegative width)).trans percent

/-- A number that is not tiny is not below the least normal number. -/
theorem normal_of_le {q : ℚ} (notTiny : (2 : ℚ) ^ (-64 : ℤ) ≤ q) : (2 : ℚ) ^ (-1022 : ℤ) ≤ q :=
  (zpow_le_zpow_right₀ one_le_two (by norm_num)).trans notTiny

/-- The quotient of a rounded width and a rounded total is near the exact one. -/
theorem quotient_near {width total : ℕ} (positive : 0 < width) (atMost : width ≤ total)
    (fits : total < 2 ^ 64) :
    (2 : ℚ) ^ (-64 : ℤ) ≤ Binary64.round width / Binary64.round total ∧
      width * (1 - (2 : ℚ) ^ (-53 : ℤ)) / (total * (1 + (2 : ℚ) ^ (-53 : ℤ))) ≤
        Binary64.round width / Binary64.round total ∧
      Binary64.round width / Binary64.round total ≤
        width * (1 + (2 : ℚ) ^ (-53 : ℤ)) / (total * (1 - (2 : ℚ) ^ (-53 : ℤ))) := by
  have one : IsBinary64 (1 : ℕ) := .natCast (by norm_num)
  have large : IsBinary64 ((2 : ℚ) ^ (64 : ℤ)) := .two_zpow (by norm_num)
  have oneLeWidth : ((1 : ℕ) : ℚ) ≤ width := by exact_mod_cast positive
  have widthLeTotal : (width : ℚ) ≤ total := by exact_mod_cast atMost
  have totalLe : (total : ℚ) ≤ (2 : ℚ) ^ (64 : ℤ) := by exact_mod_cast fits.le
  have roundedWidth := one.le_round oneLeWidth
  have roundedTotal := one.le_round (oneLeWidth.trans widthLeTotal)
  have tinyLeOne : (2 : ℚ) ^ (-64 : ℤ) ≤ (1 : ℕ) := by norm_num
  have normalWidth := normal_of_le (tinyLeOne.trans oneLeWidth)
  have normalTotal := normal_of_le (tinyLeOne.trans (oneLeWidth.trans widthLeTotal))
  have positiveTotal : (0 : ℚ) < total * (1 - (2 : ℚ) ^ (-53 : ℤ)) := by
    rw [Nat.cast_one] at oneLeWidth
    exact mul_pos (by linarith) (by norm_num)
  rw [Nat.cast_one] at roundedWidth roundedTotal
  refine ⟨?_, ?_, ?_⟩
  · have totalBound := large.round_le (Nat.cast_nonneg total) totalLe
    rw [le_div_iff₀ (by linarith)]
    calc (2 : ℚ) ^ (-64 : ℤ) * Binary64.round total
        ≤ (2 : ℚ) ^ (-64 : ℤ) * (2 : ℚ) ^ (64 : ℤ) := by gcongr
      _ = 1 := by norm_num
      _ ≤ Binary64.round width := roundedWidth
  · exact div_le_div₀ (by linarith) (Binary64.mul_le_round normalWidth) (by linarith)
      (Binary64.round_le_mul normalTotal)
  · exact div_le_div₀ (by positivity) (Binary64.round_le_mul normalWidth) positiveTotal
      (Binary64.mul_le_round normalTotal)

/-- The four roundings on the way to a share change it by less than one part in two hundred. -/
theorem uncutPercent_near {width total : ℕ} (atMost : width ≤ total) (fits : total < 2 ^ 64) :
    199 / 2 * (width / total : ℚ) ≤ uncutPercent (Binary64.round total) width ∧
      uncutPercent (Binary64.round total) width ≤ 201 / 2 * (width / total : ℚ) := by
  rcases Nat.eq_zero_or_pos width with rfl | positive
  · simp [uncutPercent_zero]
  obtain ⟨notTiny, above, below⟩ := quotient_near positive atMost fits
  have tiny : IsBinary64 ((2 : ℚ) ^ (-64 : ℤ)) := .two_zpow (by norm_num)
  have quotient := tiny.le_round notTiny
  have quotientAbove := Binary64.mul_le_round (normal_of_le notTiny)
  have quotientBelow := Binary64.round_le_mul (normal_of_le notTiny)
  rw [uncutPercent]
  generalize Binary64.round width / Binary64.round total = ratio at *
  have product : (2 : ℚ) ^ (-64 : ℤ) ≤ Binary64.round ratio * 100 := by
    have positiveTiny : (0 : ℚ) < (2 : ℚ) ^ (-64 : ℤ) := by positivity
    linarith
  have positiveTotal : (0 : ℚ) < total := by exact_mod_cast positive.trans_le atMost
  have shrinks : (0 : ℚ) < 1 - (2 : ℚ) ^ (-53 : ℤ) := by norm_num
  constructor
  · calc 199 / 2 * (width / total : ℚ)
        ≤ 100 * (1 - (2 : ℚ) ^ (-53 : ℤ)) ^ 3 / (1 + (2 : ℚ) ^ (-53 : ℤ)) * (width / total) := by
          refine mul_le_mul_of_nonneg_right ?_ (by positivity)
          norm_num
      _ = width * (1 - (2 : ℚ) ^ (-53 : ℤ)) / (total * (1 + (2 : ℚ) ^ (-53 : ℤ)))
            * (1 - (2 : ℚ) ^ (-53 : ℤ)) * 100 * (1 - (2 : ℚ) ^ (-53 : ℤ)) := by
          field_simp
      _ ≤ Binary64.round ratio * 100 * (1 - (2 : ℚ) ^ (-53 : ℤ)) := by
          gcongr
          exact (mul_le_mul_of_nonneg_right above shrinks.le).trans quotientAbove
      _ ≤ Binary64.round (Binary64.round ratio * 100) :=
          Binary64.mul_le_round (normal_of_le product)
  · calc Binary64.round (Binary64.round ratio * 100)
        ≤ Binary64.round ratio * 100 * (1 + (2 : ℚ) ^ (-53 : ℤ)) :=
          Binary64.round_le_mul (normal_of_le product)
      _ ≤ width * (1 + (2 : ℚ) ^ (-53 : ℤ)) / (total * (1 - (2 : ℚ) ^ (-53 : ℤ)))
            * (1 + (2 : ℚ) ^ (-53 : ℤ)) * 100 * (1 + (2 : ℚ) ^ (-53 : ℤ)) := by
          gcongr
          exact quotientBelow.trans (by gcongr)
      _ = 100 * (1 + (2 : ℚ) ^ (-53 : ℤ)) ^ 3 / (1 - (2 : ℚ) ^ (-53 : ℤ)) * (width / total) := by
          field_simp
      _ ≤ 201 / 2 * (width / total) := by
          refine mul_le_mul_of_nonneg_right ?_ (by positivity)
          norm_num

/-- So the percents are more than those of the exact share by less than one part in two hundred. -/
theorem percentOf_le_share {width total : ℕ} (atMost : width ≤ total) (fits : total < 2 ^ 64) :
    (percentOf (Binary64.round total) width : ℚ) ≤ 201 / 2 * (width / total) := by
  rw [percentOf_eq_floor]
  exact (Nat.floor_le (uncutPercent_nonneg (round_natCast_nonneg total) width)).trans
    (uncutPercent_near atMost fits).2

/-- The shares of widths that are at most a total, together. -/
theorem sum_percentOf_le {widths : List ℕ} {total : ℕ} (atMost : ∀ width ∈ widths, width ≤ total)
    (fits : total < 2 ^ 64) :
    ((widths.map (percentOf (Binary64.round total))).sum : ℚ) ≤
      201 / 2 * (widths.sum / total) := by
  induction widths with
  | nil => simp
  | cons width rest ih =>
    have here := percentOf_le_share (atMost width (by simp)) fits
    have behind := ih fun other member => atMost other (by simp [member])
    rw [List.map_cons, List.sum_cons, List.sum_cons, Nat.cast_add, Nat.cast_add, add_div, mul_add]
    exact add_le_add here behind

/-! ## The total -/

/-- Adding widths with a rounding at every step loses no rounded width. -/
theorem le_roundedTotalFrom {total : ℚ} (isBinary64 : IsBinary64 total) (widths : List ℕ) :
    total ≤ roundedTotalFrom total widths ∧
      ∀ width ∈ widths, Binary64.round width ≤ roundedTotalFrom total widths := by
  induction widths generalizing total with
  | nil => exact ⟨le_refl _, by simp⟩
  | cons width rest ih =>
    have added : 0 ≤ total + Binary64.round width :=
      add_nonneg isBinary64.nonneg (round_natCast_nonneg width)
    obtain ⟨start, behind⟩ := ih (Binary64.isBinary64_round added)
    have keepsTotal := isBinary64.le_round
      (le_add_of_nonneg_right (round_natCast_nonneg width) : total ≤ total + Binary64.round width)
    have keepsWidth := (Binary64.isBinary64_round (Nat.cast_nonneg width)).le_round
      (le_add_of_nonneg_left isBinary64.nonneg : Binary64.round width ≤ _)
    refine ⟨keepsTotal.trans start, ?_⟩
    intro other member
    rcases List.mem_cons.mp member with rfl | inRest
    · exact keepsWidth.trans start
    · exact behind other inRest

/-- The total is not below any rounded width, whether or not the exact sum is a 64-bit number. -/
theorem round_le_widthTotal {widths : List ℕ} {width : ℕ} (member : width ∈ widths) :
    Binary64.round width ≤ widthTotal widths := by
  rw [widthTotal]
  split
  · have atMost : width ≤ exactTotal widths := List.le_sum_of_mem member
    exact Binary64.round_mono (Nat.cast_nonneg width) (by exact_mod_cast atMost)
  · have zero : IsBinary64 (0 : ℕ) := .natCast (by norm_num)
    rw [Nat.cast_zero] at zero
    exact (le_roundedTotalFrom zero widths).2 width member

/-! ## All shares -/

theorem percent_le {widths : List ℕ} {percent : ℕ} (member : percent ∈ percents widths) :
    percent ≤ 100 := by
  rw [percents] at member
  split at member
  · obtain ⟨width, -, rfl⟩ := List.mem_map.mp member
    exact Nat.div_le_self ..
  · obtain ⟨width, inWidths, rfl⟩ := List.mem_map.mp member
    exact percentOf_le (round_le_widthTotal inWidths)

theorem sum_percents_le {widths : List ℕ} (fits : widths.sum < 2 ^ 64) :
    (percents widths).sum ≤ 100 := by
  rw [percents]
  split
  · rw [List.map_const', List.sum_replicate_nat]
    exact Nat.mul_div_le ..
  · rename_i notZero
    have total : widthTotal widths = Binary64.round (widths.sum : ℕ) := if_pos fits
    have positive : (0 : ℚ) < widths.sum := by
      exact_mod_cast Nat.pos_of_ne_zero notZero
    have atMost : ∀ width ∈ widths, width ≤ widths.sum := fun width member =>
      List.le_sum_of_mem member
    have bound := sum_percentOf_le atMost fits
    rw [div_self positive.ne', mul_one, ← total] at bound
    have below : ((widths.map (percentOf (widthTotal widths))).sum : ℚ) < (101 : ℕ) :=
      bound.trans_lt (by norm_num)
    exact Nat.le_of_lt_succ (Nat.cast_lt.mp below)

/-- There is one percent for each width, none is above 100, and together they are not above 100
where the sum of the widths is a 64-bit number. -/
theorem percents_bounded (widths : List ℕ) :
    (percents widths).length = widths.length ∧
      (∀ percent ∈ percents widths, percent ≤ 100) ∧
      (widths.sum < 2 ^ 64 → (percents widths).sum ≤ 100) :=
  ⟨length_percents widths, fun _ => percent_le, sum_percents_le⟩

theorem percents_bounded_huge :
    [2 ^ 63, 29, 2 ^ 63 - 30].sum < 2 ^ 64 ∧ (percents [2 ^ 63, 29, 2 ^ 63 - 30]).sum ≤ 100 := by
  have fits : [2 ^ 63, 29, 2 ^ 63 - 30].sum < 2 ^ 64 := by decide
  exact ⟨fits, (percents_bounded _).2.2 fits⟩

/-- A sum that is no 64-bit number. -/
example : percents [2 ^ 64 - 1, 1] = [100, 0] := by decide +kernel

end Lectern.Latex
