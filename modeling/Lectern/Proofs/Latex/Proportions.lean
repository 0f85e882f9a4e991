import Mathlib.Algebra.Order.Floor.Semifield
import Lectern.Proofs.Latex.Percents

/-!
# Percents follow widths

Each step on the way from a width to its percents keeps the order, so a wider column never gets
less (`percentOf_mono`). The steps are inexact, so the percents may lie on either side of the whole
percents of the exact share: 29 of 100 gets 28. They are never further away than one
(`percentOf_near_floor`), since what is lost or gained in rounding is less than one half.
`percents_proportional` says both of the columns of a slide.
-/

namespace Lectern.Latex

/-! ## One share -/

/-- A wider column has no smaller share. -/
theorem percentOf_mono {total : ℚ} (nonnegative : 0 ≤ total) {width other : ℕ}
    (atMost : width ≤ other) : percentOf total width ≤ percentOf total other := by
  have widths : Binary64.round width ≤ Binary64.round other :=
    Binary64.round_mono (Nat.cast_nonneg width) (by exact_mod_cast atMost)
  have quotient : 0 ≤ Binary64.round width / total :=
    div_nonneg (round_natCast_nonneg width) nonnegative
  have shares : Binary64.round (Binary64.round width / total) ≤
      Binary64.round (Binary64.round other / total) :=
    Binary64.round_mono quotient (by gcongr)
  have product : 0 ≤ Binary64.round (Binary64.round width / total) * 100 :=
    mul_nonneg (Binary64.round_nonneg quotient) (by norm_num)
  have uncut : uncutPercent total width ≤ uncutPercent total other :=
    Binary64.round_mono product (by gcongr)
  rw [percentOf_eq_floor, percentOf_eq_floor]
  exact Nat.floor_mono uncut

/-- Numbers less than one apart are cut to whole numbers at most one apart. -/
theorem abs_floor_sub_floor_le {p q : ℚ} (first : 0 ≤ p) (second : 0 ≤ q) (near : |p - q| < 1) :
    |(⌊p⌋₊ : ℤ) - ⌊q⌋₊| ≤ 1 := by
  obtain ⟨below, above⟩ := abs_lt.mp near
  have lowP := Nat.floor_le first
  have lowQ := Nat.floor_le second
  have highP := Nat.lt_floor_add_one p
  have highQ := Nat.lt_floor_add_one q
  have notMore : (⌊p⌋₊ : ℚ) < (⌊q⌋₊ + 2 : ℕ) := by
    push_cast
    linarith
  have notLess : (⌊q⌋₊ : ℚ) < (⌊p⌋₊ + 2 : ℕ) := by
    push_cast
    linarith
  rw [Nat.cast_lt] at notMore notLess
  rw [abs_le]
  omega

/-- The percents of a share are at most one away from the whole percents of the exact share. -/
theorem percentOf_near_floor {width total : ℕ} (atMost : width ≤ total) (fits : total < 2 ^ 64) :
    |(percentOf (Binary64.round total) width : ℤ) - (100 * width / total : ℕ)| ≤ 1 := by
  have share : (width / total : ℚ) ≤ 1 :=
    div_le_one_of_le₀ (by exact_mod_cast atMost) (Nat.cast_nonneg total)
  obtain ⟨above, below⟩ := uncutPercent_near atMost fits
  have exact : ((100 * width / total : ℕ)) = ⌊100 * (width / total : ℚ)⌋₊ := by
    rw [← Nat.floor_div_eq_div (K := ℚ), Nat.cast_mul, mul_div_assoc, Nat.cast_ofNat]
  rw [percentOf_eq_floor, exact]
  refine abs_floor_sub_floor_le (uncutPercent_nonneg (round_natCast_nonneg total) width)
    (by positivity) ?_
  rw [abs_lt]
  constructor <;> linarith

/-! ## All shares -/

theorem widthTotal_nonneg (widths : List ℕ) : 0 ≤ widthTotal widths := by
  cases widths with
  | nil => exact (by decide +kernel : (0 : ℚ) ≤ widthTotal [])
  | cons width rest =>
    exact (round_natCast_nonneg width).trans (round_le_widthTotal (List.mem_cons_self ..))

/-- The percents of the column at an index. -/
def percentAt (widths : List ℕ) (i : Fin widths.length) : ℕ :=
  have inside : i.val < (percents widths).length := (length_percents widths).symm ▸ i.isLt
  (percents widths)[i.val]

theorem percentAt_of_zero {widths : List ℕ} (zero : widths.sum = 0) (i : Fin widths.length) :
    percentAt widths i = 100 / widths.length := by
  have equal : exactTotal widths = 0 := zero
  simp [percentAt, percents, equal]

theorem percentAt_of_pos {widths : List ℕ} (positive : 0 < widths.sum) (i : Fin widths.length) :
    percentAt widths i = percentOf (widthTotal widths) widths[i] := by
  have unequal : exactTotal widths ≠ 0 := positive.ne'
  simp [percentAt, percents, unequal]

theorem percentAt_mono {widths : List ℕ} {i j : Fin widths.length}
    (atMost : widths[i] ≤ widths[j]) : percentAt widths i ≤ percentAt widths j := by
  rcases Nat.eq_zero_or_pos widths.sum with zero | positive
  · rw [percentAt_of_zero zero, percentAt_of_zero zero]
  · rw [percentAt_of_pos positive, percentAt_of_pos positive]
    exact percentOf_mono (widthTotal_nonneg widths) atMost

theorem percentAt_near_floor {widths : List ℕ} (positive : 0 < widths.sum)
    (fits : widths.sum < 2 ^ 64) (i : Fin widths.length) :
    |(percentAt widths i : ℤ) - (100 * widths[i] / widths.sum : ℕ)| ≤ 1 := by
  have total : widthTotal widths = Binary64.round (widths.sum : ℕ) := if_pos fits
  have atMost : widths[i] ≤ widths.sum := List.le_sum_of_mem (List.getElem_mem i.isLt)
  rw [percentAt_of_pos positive, total]
  exact percentOf_near_floor atMost fits

/-- A wider column gets no smaller percent and columns of one width get the same; where the sum of
the widths is a positive 64-bit number, each percent is at most one away from the whole percents of
the exact share. -/
theorem percents_proportional (widths : List ℕ) :
    (∀ i j : Fin widths.length, widths[i] ≤ widths[j] →
      percentAt widths i ≤ percentAt widths j) ∧
    (0 < widths.sum → widths.sum < 2 ^ 64 → ∀ i : Fin widths.length,
      |(percentAt widths i : ℤ) - (100 * widths[i] / widths.sum : ℕ)| ≤ 1) :=
  ⟨fun _ _ => percentAt_mono, percentAt_near_floor⟩

/-- Columns of one width get one percent less than their exact share. -/
theorem percents_proportional_truncated :
    0 < [29, 42, 29].sum ∧ [29, 42, 29].sum < 2 ^ 64 ∧ percents [29, 42, 29] = [28, 42, 28] ∧
      percentAt [29, 42, 29] ⟨2, by decide⟩ ≤ percentAt [29, 42, 29] ⟨0, by decide⟩ ∧
      |(percentAt [29, 42, 29] ⟨0, by decide⟩ : ℤ) - (100 * 29 / 100 : ℕ)| ≤ 1 := by
  have positive : 0 < [29, 42, 29].sum := by decide
  have fits : [29, 42, 29].sum < 2 ^ 64 := by decide
  have computed : percents [29, 42, 29] = [28, 42, 28] := by decide +kernel
  have ordered := (percents_proportional [29, 42, 29]).1 ⟨2, by decide⟩ ⟨0, by decide⟩ (by decide)
  have near := (percents_proportional [29, 42, 29]).2 positive fits ⟨0, by decide⟩
  exact ⟨positive, fits, computed, ordered, near⟩

end Lectern.Latex
