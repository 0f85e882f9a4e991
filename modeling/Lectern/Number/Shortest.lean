import Lectern.Number.Binary64
import Lectern.Text.Basic

/-!
# Shortest decimals

A binary64 number is written with the fewest significant digits that read back as it; of two
such decimals the nearer is taken, and of two equally near ones the one with the even last digit.
Numbers from `10 ^ -5` up to `10 ^ 16` are written with all places and a point, others with one
digit before the point and an exponent with its sign.
-/

namespace Lectern.Shortest

/-- The exponent `k` of a number below one, with `10 ^ k ≤ q < 10 ^ (k + 1)`: the first power of
ten, tried from `10 ^ -tried` down, that is not above the number. -/
def exponentBelowOne (q : Rat) : Nat → Nat → Int
  | 0, tried => -tried
  | more + 1, tried =>
    if 1 ≤ q * (10 : Rat) ^ tried then -tried else exponentBelowOne q more (tried + 1)

/-- The exponent `k` with `10 ^ k ≤ q < 10 ^ (k + 1)`, for a positive binary64 number. -/
def exponent (q : Rat) : Int :=
  if 1 ≤ q then ((Nat.toDigits 10 q.floor.toNat).length : Int) - 1 else exponentBelowOne q 340 1

/-- Whether the upper one of two neighbouring multiples of `step` is the nearer one to `q`; of two
equally near ones it is the even one. -/
def upperNearer (q step : Rat) (low : Nat) : Bool :=
  let middle := (low + 1 / 2) * step
  middle < q || (middle = q && low % 2 = 1)

/-- The nearest multiple of `step` that reads back as `q`, counted in steps. -/
def onGrid? (q step : Rat) : Option Nat :=
  let low := (q / step).floor.toNat
  let readsBack := fun count : Nat => Binary64.round (count * step) = q
  let lowFits := readsBack low
  let highFits := readsBack (low + 1)
  if lowFits && !(highFits && upperNearer q step low) then some low
  else if highFits then some (low + 1)
  else none

/-- The digits and the exponent of the last digit, with at least `places` digits tried. -/
def digitsFrom (q : Rat) : Nat → Nat → Nat × Int
  | 0, _ => (0, 0)
  | more + 1, places =>
    let last := exponent q - places + 1
    match onGrid? q ((10 : Rat) ^ last) with
    | some count => (count, last)
    | none => digitsFrom q more (places + 1)

/-- Digits without the zeros at their end, and the exponent moved by their number. -/
def dropZeros : Nat → Nat × Int → Nat × Int
  | 0, decimal => decimal
  | more + 1, (digits, last) =>
    if digits ≠ 0 ∧ digits % 10 = 0 then dropZeros more (digits / 10, last + 1)
    else (digits, last)

/-- The shortest decimal of a positive binary64 number: digits and exponent of the last one. -/
def decimal (q : Rat) : Nat × Int := dropZeros 20 (digitsFrom q 17 1)

/-- The written form of a nonnegative binary64 number. -/
def write (q : Rat) : Text :=
  if q = 0 then "0.0"
  else
    let (value, last) := decimal q
    let digits := Text.ofNat value
    let leading := last + digits.length - 1
    if 0 ≤ last ∧ leading ≤ 15 then digits ++ List.replicate last.toNat '0' ++ ".0"
    else if 0 ≤ leading ∧ leading ≤ 15 then
      digits.take (leading.toNat + 1) ++ "." ++ digits.drop (leading.toNat + 1)
    else if -5 ≤ leading ∧ leading < 0 then
      "0." ++ List.replicate (-leading - 1).toNat '0' ++ digits
    else
      digits.take 1 ++ (if digits.length = 1 then [] else '.' :: digits.drop 1) ++ "e"
        ++ (if leading < 0 then "-" else "+") ++ Text.ofNat leading.natAbs

end Lectern.Shortest
