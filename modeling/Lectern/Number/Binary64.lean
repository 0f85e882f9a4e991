/-!
# Rounding to binary64

A nonnegative rational is rounded to the nearest number with 53 significant bits, ties to the
even neighbour, and not finer than the smallest subnormal number. The result is again an exact
rational; numbers from `overflow` on have no finite form.
-/

namespace Lectern.Binary64

/-- The integer nearest to a rational, ties to even. -/
def roundHalfEven (q : Rat) : Int :=
  let low := q.floor
  let excess := q - low
  if excess < 1 / 2 then low
  else if 1 / 2 < excess then low + 1
  else if low % 2 = 0 then low
  else low + 1

/-- The exponent `e` with `2 ^ e ≤ q < 2 ^ (e + 1)`, for positive `q`. -/
def exponent (q : Rat) : Int :=
  let guess : Int := (Nat.log2 q.num.natAbs : Int) - (Nat.log2 q.den : Int)
  if (2 : Rat) ^ guess ≤ q then guess else guess - 1

/-- The exponent of the last bit of a number of the size of `q`. -/
def lastBit (q : Rat) : Int := max (exponent q - 52) (-1074)

/-- The nearest binary64 number, ties to even. -/
def round (q : Rat) : Rat :=
  if q = 0 then 0 else roundHalfEven (q / (2 : Rat) ^ lastBit q) * (2 : Rat) ^ lastBit q

/-- The least number that is too large for a finite form. -/
def overflow : Rat := (2 : Rat) ^ (1024 : Int)

end Lectern.Binary64
