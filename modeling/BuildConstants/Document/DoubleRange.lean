/-!
# The range of double precision

Which decimal numbers are too large for a binary floating-point number of 64 bits. A number that is
not an integer is never asked for here, so it needs no exact value; but one out of range has none.
-/

namespace BuildConstants.DoubleRange

/-- From here on, numbers round to infinity. -/
def infinityThreshold : Nat :=
  Nat.pow 2 1024 - Nat.pow 2 970

/-- The greatest power of ten that is in range. -/
def greatestPower : Nat :=
  308

/-- A whole number rounded to 53 binary digits, to the even neighbour in the middle. -/
def round (n : Nat) : Nat :=
  let step := Nat.pow 2 (n.log2 + 1 - 53)
  let below := n / step
  let rest := n % step
  if 2 * rest > step || (2 * rest = step && below % 2 = 1) then (below + 1) * step
  else below * step

/-- A number and a power of ten round to infinity when they are rounded first and then multiplied.
A power of ten that is out of range itself is never in range with a number. -/
def productIsTooLarge (n : Nat) (power : Int) : Bool :=
  n ≠ 0 && power ≥ 0 &&
    (power > greatestPower || round n * round (Nat.pow 10 power.toNat) ≥ infinityThreshold)

/-- The number with some digits and a power of ten rounds to infinity. Unless the number of its
digits and the power are close to the end of the range they decide alone. -/
def isTooLarge (n digitCount : Nat) (power : Int) : Bool :=
  let size := digitCount + power
  n ≠ 0 && size > greatestPower &&
    (size > greatestPower + digitCount + 1 ||
      if power ≥ 0 then n * Nat.pow 10 power.toNat ≥ infinityThreshold
      else n ≥ infinityThreshold * Nat.pow 10 power.natAbs)

end BuildConstants.DoubleRange
