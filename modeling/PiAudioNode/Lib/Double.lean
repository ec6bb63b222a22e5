import Mathlib

/-! Rounding to double precision and to six significant decimal digits, over the rationals. -/
namespace PiAudioNode.Lib

/-- The nearest integer, the even one of two. -/
def roundEven (x : ℚ) : Int :=
  let n := ⌊x⌋
  if 2 * (x - n) < 1 then n
  else if 1 < 2 * (x - n) then n + 1
  else if n % 2 = 0 then n
  else n + 1

/-- The double nearest to a number. What no double reaches becomes the power of
two that stands for infinity. -/
def toDouble (x : ℚ) : ℚ :=
  if x = 0 then 0
  else
    let nExponent := max (Int.log 2 |x| - 52) (-1074)
    let y := roundEven (x / 2 ^ nExponent) * (2 : ℚ) ^ nExponent
    if 2 ^ 1024 ≤ |y| then SignType.sign x * 2 ^ 1024 else y

/-- Stands for what is no number: as little a double as infinity is, and not reached by
rounding. -/
def notANumber : ℚ := 2 ^ 1025

/-- Six significant digits and the decimal exponent of the first. -/
def sixDigits (x : ℚ) : Nat × Int :=
  let nExponent := Int.log 10 x
  let n := (roundEven (x / 10 ^ (nExponent - 5))).toNat
  if n = 1000000 then (100000, nExponent + 1) else (n, nExponent)

end PiAudioNode.Lib
