import Downlink.Binary64.Basic

/-!
# Rounding to binary64

Every operation is the exact result, rounded once to the nearest number, a tie going to the even
magnitude.  The exact result is a quotient of naturals, counted in units of `2 ^ -1074`, so one
function `nearest` serves integers, decimals, products and quotients.
-/

set_option autoImplicit false

namespace Downlink

/-- The integer nearest to `n / d`, ties to the even one. -/
def roundEven (n d : Nat) : Nat :=
  let quotient := n / d
  let twice := 2 * (n % d)
  if twice < d ∨ (twice = d ∧ quotient % 2 = 0) then quotient else quotient + 1

namespace Binary64

/--
The magnitude nearest to `n / d` units.  Steps of `2 ^ shift` units are the ones of the binade of
`n / d`; magnitudes count steps, so the sum is right also when the rounding reaches the next binade.
-/
@[irreducible] def nearest (n d : Nat) : Nat :=
  let shift := (n / d).log2 - 52
  min (shift <<< 52 + roundEven n (d <<< shift)) infinityMagnitude

/-- The number nearest to a natural. -/
def ofNat (n : Nat) : Binary64 := ofMagnitude false (nearest (unitsPerOne * n) 1)

/-- The number nearest to an integer. -/
def ofInt (i : Int) : Binary64 := ofMagnitude (i < 0) (nearest (unitsPerOne * i.natAbs) 1)

/--
The magnitude nearest to `digits * 10 ^ exponent`.  Exponents so large or so small that the answer
is known are answered without the power.
-/
def decimalMagnitude (digits : Nat) (exponent : Int) : Nat :=
  if digits = 0 then 0
  else if 400 < exponent then infinityMagnitude
  else if (digits.log2 : Int) + 1100 < -3 * exponent then 0
  else
    nearest (unitsPerOne * (digits * Nat.pow 10 exponent.toNat)) (Nat.pow 10 (-exponent).toNat)

/-- The number nearest to `± digits * 10 ^ exponent`. -/
def ofDecimal (negative : Bool) (digits : Nat) (exponent : Int) : Binary64 :=
  ofMagnitude negative (decimalMagnitude digits exponent)

/-- The product, rounded once. -/
def mul (x y : Binary64) : Binary64 :=
  let negative := x.isNegative != y.isNegative
  if x.isNaN || y.isNaN then nan false
  else if x.isInfinite || y.isInfinite then
    if x.isZero || y.isZero then nan false else infinity negative
  else ofMagnitude negative (nearest (units x.magnitude * units y.magnitude) unitsPerOne)

/-- The quotient by a positive natural, rounded once. -/
def divNat (x : Binary64) (d : Nat) : Binary64 :=
  if x.isFinite then ofMagnitude x.isNegative (nearest (units x.magnitude) d) else x

/-- The integer part of a nonnegative number, held inside the unsigned 64-bit range. -/
def toUInt64Clamped (x : Binary64) : UInt64 :=
  if x.isNaN || x.isNegative then 0
  else UInt64.ofNat (min (units x.magnitude / unitsPerOne) (UInt64.size - 1))

/-- The nearest integer, halves away from zero, held inside the unsigned 64-bit range. -/
def roundToUInt64Clamped (x : Binary64) : UInt64 :=
  if x.isNaN || x.isNegative then 0
  else
    let rounded := (2 * units x.magnitude + unitsPerOne) / (2 * unitsPerOne)
    UInt64.ofNat (min rounded (UInt64.size - 1))

end Binary64

end Downlink
