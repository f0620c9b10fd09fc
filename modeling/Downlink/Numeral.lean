import Downlink.Binary64.Shortest

/-!
# Written numbers

A numeral is a number as it is written: a sign, digits, a point among them and perhaps an exponent.
The digits are one natural together with the count of those behind the point, so `30.0` is
`⟨false, 300, 1, none⟩`, and every value of the type can be written and read.

## Layouts

* `Binary64.numeral` is the form used in documents: a point always, an exponent outside the decades
  `10 ^ -5` to `10 ^ 15`.
* `Binary64.plainText` is the form used in messages: no exponent, no needless point.
* `Binary64.fixedText` has a fixed number of places.
-/

set_option autoImplicit false

namespace Downlink

/-- A written number. -/
structure Numeral where
  negative : Bool
  /-- All digits, the point left out. -/
  digits : Nat
  /-- How many of the digits stand behind the point. -/
  places : Nat
  exponent : Option Int
deriving DecidableEq, Repr

/-- The lowest `count` decimal digits of `n`, leading zeros kept. -/
def paddedDigits : (count n : Nat) → List Char
  | 0, _ => []
  | count + 1, n => paddedDigits count (n / 10) ++ [Nat.digitChar (n % 10)]

/-- The sign in front of a number, and the rest; without a sign it is not negative. -/
def splitSign (cs : List Char) : Bool × List Char :=
  match cs with
  | '-' :: rest => (true, rest)
  | '+' :: rest => (false, rest)
  | cs => (false, cs)

namespace Numeral

/-- An integer as a numeral. -/
def ofInt (i : Int) : Numeral := ⟨i < 0, i.natAbs, 0, none⟩

/-- The integer a numeral writes, if it has neither point nor exponent.  `-0` writes none. -/
def toInt? (n : Numeral) : Option Int :=
  if n.places ≠ 0 ∨ n.exponent.isSome then none
  else if n.negative then if n.digits = 0 then none else some (-n.digits)
  else some n.digits

/-- The nearest binary64 number. -/
def toBinary64 (n : Numeral) : Binary64 :=
  .ofDecimal n.negative n.digits (n.exponent.getD 0 - n.places)

/-- A sign, always written. -/
def exponentText (e : Int) : List Char :=
  'e' :: (if e < 0 then '-' else '+') :: Nat.toDigits 10 e.natAbs

def text (n : Numeral) : List Char :=
  (if n.negative then ['-'] else [])
    ++ Nat.toDigits 10 (n.digits / Nat.pow 10 n.places)
    ++ (if n.places = 0 then [] else '.' :: paddedDigits n.places n.digits)
    ++ (n.exponent.map exponentText).getD []

/-- A decimal without exponent, with at least `places` digits behind the point. -/
def positional (negative : Bool) (d : Decimal) (places : Nat) : Numeral :=
  match d.exponent with
  | .ofNat e => ⟨negative, d.digits * Nat.pow 10 (e + places), places, none⟩
  | .negSucc e => ⟨negative, d.digits, e + 1, none⟩

/-- A decimal with one digit before the point and an exponent. -/
def scientific (negative : Bool) (d : Decimal) : Numeral :=
  let behind := (Nat.toDigits 10 d.digits).length - 1
  ⟨negative, d.digits, behind, some (d.exponent + behind)⟩

end Numeral

namespace Decimal

/-- The decade of the first digit. -/
def decade (d : Decimal) : Int := (Nat.toDigits 10 d.digits).length - 1 + d.exponent

end Decimal

namespace Binary64

/-- The numeral of a finite number in documents. -/
def numeral (x : Binary64) : Numeral :=
  let d := shortest .toEven x.magnitude
  if -5 ≤ d.decade ∧ d.decade ≤ 15 then .positional x.isNegative d 1
  else .scientific x.isNegative d

/-- The text of a number in messages. -/
def plainText (x : Binary64) : String :=
  if x.isNaN then "NaN"
  else if x.isInfinite then if x.isNegative then "-inf" else "inf"
  else String.ofList (Numeral.positional x.isNegative (shortest .up x.magnitude) 0).text

/-- A finite number with a fixed count of places, ties to the even last digit. -/
def fixedText (places : Nat) (x : Binary64) : String :=
  let digits := roundEven (units x.magnitude * Nat.pow 10 places) unitsPerOne
  String.ofList (Numeral.text ⟨x.isNegative, digits, places, none⟩)

end Binary64

end Downlink
