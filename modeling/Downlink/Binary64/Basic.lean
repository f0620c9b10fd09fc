/-!
# Binary64 numbers

Frame rates and the bandwidth threshold are binary64 numbers.  A number is kept as its 64 bits: a
sign bit, then 63 bits of *magnitude*.  Every question about a number is answered exactly, in the
naturals and integers:

* the magnitudes below `infinityMagnitude` are the finite numbers, in ascending order, and
  `units` is their value as a whole number of the smallest positive one (`2 ^ -1074`);
* `rank` orders the numbers by value, so the two zeros share a rank;
* `totalRank` orders all 2^64 of them, so it tells the zeros apart and places what is not a number.

## Results

* `eq_of_totalRank_eq` — numbers with one `totalRank` are one number.
-/

set_option autoImplicit false

namespace Downlink

/-- A binary64 number, as its bits. -/
structure Binary64 where
  bits : UInt64
deriving DecidableEq, Repr

namespace Binary64

/-- The magnitude of the infinities; greater magnitudes are not numbers. -/
@[irreducible] def infinityMagnitude : Nat := 2047 <<< 52

/-- The sign bit. -/
def isNegative (x : Binary64) : Bool := 1 <<< 63 ≤ x.bits.toNat

/-- The bits below the sign. -/
def magnitude (x : Binary64) : Nat := x.bits.toNat % (1 <<< 63)

/-- The number with this sign and magnitude. -/
def ofMagnitude (negative : Bool) (magnitude : Nat) : Binary64 :=
  ⟨UInt64.ofNat ((if negative then 1 <<< 63 else 0) + magnitude)⟩

def isNaN (x : Binary64) : Bool := infinityMagnitude < x.magnitude

def isInfinite (x : Binary64) : Bool := x.magnitude == infinityMagnitude

def isFinite (x : Binary64) : Bool := x.magnitude < infinityMagnitude

def isZero (x : Binary64) : Bool := x.magnitude == 0

/-- The quiet not-a-number with this sign bit. -/
def nan (negative : Bool) : Binary64 := ofMagnitude negative (infinityMagnitude + 1 <<< 51)

def infinity (negative : Bool) : Binary64 := ofMagnitude negative infinityMagnitude

def zero (negative : Bool) : Binary64 := ofMagnitude negative 0

/-- How many units make one. -/
@[irreducible] def unitsPerOne : Nat := 1 <<< 1074

/--
The value of a finite magnitude as a multiple of `2 ^ -1074`.  The upper bits count binades: the
lowest two binades have steps of one unit, each later one has steps twice as large.
-/
def units (magnitude : Nat) : Nat :=
  let binade := magnitude >>> 52
  if binade = 0 then magnitude else (1 <<< 52 + magnitude % (1 <<< 52)) <<< (binade - 1)

/-! ## Order -/

/-- Position by value: both zeros stand at 0. -/
def rank (x : Binary64) : Int := if x.isNegative then -(x.magnitude : Int) else x.magnitude

/-- Position among all bit patterns: `-0` stands just before `0`. -/
def totalRank (x : Binary64) : Int :=
  if x.isNegative then -(x.magnitude : Int) - 1 else x.magnitude

instance : LE Binary64 := ⟨fun x y => x.isNaN = false ∧ y.isNaN = false ∧ x.rank ≤ y.rank⟩

instance (x y : Binary64) : Decidable (x ≤ y) :=
  inferInstanceAs (Decidable (x.isNaN = false ∧ y.isNaN = false ∧ x.rank ≤ y.rank))

instance : LT Binary64 := ⟨fun x y => x.isNaN = false ∧ y.isNaN = false ∧ x.rank < y.rank⟩

instance (x y : Binary64) : Decidable (x < y) :=
  inferInstanceAs (Decidable (x.isNaN = false ∧ y.isNaN = false ∧ x.rank < y.rank))

/-- Equality of values: the zeros agree, and what is not a number agrees with nothing. -/
def sameValue (x y : Binary64) : Bool := !x.isNaN && !y.isNaN && x.rank == y.rank

/-- `==` compares values; equality of bits is `=`. -/
instance : BEq Binary64 := ⟨sameValue⟩

/-- `totalRank` forgets nothing. -/
theorem eq_of_totalRank_eq {x y : Binary64} (h : x.totalRank = y.totalRank) : x = y := by
  obtain ⟨a⟩ := x
  obtain ⟨b⟩ := y
  have ha := a.toNat_lt
  have hb := b.toNat_lt
  simp only [totalRank, isNegative, magnitude, Nat.shiftLeft_eq, decide_eq_true_eq] at h
  have : a.toNat = b.toNat := by
    split at h <;> split at h <;> omega
  exact congrArg _ (UInt64.toNat_inj.mp this)

end Binary64

end Downlink
