import Downlink.Binary64.Rounding

/-!
# Shortest decimals

The decimal that names a finite positive number: of the decimals that round to the number, one with
the fewest digits, and of those the nearest.

A grid is the set of multiples of a power of ten.  The search goes from coarse grids to fine ones
and looks at the two neighbours of the number on each; the first grid with a neighbour that rounds
to the number wins.  Lengths are measured in grains of `10 ^ -1074`, of which every binary64 number
is a whole multiple, so the finest grid always holds the number itself and the search cannot fail.

## Results

* `search_names` — the decimal found rounds to the number, for every starting grid and tie rule.
-/

set_option autoImplicit false

namespace Downlink

/-- Which neighbour is taken when the number lies exactly between the two. -/
inductive Tie where
  | toEven
  | up
deriving DecidableEq, Repr

/-- `digits * 10 ^ exponent`. -/
structure Decimal where
  digits : Nat
  exponent : Int
deriving DecidableEq, Repr

namespace Binary64

/-- How many multiples of `10 ^ -1074` make a unit. -/
@[irreducible] def grainsPerUnit : Nat := Nat.pow 5 1074

/-- A finite magnitude in grains, the multiples of `10 ^ -1074`. -/
def grains (magnitude : Nat) : Nat := grainsPerUnit * units magnitude

/-- `digits` steps of `10 ^ grid` grains round to the magnitude. -/
def names (magnitude digits grid : Nat) : Bool :=
  nearest (digits * Nat.pow 10 grid) grainsPerUnit == magnitude

/-- The neighbour on this grid that names the magnitude, the nearer one if both do. -/
def neighbour (tie : Tie) (magnitude grid : Nat) : Option Nat :=
  let step := Nat.pow 10 grid
  let low := grains magnitude / step
  let twice := 2 * (grains magnitude % step)
  let nearerAbove := step < twice || (twice == step && (tie == .up || low % 2 == 1))
  if names magnitude low grid then
    if names magnitude (low + 1) grid && nearerAbove then some (low + 1) else some low
  else if names magnitude (low + 1) grid then some (low + 1)
  else none

/-- The first hit on the grids from `10 ^ grid` downwards, with its grid. -/
def search (tie : Tie) (magnitude : Nat) : Nat → Nat × Nat
  | 0 => (grains magnitude, 0)
  | grid + 1 =>
    match neighbour tie magnitude (grid + 1) with
    | some digits => (digits, grid + 1)
    | none => search tie magnitude grid

/-- A grid with a step above the number: `2 ^ 93 < 10 ^ 28`. -/
def coarsest (magnitude : Nat) : Nat := (grains magnitude).log2 * 28 / 93 + 1

/-- The shortest decimal of a finite magnitude. -/
def shortest (tie : Tie) (magnitude : Nat) : Decimal :=
  if magnitude = 0 then ⟨0, 0⟩
  else
    let (digits, grid) := search tie magnitude (coarsest magnitude)
    ⟨digits, (grid : Int) - 1074⟩

theorem names_of_neighbour {tie : Tie} {magnitude grid digits : Nat}
    (h : neighbour tie magnitude grid = some digits) : names magnitude digits grid = true := by
  simp only [neighbour] at h
  split at h
  · rename_i below
    split at h
    · rename_i both
      rw [Bool.and_eq_true] at both
      exact Option.some.inj h ▸ both.1
    · exact Option.some.inj h ▸ below
  · split at h
    · rename_i above
      exact Option.some.inj h ▸ above
    · cases h

/-- What the search finds names the magnitude, if the exact decimal does. -/
theorem search_names {tie : Tie} {magnitude : Nat}
    (exact : names magnitude (grains magnitude) 0 = true) (grid : Nat) :
    names magnitude (search tie magnitude grid).1 (search tie magnitude grid).2 = true := by
  induction grid with
  | zero => rw [search]; exact exact
  | succ grid ih =>
    rw [search]
    split
    · rename_i digits h
      exact names_of_neighbour h
    · exact ih

end Binary64

end Downlink
