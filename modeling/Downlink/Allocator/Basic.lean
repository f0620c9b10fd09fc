/-!
# The allocator

A bitrate budget is shared among units, highest priority first.  A unit is anything that can choose
a layer within a budget; the allocator knows it only through `LayerSelection`.

## One pass

A pass visits the units in order.  The bitrate that a unit holds goes back into the budget, the unit
chooses anew, and what it chose is taken out again.  A pass stops behind a unit that is left below
its preferred layer, so lower priorities keep what they had.  The unit at the head of the list may
be forced to send its lowest layer although it does not fit.

## Settling

Passes are repeated until the remaining budget repeats.  A pass that ends with fewer units forwarded
than the pass before is discarded, and settling ends there.

Whether passes settle is a question about the units, so `settle` and `allocateWithin` are given a
limit on passes and answer only within it.  A limit that is enough can be known for a kind of units
(`PassLimit`); it is no part of a unit, and nothing that a pass looks at.  `allocate` takes it.
-/

set_option autoImplicit false

namespace Downlink

universe u

/-- What a unit is set to send. -/
structure UnitState where
  /-- The layer sent, none if the unit is not forwarded. -/
  target : Option Nat := none
  /-- The layer is sent although it does not fit. -/
  oversending : Bool := false
deriving DecidableEq, Repr

def UnitState.isForwarded (s : UnitState) : Bool := s.target.isSome

/-- The height of a target in its ladder, counted from 1; not being forwarded stands below. -/
def rung : Option Nat → Nat
  | none => 0
  | some index => index + 1

/-- A unit that chooses a layer within a budget.  Choosing may change the unit. -/
class LayerSelection (υ : Type u) where
  /-- The unit is left out altogether. -/
  isSuppressed : υ → Bool
  /-- The layer below which lower priorities have to wait. -/
  preferred : υ → Option Nat
  /-- The bitrate of a state. -/
  bitrate : υ → UnitState → Int64
  /-- Chooses within a budget. -/
  improve : υ → UnitState → (budget : Int64) → UnitState × υ
  /-- The state of sending the lowest layer in any case. -/
  forceLowest : υ → Option UnitState

/-- A sum of bitrates, held inside the signed 64-bit range. -/
def addClamped (a b : Int64) : Int64 := .ofIntClamp (a.toInt + b.toInt)

/-- A difference of bitrates, held inside the signed 64-bit range. -/
def subClamped (a b : Int64) : Int64 := .ofIntClamp (a.toInt - b.toInt)

/-- A unit with its state. -/
structure Slot (υ : Type u) where
  unit : υ
  state : UnitState
deriving DecidableEq

namespace Slot

variable {υ : Type u} [LayerSelection υ]

open LayerSelection

/-- The bitrate the unit holds. -/
def bitrate (s : Slot υ) : Int64 := LayerSelection.bitrate s.unit s.state

/-- The forced state, if the unit is not forwarded, forcing is on and there is one. -/
def forced? (force : Bool) (s : Slot υ) : Option UnitState :=
  if force && !s.state.isForwarded then forceLowest s.unit else none

/-- The unit chooses within its share of the budget; returns what remains. -/
def serve (force : Bool) (remaining : Int64) (s : Slot υ) : Slot υ × Int64 :=
  let budget := addClamped remaining s.bitrate
  let (state, unit) := improve s.unit s.state budget
  let chosen : Slot υ := ⟨unit, state⟩
  let settled : Slot υ := ⟨unit, (chosen.forced? force).getD state⟩
  (settled, subClamped budget settled.bitrate)

/-- The unit is left below its preferred layer. -/
def isWanting (s : Slot υ) : Bool := rung s.state.target < rung (preferred s.unit)

end Slot

namespace Allocator

variable {υ : Type u} [LayerSelection υ]

open LayerSelection

/-- One pass; `force` applies to the head of the list. -/
def pass (force : Bool) (remaining : Int64) : List (Slot υ) → List (Slot υ) × Int64
  | [] => ([], remaining)
  | s :: rest =>
    if isSuppressed s.unit then
      let (served, left) := pass false remaining rest
      (s :: served, left)
    else
      let (s, remaining) := s.serve force remaining
      if s.isWanting then (s :: rest, remaining)
      else
        let (served, left) := pass false remaining rest
        (s :: served, left)

def forwardedCount (slots : List (Slot υ)) : Nat := slots.countP (·.state.isForwarded)

/-- What an allocation comes to. -/
structure Outcome (υ : Type u) where
  units : List υ
  states : List UnitState
  passes : Nat
  /-- The last pass was discarded. -/
  rolledBack : Bool
  /-- The budget left, not positive when oversending. -/
  remaining : Int64
deriving DecidableEq

def Outcome.forwardedCount (o : Outcome υ) : Nat := o.states.countP (·.isForwarded)

/-- Where settling stands after some passes. -/
structure Progress (υ : Type u) where
  slots : List (Slot υ)
  remaining : Int64
  /-- The budget the last pass started from. -/
  startedFrom : Option Int64
  passes : Nat
deriving DecidableEq

namespace Progress

/-- Nobody is forwarded. -/
def start (budget : Int64) (units : List υ) : Progress υ :=
  ⟨units.map (⟨·, {}⟩), budget, none, 0⟩

def outcome (p : Progress υ) : Outcome υ :=
  ⟨p.slots.map (·.unit), p.slots.map (·.state), p.passes, false, p.remaining⟩

/-- The last pass changed the remaining budget, or there was none. -/
def isUnsettled (p : Progress υ) : Bool := p.startedFrom != some p.remaining

/-- The states of `p` after a discarded pass, which the units have seen all the same. -/
def rollBack (p : Progress υ) (slots : List (Slot υ)) : Outcome υ :=
  ⟨slots.map (·.unit), p.slots.map (·.state), p.passes + 1, true, p.remaining⟩

end Progress

/-- Repeats passes until the remaining budget settles, at most `limit` times. -/
def settle (force : Bool) (limit : Nat) (p : Progress υ) : Option (Outcome υ) :=
  if p.isUnsettled then
    match limit with
    | 0 => none
    | limit + 1 =>
      let (slots, remaining) := pass force p.remaining p.slots
      if forwardedCount slots < forwardedCount p.slots then some (p.rollBack slots)
      else settle force limit ⟨slots, remaining, some p.remaining, p.passes + 1⟩
  else some p.outcome

/-- Shares a budget among units, highest priority first, and gives up after so many passes.  Without
units there is no pass. -/
def allocateWithin (limit : Nat) (force : Bool) (budget : Int64) (units : List υ) :
    Option (Outcome υ) :=
  let start := Progress.start budget units
  if units.isEmpty then some start.outcome else settle force limit start

/-- A kind of units that settle. -/
class PassLimit (υ : Type u) where
  /-- The passes within which the units do. -/
  passLimit : List υ → Nat

export PassLimit (passLimit)

/-- Shares a budget among units that settle.  Nobody would be forwarded if they did not. -/
def allocate [PassLimit υ] (force : Bool) (budget : Int64) (units : List υ) : Outcome υ :=
  (allocateWithin (passLimit units) force budget units).getD (Progress.start budget units).outcome

end Allocator

end Downlink
