import Downlink.Allocator.Basic

/-!
# Scripted units

A unit whose choices follow a script, whatever the budget.  It may lower or drop its target from one
pass to the next, which no ladder does, so it shows what the allocator does with units that keep no
promise.  The unit remembers the budgets it was offered.
-/

set_option autoImplicit false

namespace Downlink

structure ScriptedUnit where
  suppressed : Bool
  preferred : Option Nat
  /-- The bitrate of each target. -/
  bitrates : List Int64
  /-- The targets still to be chosen; behind the end, every state is kept. -/
  script : List (Option Nat)
  /-- The target of the forced state, if the unit can be forced. -/
  forced : Option Nat
  /-- The budgets offered so far. -/
  offers : List Int64 := []
deriving DecidableEq

namespace ScriptedUnit

/-- Takes the next target from the script. -/
def choose (u : ScriptedUnit) (state : UnitState) (budget : Int64) : UnitState × ScriptedUnit :=
  match u.script with
  | [] => (state, { u with offers := u.offers ++ [budget] })
  | target :: script => ({ target }, { u with script, offers := u.offers ++ [budget] })

instance : LayerSelection ScriptedUnit where
  isSuppressed := suppressed
  preferred := preferred
  bitrate u state := (state.target.bind (u.bitrates[·]?)).getD 0
  improve := choose
  forceLowest u := u.forced.map fun target => { target := some target, oversending := true }

/-- Three passes more than the scripts have entries together. -/
instance : Allocator.PassLimit ScriptedUnit where
  passLimit units := units.foldr (fun u limit => u.script.length + limit) 3

end ScriptedUnit

end Downlink
