import Downlink.Bandwidth.Estimate

/-!
# The bandwidth gate

Estimates are noisy, and each change of layers costs a key frame, so small drops are ignored.  Any
rise counts: a layer just above the last estimate could otherwise never be reached.

A drop counts when it is at least `threshold` times the previous estimate.  Drop and estimate are
rounded to binary64 before they are multiplied and compared.
-/

set_option autoImplicit false

namespace Downlink

structure Gate where
  /-- The share of the previous estimate that a drop has to reach. -/
  threshold : Binary64
deriving DecidableEq

namespace Gate

def defaultThreshold : Binary64 := .ofDecimal false 15 (-2)

/-- The distance between two estimates. -/
def distance (a b : Estimate) : Nat := (a.bps.toInt - b.bps.toInt).natAbs

/-- A drop from `previous` to `current` is large enough. -/
def reaches (gate : Gate) (previous current : Estimate) : Bool :=
  (Binary64.ofInt previous.bps.toInt).mul gate.threshold
    ≤ Binary64.ofNat (distance previous current)

/-- Whether the estimate `current` is acted upon after `previous`. -/
def reacts (gate : Gate) (previous current : Estimate) : Bool :=
  if previous.isUnknown || current.isUnknown then true
  else if previous.bps < current.bps then true
  else if previous.bps = current.bps then false
  else gate.reaches previous current

/-- The first estimate is always acted upon. -/
theorem reacts_of_isUnknown {gate : Gate} {previous current : Estimate}
    (h : previous.isUnknown = true) : gate.reacts previous current = true := by
  rw [reacts, h, Bool.true_or, if_pos rfl]

end Gate

end Downlink
