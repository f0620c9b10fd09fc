import Downlink.Identifier
import Downlink.Binary64.Rounding
import Downlink.SortedMap

/-!
# Video constraints

How much of a participant's video a receiver can use: what it would like, and what it takes at most.
-/

set_option autoImplicit false

namespace Downlink

/-- Bounds on height and frame rate.  `==` compares rates by value, `=` by bits. -/
structure VideoConstraints where
  idealHeight : UInt32
  idealFrameRate : Option Binary64 := none
  maxHeight : UInt32
  maxFrameRate : Option Binary64 := none
deriving DecidableEq, BEq

namespace VideoConstraints

/-- The same height wanted and allowed, at any rate. -/
def ofHeight (height : UInt32) : VideoConstraints := { idealHeight := height, maxHeight := height }

/-- No video at all. -/
def disabled : VideoConstraints := ofHeight 0

def isDisabled (c : VideoConstraints) : Bool := c.maxHeight == 0

@[simp] theorem isDisabled_disabled : disabled.isDisabled = true := rfl

end VideoConstraints

/-- The constraints in force, by participant. -/
abbrev EffectiveConstraints := SortedMap ParticipantId VideoConstraints

end Downlink
