import Downlink.Allocation.Document
import Downlink.Controller.Basic

/-!
# Events and debug states as documents
-/

set_option autoImplicit false

namespace Downlink

def Event.toDocument : Event → Document
  | .allocationChanged allocation =>
    .record [("type", .text "allocation_changed"), ("data", allocation.toDocument)]
  | .constraintsChanged old new =>
    .record [("type", .text "constraints_changed"),
      ("data", .record [("old", EffectiveConstraints.toDocument old),
        ("new", EffectiveConstraints.toDocument new)])]

def DebugState.toDocument (d : DebugState) : Document :=
  .record [("trust_bandwidth", .bool d.trustsEstimate),
    ("bandwidth_estimate_bps", .integer d.estimate.bps.toInt),
    ("allocation_settings", .text d.settings),
    ("effective_constraints", EffectiveConstraints.toDocument d.effective)]

end Downlink
