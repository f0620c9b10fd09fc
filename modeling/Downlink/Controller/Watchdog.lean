import Downlink.Controller.Step

/-!
# The watchdog

While it runs, the watchdog asks for a recomputation of a stale allocation at once and then once
every period.
-/

set_option autoImplicit false

namespace Downlink.Controller

/-- The instants at which a watchdog started at `start` asks during `duration` ticks. -/
def pollInstants (period start duration : Nat) : List Nat :=
  (List.range (duration / period + 1)).map fun k => start + k * period

/-- The requests of a watchdog. -/
def watchdogRequests (c : Controller) (start duration : Nat) : List Timed :=
  (pollInstants (c.config.watchdogPeriod.toNat * c.ticksPerMillisecond) start duration).map
    (⟨·, .recomputeIfStale .background⟩)

end Downlink.Controller
