import Downlink.Allocation
import Downlink.Settings.Document
import Downlink.Settings.Signaling
import Downlink.Slots

/-!
# Controllers

A controller decides what one receiver of a conference is sent.  What never changes about it, its
configuration and its constraints policy, is the `Controller`; all that changes is the
`Controller.State`, the conference around it included.

Everything that a step does besides changing the state is returned as data: the events handed to
subscribers, and counts of what was done.

Time is told by a clock that counts ticks.  A controller is built for a clock of milliseconds, the
unit of its configuration; given more ticks for each of them it is the same controller on a finer
clock.
-/

set_option autoImplicit false

namespace Downlink

/-- The conference as the receiver's controller sees it. -/
structure Conference where
  members : List Member
  /-- When false, bandwidth is treated as unlimited. -/
  trustsEstimate : Bool := true
deriving DecidableEq

/-- What subscribers are told. -/
inductive Event where
  | allocationChanged (allocation : Allocation)
  | constraintsChanged (old new : EffectiveConstraints)
deriving DecidableEq

/-- Somebody who is told of events, and may fail after taking one. -/
structure Subscriber where
  name : String
  fails : Bool := false
deriving DecidableEq

/-- An event in the hands of a subscriber. -/
structure Delivery where
  subscriber : String
  event : Event
deriving DecidableEq

/-- What is shown for inspection.  It is refreshed by recomputations only. -/
structure DebugState where
  trustsEstimate : Bool
  estimate : Estimate
  /-- The summary of the settings. -/
  settings : String
  effective : EffectiveConstraints
deriving DecidableEq

/-- What was done besides changing the state. -/
structure Activity where
  deliveries : List Delivery := []
  /-- How often the members of the conference were asked for. -/
  snapshots : Nat := 0
  recomputations : Nat := 0
  /-- Allocations published. -/
  published : Nat := 0
  acceptedEstimates : Nat := 0
  ignoredEstimates : Nat := 0
  /-- Deliveries after which the subscriber failed. -/
  failures : Nat := 0
  rollbacks : Nat := 0
  /-- The passes of each allocation, in order. -/
  passes : List Nat := []
deriving DecidableEq

namespace Activity

/-- First `a`, then `b`. -/
def append (a b : Activity) : Activity where
  deliveries := a.deliveries ++ b.deliveries
  snapshots := a.snapshots + b.snapshots
  recomputations := a.recomputations + b.recomputations
  published := a.published + b.published
  acceptedEstimates := a.acceptedEstimates + b.acceptedEstimates
  ignoredEstimates := a.ignoredEstimates + b.ignoredEstimates
  failures := a.failures + b.failures
  rollbacks := a.rollbacks + b.rollbacks
  passes := a.passes ++ b.passes

instance : Append Activity := ⟨append⟩

end Activity

/-- What a controller is built with. -/
structure Controller where
  config : Config
  policy : ConstraintsPolicy
  /-- How finely time is told. -/
  ticksPerMillisecond : Nat := 1

namespace Controller

/-- A controller with a checked configuration; the slot rule is its policy unless one is given. -/
def build (config : Config) (policy : Option ConstraintsPolicy := none) :
    Except ConfigError Controller :=
  (config.validate).map fun () =>
    { config, policy := policy.getD (SlotPolicy.ofConfig config).effective }

theorem eq_of_build {config : Config} {policy : Option ConstraintsPolicy} {c : Controller}
    (h : build config policy = .ok c) :
    c = { config, policy := policy.getD (SlotPolicy.ofConfig config).effective } := by
  unfold build at h
  cases hvalid : config.validate with
  | error e =>
    rw [hvalid] at h
    cases h
  | ok =>
    rw [hvalid] at h
    cases h
    rfl

/-- What changes about a controller. -/
structure State where
  conference : Conference
  estimate : Estimate
  order : List ParticipantId
  settings : Settings
  signaling : SelectionSignaling
  /-- The constraints in force. -/
  effective : EffectiveConstraints
  /-- The allocation published last. -/
  allocation : Allocation
  /-- When an allocation was computed last. -/
  lastRecompute : Option Nat
  subscribers : List Subscriber
  debug : DebugState
deriving DecidableEq

/-- A fresh state. -/
def start (c : Controller) (conference : Conference) (settings : Settings)
    (subscribers : List Subscriber) : State where
  conference
  estimate := .unknown
  order := []
  settings
  signaling := .start c.config.onstageIdealHeight
  effective := ∅
  allocation := .empty
  lastRecompute := none
  subscribers
  debug := ⟨conference.trustsEstimate, .unknown, settings.summary, ∅⟩

end Controller

end Downlink
