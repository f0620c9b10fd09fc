import Downlink.Allocator.SourceUnit
import Downlink.Controller.Basic
import Downlink.Priority

/-!
# Recomputing an allocation

`compute` is the allocation that the conference, the settings, the estimate and the order call for;
it looks at nothing else.  `recompute` puts it in place of what was before and publishes what
changed: the allocation first, then the constraints in force.  With an empty order there is nothing
to compute, and everything stays.
-/

set_option autoImplicit false

namespace Downlink.Controller

/-- The constraints in force, and how the budget is shared under them. -/
structure Computation where
  effective : EffectiveConstraints
  outcome : Allocator.Outcome SourceUnit

/-- The units of the members to serve.  Who has no constraints gets no video. -/
def units (config : Config) (strategy : Strategy) (effective : EffectiveConstraints)
    (ordered : List Member) : List SourceUnit :=
  ordered.flatMap fun m =>
    m.sources.map (SourceUnit.build config strategy m.id ((effective.find? m.id).getD .disabled))

/-- The budget to share. -/
def budget (conference : Conference) (estimate : Estimate) : Int64 :=
  if conference.trustsEstimate then estimate.budget else Int64.maxValue

/-- The allocation that is called for. -/
def compute (c : Controller) (conference : Conference) (settings : Settings) (estimate : Estimate)
    (order : List ParticipantId) : Computation :=
  let ordered := prioritize order settings.selected conference.members
  let effective := c.policy ordered settings
  let units := units c.config settings.strategy effective ordered
  ⟨effective,
    Allocator.allocate c.config.forceForwardTopPriority (budget conference estimate) units⟩

namespace State

/-- Brings what is shown for inspection up to date. -/
def refreshDebug (s : State) : State :=
  { s with debug := ⟨s.conference.trustsEstimate, s.estimate, s.settings.summary, s.effective⟩ }

/-- Hands an event to every subscriber in turn.  One that fails has taken the event all the same. -/
def notify (subscribers : List Subscriber) (event : Event) : Activity where
  deliveries := subscribers.map fun s => ⟨s.name, event⟩
  failures := subscribers.countP (·.fails)

/-- The activity of an allocation.  Without units no pass is run, and none is recorded. -/
def allocating (outcome : Allocator.Outcome SourceUnit) : Activity where
  passes := if outcome.units.isEmpty then [] else [outcome.passes]
  rollbacks := if outcome.rolledBack then 1 else 0

end State

/-- Computes the allocation anew at the time `now`. -/
def recompute (c : Controller) (now : Nat) (s : State) : State × Activity :=
  let s := { s with lastRecompute := some now }
  if s.order.isEmpty then (s.refreshDebug, {})
  else
    let computed := c.compute s.conference s.settings s.estimate s.order
    let allocation := computed.outcome.allocation
    let isNew := !s.allocation.isSameAs allocation
    let next := State.refreshDebug
      { s with
        effective := computed.effective
        allocation := if isNew then allocation else s.allocation }
    let done : Activity := { snapshots := 1, recomputations := 1 }
    let allocationEvent : Activity :=
      if isNew then
        { published := 1 } ++ State.notify s.subscribers (.allocationChanged allocation)
      else {}
    let constraintsEvent : Activity :=
      if s.effective == computed.effective then {}
      else State.notify s.subscribers (.constraintsChanged s.effective computed.effective)
    (next, done ++ State.allocating computed.outcome ++ allocationEvent ++ constraintsEvent)

end Downlink.Controller
