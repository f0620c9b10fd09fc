import Downlink.Controller.Step

/-!
# Scenarios

A conference on a timeline: its participants with their sources, and steps that change bandwidth,
order, settings and selection.  Replaying it yields every event that the controller publishes, with
the step that caused it.

Steps are taken by their time.  Steps of one time keep the order in which they are listed, and a
record names a step by its place in that list.
-/

set_option autoImplicit false

namespace Downlink

namespace Scenario

/-- A source, with its layers or its simulcast encodings. -/
structure Source where
  id : SourceId
  layers : List Layer := []
  simulcast : List Encoding := []
deriving DecidableEq

structure Participant where
  id : ParticipantId
  sources : List Source := []
deriving DecidableEq

/-- What happens at one time.  What is absent stays as it is. -/
structure Step where
  /-- Milliseconds from the start. -/
  time : UInt64 := 0
  bandwidth : Option Int64 := none
  order : Option (List ParticipantId) := none
  settings : Option Settings := none
  selected : Option (List ParticipantId) := none
  maxFrameHeight : Option UInt32 := none
  trust : Option Bool := none
deriving DecidableEq

/-- Why a scenario is not replayed. -/
inductive Error where
  /-- A source has both layers and encodings, or neither. -/
  | ambiguousLayers (source : SourceId)
  | config (error : ConfigError)
deriving DecidableEq

def Error.message : Error → String
  | .ambiguousLayers source =>
    "source " ++ source.text ++ " must set exactly one of `layers` or `simulcast`"
  | .config error => error.message

/-- A published event and the step that caused it. -/
structure Record where
  step : Nat
  time : UInt64
  event : Event
deriving DecidableEq

namespace Source

/-- The source as it is published. -/
def toMedia (s : Source) : Except Error MediaSource :=
  match s.layers, s.simulcast with
  | _ :: _, [] => .ok ⟨s.id, s.layers⟩
  | [], _ :: _ => .ok (.simulcast s.id s.simulcast)
  | _, _ => .error (.ambiguousLayers s.id)

end Source

namespace Participant

def toMember (p : Participant) : Except Error Member := do
  .ok ⟨p.id, ← p.sources.mapM Source.toMedia⟩

end Participant

namespace Step

/-- What a step asks of the controller, in this order. -/
def requests (s : Step) : List Controller.Request :=
  (s.trust.map .setTrust).toList
    ++ (s.settings.map .updateSettings).toList
    ++ (s.maxFrameHeight.map .capHeight).toList
    ++ (s.selected.map .select).toList
    ++ (s.bandwidth.map .reportBandwidth).toList
    ++ (s.order.map .setOrder).toList

end Step

end Scenario

structure Scenario where
  trust : Bool := true
  settings : Settings := {}
  participants : List Scenario.Participant := []
  steps : List Scenario.Step := []
deriving DecidableEq

namespace Scenario

/-- The outcome of a replay: the controller as the last step left it, and what it published. -/
structure Replay where
  controller : Controller
  state : Controller.State
  activity : Activity
  records : List Record

/-- The members of the conference. -/
def members (s : Scenario) : Except Error (List Member) := s.participants.mapM Participant.toMember

/-- The steps with their places, in the order in which they are taken. -/
def timeline (s : Scenario) : List (Step × Nat) :=
  s.steps.zipIdx.mergeSort fun a b => a.1.time ≤ b.1.time

/-- Who takes down the events of a replay. -/
def recorder : Subscriber := { name := "recorder" }

/-- Takes steps one after the other. -/
def follow (c : Controller) (state : Controller.State) : List (Step × Nat) → Replay
  | [] => ⟨c, state, {}, []⟩
  | (step, place) :: rest =>
    let (state, responses) := c.run state (step.requests.map (⟨step.time.toNat, ·⟩))
    let activity := Controller.activity responses
    let later := follow c state rest
    { later with
      activity := activity ++ later.activity
      records := activity.deliveries.map (⟨place, step.time, ·.event⟩) ++ later.records }

/-- Replays a scenario.  Its sources are checked before the configuration. -/
def replay (s : Scenario) (config : Config) : Except Error Replay := do
  let members ← s.members
  let c ← (Controller.build config).mapError .config
  .ok (follow c (c.start ⟨members, s.trust⟩ s.settings [recorder]) s.timeline)

end Scenario

end Downlink
