import Downlink.Controller.Recompute

/-!
# Steps of a controller

What can happen to a controller, and what it does then.  A step is given the tick of the clock at
which it happens; the answer is there for those requests that have one.
-/

set_option autoImplicit false

namespace Downlink.Controller

/-- How a recomputation that is due is carried out. -/
inductive Dispatch where
  /-- On a background pool. -/
  | background
  /-- On the spot, which counts as not dispatched. -/
  | inline
deriving DecidableEq, Repr

/-- What can happen to a controller. -/
inductive Request where
  /-- A new estimate of the downlink. -/
  | reportBandwidth (bps : Int64)
  /-- A new speaker order. -/
  | setOrder (order : List ParticipantId)
  | updateSettings (settings : Settings)
  /-- A selection signaled as a list. -/
  | select (listed : List ParticipantId)
  /-- A cap on the height of whom was selected by a list. -/
  | capHeight (maxFrameHeight : UInt32)
  /-- Recompute if the last recomputation is too long ago. -/
  | recomputeIfStale (dispatch : Dispatch)
  | setMembers (members : List Member)
  | setTrust (trustsEstimate : Bool)
  | subscribe (subscriber : Subscriber)
deriving DecidableEq

/-- What a step answers and does. -/
structure Response where
  answer : Option Bool := none
  activity : Activity := {}
deriving DecidableEq

/-- Recomputes and answers. -/
def recomputing (c : Controller) (now : Nat) (answer : Option Bool) (before : Activity)
    (s : State) : State × Response :=
  let (s, activity) := c.recompute now s
  (s, ⟨answer, before ++ activity⟩)

/-- Acts on what the signaling derived, if it changed. -/
def applySignaling (c : Controller) (now : Nat) (s : State)
    (signaled : SelectionSignaling × Bool) : State × Response :=
  let (signaling, changed) := signaled
  if changed then
    c.recomputing now (some true) {} { s with signaling, settings := signaling.applyTo s.settings }
  else ({ s with signaling }, { answer := some false })

/-- How many ticks ago the last recomputation may be. -/
def allowedAge (c : Controller) : Nat :=
  c.config.maxTimeBetweenCalculations.toNat * c.ticksPerMillisecond

/-- No recomputation has happened, or the last one is older than allowed. -/
def isStale (c : Controller) (now : Nat) (s : State) : Bool :=
  s.lastRecompute.all fun last => c.allowedAge < now - last

/-- One step. -/
def step (c : Controller) (now : Nat) (s : State) : Request → State × Response
  | .reportBandwidth bps =>
    if c.config.gate.reacts s.estimate ⟨bps⟩ then
      c.recomputing now (some true) { acceptedEstimates := 1 } { s with estimate := ⟨bps⟩ }
    else (s, ⟨some false, { ignoredEstimates := 1 }⟩)
  | .setOrder order => c.recomputing now none {} { s with order }
  | .updateSettings settings => c.recomputing now none {} { s with settings }
  | .select listed => c.applySignaling now s (s.signaling.setListed listed)
  | .capHeight height => c.applySignaling now s (s.signaling.setMaxFrameHeight height)
  | .recomputeIfStale dispatch =>
    if c.isStale now s then c.recomputing now (some (dispatch == .background)) {} s
    else (s, { answer := some false })
  | .setMembers members => ({ s with conference := { s.conference with members } }, {})
  | .setTrust trustsEstimate =>
    ({ s with conference := { s.conference with trustsEstimate } }, {})
  | .subscribe subscriber => ({ s with subscribers := s.subscribers ++ [subscriber] }, {})

/-- A request and when it is made. -/
structure Timed where
  time : Nat
  request : Request
deriving DecidableEq

/-- A run: requests in order, with the response to each. -/
def run (c : Controller) : State → List Timed → State × List Response
  | s, [] => (s, [])
  | s, r :: rest =>
    let (s, response) := c.step r.time s r.request
    let (s, responses) := c.run s rest
    (s, response :: responses)

/-- The responses of a run taken together. -/
def activity (responses : List Response) : Activity :=
  responses.foldl (fun sum r => sum ++ r.activity) {}

end Downlink.Controller
