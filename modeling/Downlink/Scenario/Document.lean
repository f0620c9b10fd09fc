import Downlink.Controller.Document
import Downlink.Scenario.Basic

/-!
# Scenarios as documents

How scenarios are read and records written.  Everything may be left out but identifiers; an encoding
is a list of height and bitrate.
-/

set_option autoImplicit false

namespace Downlink

namespace Encoding

/-- A list of height and bitrate. -/
def ofDocument? (format : DocumentFormat) : Document → Option Encoding
  | .list items => do
    let parts ← (Document.list items).parts? format 2
    let height ← parts.required 0 "" Document.uint32?
    let bitrate ← parts.required 1 "" Document.uint64?
    some { height, bitrate }
  | _ => none

end Encoding

namespace Scenario

namespace Source

def ofDocument? (format : DocumentFormat) (d : Document) : Option Source := do
  let parts ← d.parts? format 3
  let id ← parts.required 0 "id" Identifier.ofDocument?
  let layers ← parts.withDefault 1 "layers" [] (Document.list? (Layer.ofDocument? format))
  let simulcast ← parts.withDefault 2 "simulcast" [] (Document.list? (Encoding.ofDocument? format))
  some { id, layers, simulcast }

end Source

namespace Participant

def ofDocument? (format : DocumentFormat) (d : Document) : Option Participant := do
  let parts ← d.parts? format 2
  let id ← parts.required 0 "id" Identifier.ofDocument?
  let sources ← parts.withDefault 1 "sources" [] (Document.list? (Source.ofDocument? format))
  some { id, sources }

end Participant

namespace Step

def ofDocument? (format : DocumentFormat) (d : Document) : Option Step := do
  let parts ← d.parts? format 7
  let ids := Document.nullable? (Document.list? Identifier.ofDocument?)
  let time ← parts.withDefault 0 "at_ms" 0 Document.uint64?
  let bandwidth ← parts.withDefault 1 "bandwidth_bps" none (Document.nullable? Document.int64?)
  let order ← parts.withDefault 2 "order" none ids
  let settings ←
    parts.withDefault 3 "settings" none (Document.nullable? (Settings.ofDocument? format))
  let selected ← parts.withDefault 4 "selected" none ids
  let maxFrameHeight ←
    parts.withDefault 5 "max_frame_height" none (Document.nullable? Document.uint32?)
  let trust ← parts.withDefault 6 "trust_bandwidth" none (Document.nullable? Document.bool?)
  some { time, bandwidth, order, settings, selected, maxFrameHeight, trust }

end Step

def ofDocument? (format : DocumentFormat) (d : Document) : Option Scenario := do
  let parts ← d.parts? format 4
  let trust ← parts.withDefault 0 "trust_bandwidth" true Document.bool?
  let settings ← parts.withDefault 1 "settings" {} (Settings.ofDocument? format)
  let participants ←
    parts.withDefault 2 "participants" [] (Document.list? (Participant.ofDocument? format))
  let steps ← parts.withDefault 3 "steps" [] (Document.list? (Step.ofDocument? format))
  some { trust, settings, participants, steps }

def Record.toDocument (r : Record) : Document :=
  .record [("step", .nat r.step), ("at_ms", .nat r.time.toNat), ("event", r.event.toDocument)]

end Scenario

end Downlink
