import Downlink.Json.Library
import Downlink.Media.Document
import Downlink.Settings.Basic

/-!
# Settings as documents

How constraints, strategies and settings are written and read.  Frame rates that are not set are
left out, the heights have to be there, and settings may leave out anything.
-/

set_option autoImplicit false

namespace Downlink

namespace VideoConstraints

/-- A field for a rate, if there is one. -/
def rateField (name : String) : Option Binary64 → List (String × Document)
  | none => []
  | some rate => [(name, .real rate)]

def toDocument (c : VideoConstraints) : Document :=
  .record (("ideal_height", .nat c.idealHeight.toNat)
    :: rateField "ideal_frame_rate" c.idealFrameRate
    ++ ("max_height", .nat c.maxHeight.toNat) :: rateField "max_frame_rate" c.maxFrameRate)

def ofDocument? (format : DocumentFormat) (d : Document) : Option VideoConstraints := do
  let parts ← d.parts? format 4
  let rate := Document.nullable? Document.binary64?
  let idealHeight ← parts.required 0 "ideal_height" Document.uint32?
  let idealFrameRate ← parts.withDefault 1 "ideal_frame_rate" none rate
  let maxHeight ← parts.required 2 "max_height" Document.uint32?
  let maxFrameRate ← parts.withDefault 3 "max_frame_rate" none rate
  some { idealHeight, idealFrameRate, maxHeight, maxFrameRate }

end VideoConstraints

/-- Constraints by participant, in order of participants. -/
def EffectiveConstraints.toDocument (m : EffectiveConstraints) : Document :=
  .record (m.entries.map fun (id, c) => (id.text, c.toDocument))

namespace Strategy

def toDocument (s : Strategy) : Document := .text s.name

def ofDocument? (format : DocumentFormat) (d : Document) : Option Strategy :=
  (d.variant? format).bind ofName?

end Strategy

namespace Settings

def toDocument (s : Settings) : Document :=
  .record [("strategy", s.strategy.toDocument),
    ("selected_participants", .list (s.selected.map Identifier.toDocument)),
    ("video_constraints", EffectiveConstraints.toDocument s.constraints),
    ("last_n", .integer s.lastN.toInt)]

def ofDocument? (format : DocumentFormat) (d : Document) : Option Settings := do
  let parts ← d.parts? format 4
  let strategy ← parts.withDefault 0 "strategy" .stageView (Strategy.ofDocument? format)
  let selected ←
    parts.withDefault 1 "selected_participants" [] (Document.list? Identifier.ofDocument?)
  let constraints ← parts.withDefault 2 "video_constraints" ∅
    (Document.map? Identifier.ofText? (VideoConstraints.ofDocument? format))
  let lastN ← parts.withDefault 3 "last_n" (-1) Document.int32?
  some { strategy, selected, constraints, lastN }

/-- The settings on one line, as a JSON library writes them. -/
def summary (s : Settings) (library : JsonLibrary := .plain) : String := library.write s.toDocument

end Settings

end Downlink
