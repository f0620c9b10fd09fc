import Downlink.Document.Reading
import Downlink.Media

/-!
# Media as documents

How layers, sources and members are written and read.  Every field of a layer and of a source has to
be there; a member may leave out its sources.
-/

set_option autoImplicit false

namespace Downlink

namespace Identifier

variable {kind : IdentifierKind}

def toDocument (id : Identifier kind) : Document := .text id.text

/-- A text that is an identifier. -/
def ofText? (text : String) : Option (Identifier kind) := (ofString? text).toOption

def ofDocument? (d : Document) : Option (Identifier kind) := d.text?.bind ofText?

end Identifier

namespace Layer

def toDocument (l : Layer) : Document :=
  .record [("height", .nat l.height.toNat), ("frame_rate", .real l.frameRate),
    ("bitrate_bps", .nat l.bitrate.toNat)]

def ofDocument? (format : DocumentFormat) (d : Document) : Option Layer := do
  let parts ← d.parts? format 3
  let height ← parts.required 0 "height" Document.uint32?
  let frameRate ← parts.required 1 "frame_rate" Document.binary64?
  let bitrate ← parts.required 2 "bitrate_bps" Document.uint64?
  some { height, frameRate, bitrate }

end Layer

namespace MediaSource

def toDocument (s : MediaSource) : Document :=
  .record [("id", s.id.toDocument), ("layers", .list (s.layers.map Layer.toDocument))]

def ofDocument? (format : DocumentFormat) (d : Document) : Option MediaSource := do
  let parts ← d.parts? format 2
  let id ← parts.required 0 "id" Identifier.ofDocument?
  let layers ← parts.required 1 "layers" (Document.list? (Layer.ofDocument? format))
  some { id, layers }

end MediaSource

namespace Member

def toDocument (m : Member) : Document :=
  .record [("id", m.id.toDocument), ("sources", .list (m.sources.map MediaSource.toDocument))]

def ofDocument? (format : DocumentFormat) (d : Document) : Option Member := do
  let parts ← d.parts? format 2
  let id ← parts.required 0 "id" Identifier.ofDocument?
  let sources ← parts.withDefault 1 "sources" [] (Document.list? (MediaSource.ofDocument? format))
  some { id, sources }

end Member

end Downlink
