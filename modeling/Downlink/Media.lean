import Downlink.Binary64.Rounding
import Downlink.Identifier

/-!
# Media

What the members of a conference publish: sources, each in several layers of quality.

A simulcast encoding is sent in three temporal layers, which take a third, two thirds and all of its
bitrate.  A share is a product of binary64 numbers with the fraction cut off.
-/

set_option autoImplicit false

namespace Downlink

/-- One quality of a source.  `==` compares frame rates by value, `=` by bits. -/
structure Layer where
  height : UInt32
  frameRate : Binary64
  /-- Bits per second. -/
  bitrate : UInt64
deriving DecidableEq, BEq

structure MediaSource where
  id : SourceId
  layers : List Layer
deriving DecidableEq

/-- A member of the conference and the sources it publishes. -/
structure Member where
  id : ParticipantId
  sources : List MediaSource
deriving DecidableEq

/-- One simulcast encoding of a source. -/
structure Encoding where
  height : UInt32
  bitrate : UInt64
deriving DecidableEq

namespace Encoding

/-- The temporal layers of an encoding: frame rate, and share of the bitrate. -/
def temporalLayers : List (Binary64 × Binary64) :=
  [(.ofDecimal false 75 (-1), .ofDecimal false 33 (-2)),
    (.ofNat 15, .ofDecimal false 66 (-2)),
    (.ofNat 30, .ofNat 1)]

/-- The part of a bitrate that a share names. -/
def portion (bitrate : UInt64) (share : Binary64) : UInt64 :=
  ((Binary64.ofNat bitrate.toNat).mul share).toUInt64Clamped

def layers (e : Encoding) : List Layer :=
  temporalLayers.map fun (frameRate, share) => ⟨e.height, frameRate, portion e.bitrate share⟩

end Encoding

/-- A source sent as simulcast. -/
def MediaSource.simulcast (id : SourceId) (encodings : List Encoding) : MediaSource :=
  ⟨id, encodings.flatMap Encoding.layers⟩

end Downlink
