import Downlink.Config.Basic
import Downlink.Document.Reading

/-!
# Configurations as documents

A configuration may leave out any field.  Reading does not validate.
-/

set_option autoImplicit false

namespace Downlink.Config

def toDocument (c : Config) : Document :=
  .record [("bwe_change_threshold", .real c.bweChangeThreshold),
    ("max_time_between_calculations_ms", .nat c.maxTimeBetweenCalculations.toNat),
    ("watchdog_period_ms", .nat c.watchdogPeriod.toNat),
    ("force_forward_top_priority", .bool c.forceForwardTopPriority),
    ("thumbnail_max_height", .nat c.thumbnailMaxHeight.toNat),
    ("onstage_ideal_height", .nat c.onstageIdealHeight.toNat),
    ("onstage_preferred_height", .nat c.onstagePreferredHeight.toNat),
    ("onstage_preferred_frame_rate", .real c.onstagePreferredFrameRate)]

/-- How the fields of a configuration are read. -/
structure FieldReaders where
  real : Document → Option Binary64
  uint64 : Document → Option UInt64
  uint32 : Document → Option UInt32
  bool : Document → Option Bool

/-- Each value has the type of its field. -/
def strictReaders : FieldReaders :=
  ⟨Document.binary64?, Document.uint64?, Document.uint32?, Document.bool?⟩

/-- Reads the fields that are there; the others keep their defaults. -/
def ofParts? (read : FieldReaders) (parts : Parts) : Option Config := do
  let default : Config := {}
  let bweChangeThreshold ←
    parts.withDefault 0 "bwe_change_threshold" default.bweChangeThreshold read.real
  let maxTimeBetweenCalculations ←
    parts.withDefault 1 "max_time_between_calculations_ms" default.maxTimeBetweenCalculations
      read.uint64
  let watchdogPeriod ←
    parts.withDefault 2 "watchdog_period_ms" default.watchdogPeriod read.uint64
  let forceForwardTopPriority ←
    parts.withDefault 3 "force_forward_top_priority" default.forceForwardTopPriority read.bool
  let thumbnailMaxHeight ←
    parts.withDefault 4 "thumbnail_max_height" default.thumbnailMaxHeight read.uint32
  let onstageIdealHeight ←
    parts.withDefault 5 "onstage_ideal_height" default.onstageIdealHeight read.uint32
  let onstagePreferredHeight ←
    parts.withDefault 6 "onstage_preferred_height" default.onstagePreferredHeight read.uint32
  let onstagePreferredFrameRate ←
    parts.withDefault 7 "onstage_preferred_frame_rate" default.onstagePreferredFrameRate read.real
  some {
    bweChangeThreshold, maxTimeBetweenCalculations, watchdogPeriod, forceForwardTopPriority,
    thumbnailMaxHeight, onstageIdealHeight, onstagePreferredHeight, onstagePreferredFrameRate }

def ofDocument? (format : DocumentFormat) (d : Document) : Option Config :=
  (d.parts? format 8).bind (ofParts? strictReaders)

end Downlink.Config
