import Downlink.Allocation
import Downlink.Media.Document

/-!
# Allocations as documents
-/

set_option autoImplicit false

namespace Downlink

def SourceAllocation.toDocument (s : SourceAllocation) : Document :=
  .record [("participant_id", s.participant.toDocument),
    ("source_id", s.source.toDocument),
    ("target_index", .ofOption .nat s.targetIndex),
    ("ideal_index", .ofOption .nat s.idealIndex),
    ("target_layer", .ofOption Layer.toDocument s.targetLayer),
    ("bitrate_bps", .nat s.bitrate.toNat),
    ("ideal_bitrate_bps", .nat s.idealBitrate.toNat),
    ("oversending", .bool s.oversending)]

def Allocation.toDocument (a : Allocation) : Document :=
  .list (a.sources.map SourceAllocation.toDocument)

end Downlink
