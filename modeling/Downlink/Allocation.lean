import Downlink.Media
import Downlink.SortedMap

/-!
# Allocations

The outcome of one allocation as it is published: one record per source, highest priority first.

Two allocations are the same if they hold the same records, in whatever order.  Records are told
apart by participant and source; of several records with one key the last one counts.

## Results

* `Allocation.mem_forwardedParticipants`, `Allocation.nodup_forwardedParticipants` — whoever has a
  forwarded source is counted, and once.
-/

set_option autoImplicit false

namespace Downlink

/-- What one source sends.  `==` compares frame rates by value, `=` by bits. -/
structure SourceAllocation where
  participant : ParticipantId
  source : SourceId
  /-- The position of the layer sent in the ladder, none if the source is not forwarded. -/
  targetIndex : Option Nat
  idealIndex : Option Nat
  targetLayer : Option Layer
  bitrate : UInt64
  idealBitrate : UInt64
  oversending : Bool
deriving DecidableEq, BEq

namespace SourceAllocation

def isForwarded (s : SourceAllocation) : Bool := s.targetIndex.isSome

/-- What tells records apart. -/
structure Key where
  participant : ParticipantId
  source : SourceId
deriving DecidableEq

namespace Key

/-- Keys are ordered by participant, then source. -/
instance : Ord Key :=
  ⟨fun a b => (compare a.participant b.participant).then (compare a.source b.source)⟩

instance : Std.TransOrd Key :=
  inferInstanceAs (Std.TransCmp (compareLex (compareOn Key.participant) (compareOn Key.source)))

end Key

def key (s : SourceAllocation) : Key := ⟨s.participant, s.source⟩

end SourceAllocation

/-- The records of one allocation, highest priority first. -/
structure Allocation where
  sources : List SourceAllocation
deriving DecidableEq, BEq

namespace Allocation

def empty : Allocation := ⟨[]⟩

def isEmpty (a : Allocation) : Bool := a.sources.isEmpty

/-- The first record of a participant. -/
def find? (a : Allocation) (id : ParticipantId) : Option SourceAllocation :=
  a.sources.find? (·.participant == id)

/-- All records of a participant. -/
def ofParticipant (a : Allocation) (id : ParticipantId) : List SourceAllocation :=
  a.sources.filter (·.participant == id)

def forwardedCount (a : Allocation) : Nat := a.sources.countP (·.isForwarded)

/-- The participants with a forwarded source, each once, in order of priority. -/
def forwardedParticipants (a : Allocation) : List ParticipantId :=
  ((a.sources.filter (·.isForwarded)).map (·.participant)).eraseDups

theorem mem_forwardedParticipants {a : Allocation} {id : ParticipantId} :
    id ∈ a.forwardedParticipants ↔ ∃ r ∈ a.sources, r.isForwarded = true ∧ r.participant = id := by
  simp [forwardedParticipants, and_assoc]

theorem nodup_eraseDups {α : Type} [BEq α] [LawfulBEq α] : ∀ l : List α, l.eraseDups.Nodup
  | [] => .nil
  | a :: l => by
    rw [List.eraseDups_cons, List.nodup_cons, List.mem_eraseDups]
    exact ⟨by simp, nodup_eraseDups _⟩
termination_by l => l.length
decreasing_by exact Nat.lt_succ_of_le (List.length_filter_le _ l)

theorem nodup_forwardedParticipants (a : Allocation) : a.forwardedParticipants.Nodup :=
  nodup_eraseDups _

def targetBitrate (a : Allocation) : Nat :=
  a.sources.foldr (fun s total => s.bitrate.toNat + total) 0

def idealBitrate (a : Allocation) : Nat :=
  a.sources.foldr (fun s total => s.idealBitrate.toNat + total) 0

def isOversending (a : Allocation) : Bool := a.sources.any (·.oversending)

/-- The records by key. -/
def byKey (a : Allocation) : SortedMap SourceAllocation.Key SourceAllocation :=
  .ofList (a.sources.map fun s => (s.key, s))

/-- The same records in any order. -/
def isSameAs (a b : Allocation) : Bool :=
  a.sources.length == b.sources.length && a.byKey == b.byKey

end Allocation

end Downlink
