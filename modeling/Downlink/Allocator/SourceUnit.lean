import Downlink.Allocation
import Downlink.Allocator.Basic
import Downlink.Ladder.Basic

/-!
# Source units

One source of one participant, as the allocator sees it: a ladder, and the constraints it was cut
to.  A source without a ladder sends nothing; a disabled participant's sources have none.

## Results

* `SourceUnit.layers_build` — a unit is left the layers admitted, or none if its participant is
  disabled.
* `SourceUnit.layers_eq_nil_iff` — a unit without layers is one without a ladder.
-/

set_option autoImplicit false

namespace Downlink

structure SourceUnit where
  participant : ParticipantId
  source : SourceId
  constraints : VideoConstraints
  ladder : Option Ladder
  ladder_of_disabled : constraints.isDisabled = true → ladder = none
deriving DecidableEq

namespace SourceUnit

/-- The unit of a source under the constraints of its participant. -/
def build (config : Config) (strategy : Strategy) (participant : ParticipantId)
    (constraints : VideoConstraints) (source : MediaSource) : SourceUnit :=
  ⟨participant, source.id, constraints, Ladder.of? config strategy constraints source.layers,
    Ladder.of?_eq_none_of_disabled config strategy source.layers⟩

def layers (u : SourceUnit) : List Layer := (u.ladder.map (·.layers)).getD []

theorem layers_eq_nil_iff {u : SourceUnit} : u.layers = [] ↔ u.ladder = none := by
  cases hladder : u.ladder with
  | none => simp [layers, hladder]
  | some ladder =>
    have hne : ladder.layers ≠ [] := List.ne_nil_of_length_pos (Nat.zero_lt_of_lt ladder.ideal_lt)
    simp [layers, hladder, hne]

theorem layers_build (config : Config) (strategy : Strategy) (participant : ParticipantId)
    (constraints : VideoConstraints) (source : MediaSource) :
    (build config strategy participant constraints source).layers =
      if constraints.isDisabled then []
      else Ladder.admitted config strategy constraints source.layers := by
  unfold layers build Ladder.of?
  by_cases hdisabled : constraints.isDisabled = true
  · simp [hdisabled]
  · by_cases hempty : Ladder.admitted config strategy constraints source.layers = [] <;>
      simp [hdisabled, hempty]

def idealIndex (u : SourceUnit) : Option Nat := u.ladder.map (·.ideal)

theorem idealIndex_eq_none_iff {u : SourceUnit} : u.idealIndex = none ↔ u.layers = [] := by
  rw [idealIndex, Option.map_eq_none_iff, layers_eq_nil_iff]

def preferredIndex (u : SourceUnit) : Option Nat := u.ladder.map (·.preferred)

/-- The layer at a position, if there is one. -/
def layer? (u : SourceUnit) (index : Option Nat) : Option Layer := index.bind (u.layers[·]?)

/-- The bitrate of the layer at a position, 0 where there is none. -/
def layerBitrate (u : SourceUnit) (index : Option Nat) : UInt64 :=
  ((u.layer? index).map (·.bitrate)).getD 0

/-- The bitrate of a state, held inside the signed 64-bit range. -/
def bitrate (u : SourceUnit) (state : UnitState) : Int64 :=
  .ofIntClamp (u.layerBitrate state.target).toNat

/-- Moves up to the last affordable layer, and never down. -/
def improve (u : SourceUnit) (state : UnitState) (budget : Int64) : UnitState :=
  match u.ladder.bind (·.affordable? budget) with
  | some i => if rung (some i) < rung state.target then state else { target := some i }
  | none => state

/-- The lowest layer, sent although it may not fit. -/
def forceLowest (u : SourceUnit) : Option UnitState :=
  u.ladder.map fun _ => { target := some 0, oversending := true }

instance : LayerSelection SourceUnit where
  isSuppressed u := u.constraints.isDisabled
  preferred := preferredIndex
  bitrate := bitrate
  improve u state budget := (u.improve state budget, u)
  forceLowest := forceLowest

/-- The second pass finds everything settled. -/
instance : Allocator.PassLimit SourceUnit where
  passLimit _ := 2

/-- The record of a unit in a state. -/
def result (u : SourceUnit) (state : UnitState) : SourceAllocation :=
  { participant := u.participant
    source := u.source
    targetIndex := state.target
    idealIndex := u.idealIndex
    targetLayer := u.layer? state.target
    bitrate := u.layerBitrate state.target
    idealBitrate := u.layerBitrate u.idealIndex
    oversending := state.oversending }

end SourceUnit

/-- The allocation of source units in their states. -/
def Allocator.Outcome.allocation (o : Outcome SourceUnit) : Allocation :=
  ⟨o.units.zipWith SourceUnit.result o.states⟩

end Downlink
