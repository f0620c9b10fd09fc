import Downlink.Constraints

/-!
# Allocation settings

What the receiver asks for: how participants are laid out, whom it selected, the constraints it set
itself, and for how many participants it takes video at most.
-/

set_option autoImplicit false

namespace Downlink

/-- The receiver's layout. -/
inductive Strategy where
  /-- One participant on stage, the others as thumbnails. -/
  | stageView
  /-- Everybody in tiles of one size. -/
  | tileView
deriving DecidableEq, Repr

namespace Strategy

def name : Strategy → String
  | .stageView => "stage_view"
  | .tileView => "tile_view"

def ofName? (name : String) : Option Strategy :=
  if name = "stage_view" then some .stageView
  else if name = "tile_view" then some .tileView
  else none

end Strategy

structure Settings where
  strategy : Strategy := .stageView
  selected : List ParticipantId := []
  constraints : SortedMap ParticipantId VideoConstraints := ∅
  /-- The number of participants with video; no limit if negative. -/
  lastN : Int32 := -1
deriving DecidableEq

/-- The limit on participants with video, if there is one. -/
def Settings.slots (s : Settings) : Option Nat :=
  if s.lastN < 0 then none else some s.lastN.toInt.toNat

end Downlink
