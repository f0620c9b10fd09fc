import Downlink.Settings.Basic

/-!
# Selection signaling

The older way to signal a selection: a list of participants, and one cap on the height of them all.
From the two follow a strategy, a selection and constraints.  More than one listed participant
means tiles, and then nobody is moved ahead of the speaker order.

What was derived last is kept, so that a signal which changes nothing is told apart.
-/

set_option autoImplicit false

namespace Downlink

/-- What a selection and a cap amount to. -/
structure DerivedSelection where
  strategy : Strategy := .stageView
  selected : List ParticipantId := []
  constraints : SortedMap ParticipantId VideoConstraints := ∅
deriving DecidableEq

namespace DerivedSelection

/-- The signaling rule. -/
def of (onstageIdealHeight maxFrameHeight : UInt32) (listed : List ParticipantId) :
    DerivedSelection :=
  let constraints := VideoConstraints.ofHeight (min onstageIdealHeight maxFrameHeight)
  { strategy := if 1 < listed.length then .tileView else .stageView
    selected := if 1 < listed.length then [] else listed
    constraints := .ofList (listed.map (·, constraints)) }

/-- The same strategy, selection and constraints, rates compared by value. -/
def agrees (a b : DerivedSelection) : Bool :=
  a.strategy == b.strategy && a.constraints == b.constraints && a.selected == b.selected

end DerivedSelection

/-- What was signaled, and what follows from it. -/
structure SelectionSignaling where
  onstageIdealHeight : UInt32
  maxFrameHeight : UInt32
  listed : List ParticipantId
  derived : DerivedSelection
deriving DecidableEq

namespace SelectionSignaling

/-- Nothing signaled yet: nobody listed, and no cap. -/
def start (onstageIdealHeight : UInt32) : SelectionSignaling :=
  ⟨onstageIdealHeight, 4294967295, [], {}⟩

/-- Derives anew, and tells whether that changed anything. -/
def derive (s : SelectionSignaling) : SelectionSignaling × Bool :=
  let derived := DerivedSelection.of s.onstageIdealHeight s.maxFrameHeight s.listed
  ({ s with derived }, !derived.agrees s.derived)

/-- Signals a list of participants. -/
def setListed (s : SelectionSignaling) (listed : List ParticipantId) : SelectionSignaling × Bool :=
  if s.listed = listed then (s, false) else derive { s with listed }

/-- Signals a cap on the height. -/
def setMaxFrameHeight (s : SelectionSignaling) (maxFrameHeight : UInt32) :
    SelectionSignaling × Bool :=
  if s.maxFrameHeight = maxFrameHeight then (s, false) else derive { s with maxFrameHeight }

/-- The settings with what was derived in them; the limit on participants stays. -/
def applyTo (s : SelectionSignaling) (base : Settings) : Settings :=
  { strategy := s.derived.strategy
    selected := s.derived.selected
    constraints := s.derived.constraints
    lastN := base.lastN }

end SelectionSignaling

end Downlink
