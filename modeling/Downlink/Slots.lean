import Downlink.Config.Basic
import Downlink.Media
import Downlink.Settings.Basic

/-!
# Slots

The receiver takes video of a limited number of participants.  Those it asked for, by constraints or
by selecting them on stage, claim slots first, in order of priority; the remaining slots go to the
others as thumbnails.  Whoever gets no slot is disabled, and whoever is not wanted takes none.

## Results

* `SlotPolicy.length_granted_le` — no more are granted video than there are slots.
-/

set_option autoImplicit false

namespace Downlink

/-- A rule for the constraints in force, given the members to serve and the settings. -/
abbrev ConstraintsPolicy := List Member → Settings → EffectiveConstraints

/-- The heights that the slot rule hands out. -/
structure SlotPolicy where
  thumbnailMaxHeight : UInt32
  onstageIdealHeight : UInt32
deriving DecidableEq

namespace SlotPolicy

def ofConfig (c : Config) : SlotPolicy := ⟨c.thumbnailMaxHeight, c.onstageIdealHeight⟩

/-- The constraints asked for a participant: set by the receiver, or due to its place on stage. -/
def asked? (p : SlotPolicy) (settings : Settings) (id : ParticipantId) : Option VideoConstraints :=
  match settings.constraints.find? id with
  | some c => some c
  | none =>
    if settings.strategy = .stageView ∧ settings.selected.contains id then
      some (.ofHeight p.onstageIdealHeight)
    else none

/-- Grants requests in order as long as there are slots. -/
def grant : Option Nat → List (ParticipantId × VideoConstraints) →
    List (ParticipantId × VideoConstraints)
  | _, [] => []
  | slots, (id, c) :: rest =>
    if c.isDisabled then (id, c) :: grant slots rest
    else if slots = some 0 then (id, .disabled) :: grant slots rest
    else (id, c) :: grant (slots.map (· - 1)) rest

theorem length_granted_le (slots : Nat) (requests : List (ParticipantId × VideoConstraints)) :
    ((grant (some slots) requests).filter fun e => !e.2.isDisabled).length ≤ slots := by
  induction requests generalizing slots with
  | nil => exact Nat.zero_le _
  | cons e rest ih =>
    obtain ⟨id, c⟩ := e
    rw [grant]
    split
    · rename_i hdisabled
      rw [List.filter_cons_of_neg (by simp [hdisabled])]
      exact ih slots
    · split
      · rename_i hnone
        cases hnone
        rw [List.filter_cons_of_neg (by simp)]
        exact ih 0
      · rename_i henabled hsome
        have hrest := ih (slots - 1)
        have hpos : slots ≠ 0 := fun h => hsome (congrArg some h)
        rw [List.filter_cons_of_pos (by simp [henabled]), List.length_cons, Option.map_some]
        omega

/-- The requests in the order in which they claim slots. -/
def requests (p : SlotPolicy) (settings : Settings) (ids : List ParticipantId) :
    List (ParticipantId × VideoConstraints) :=
  ids.filterMap (fun id => (p.asked? settings id).map (id, ·))
    ++ (ids.filter fun id => (p.asked? settings id).isNone).map (·, .ofHeight p.thumbnailMaxHeight)

/-- The slot rule. -/
def effective (p : SlotPolicy) : ConstraintsPolicy := fun ordered settings =>
  .ofList (grant settings.slots (p.requests settings (ordered.map (·.id))))

end SlotPolicy

end Downlink
