import Downlink.Proofs.Ladder
import Downlink.Proofs.Waterfall.Plenty

/-!
# Presence

Which sources can be sent at all.  A source of which some layer may be sent is forwarded as soon as
there is room for everybody's ideal layer, and at the head of the list it can be forced, whatever
the budget.

That the receiver's limits admit a layer is not enough.  On stage a layer of the preferred height or
more needs the full frame rate as well, and no layer stands in if none has it.

## Results

* `isForwarded_allocate_ideal` — with room for all ideal layers whoever has layers is forwarded.
* `isForwarded_head` — whoever has layers is forwarded at the head of the list, if forcing is on.
* `present_of_eligible` — a source has a place in every allocation if one of its layers may be sent;
  refuted without the rule of the stage by `screen_absent_on_stage`.
-/

set_option autoImplicit false

namespace Downlink

open Allocator

variable {u : SourceUnit} {units : List SourceUnit} {budget : Int64}

theorem SourceUnit.isForwarded_idealState (h : u.layers ≠ []) :
    u.idealState.isForwarded = true := by
  obtain ⟨i, _, htarget⟩ := u.atIdeal_idealState.sent h
  rw [UnitState.isForwarded, htarget]
  rfl

/-- **With room for all ideal layers whoever has layers is forwarded**, wherever it stands. -/
theorem isForwarded_allocate_ideal (force : Bool) (h : (idealLoad units : Int) ≤ budget.toInt)
    {place : Nat} (hu : units[place]? = some u) (hlayers : u.layers ≠ []) :
    ∃ s, (allocate force budget units).states[place]? = some s ∧ s.isForwarded = true := by
  refine ⟨u.idealState, ?_, SourceUnit.isForwarded_idealState hlayers⟩
  rw [(allocate_ideal force h).1, List.getElem?_map, hu]
  rfl

/-- **Whoever has layers is forwarded at the head of the list**, if forcing is on. -/
theorem isForwarded_head (budget : Int64) (units : List SourceUnit) (hlayers : u.layers ≠ []) :
    ∃ s ∈ (allocate true budget (u :: units)).states.head?, s.isForwarded = true := by
  obtain ⟨states, _, hfirst⟩ := exists_firstPass true budget (u :: units)
  obtain ⟨s, rest, rfl, hshare, _⟩ := hfirst.waterfall.exists_cons budget.toInt_lt
  rw [hfirst.allocate_eq]
  exact ⟨s, rfl, hshare.isForwarded hlayers⟩

/-- **A source has a place in every allocation if one of its layers may be sent.**  A unit is left
without layers only where the limits and the stage allow for none.  Where they allow for one, the
source is forwarded under an unlimited budget among any units whose ideal layers it covers; it can
be forced, and at the head of the list it is forwarded whatever the budget. -/
theorem present_of_eligible (config : Config) (strategy : Strategy) (participant : ParticipantId)
    {c : VideoConstraints} (henabled : c.maxHeight ≠ 0) (source : MediaSource) :
    let u := SourceUnit.build config strategy participant c source
    (u.layers ≠ [] ↔ ∃ l ∈ source.layers, Ladder.Eligible config strategy c l) ∧
      ((∃ l ∈ source.layers, Ladder.Eligible config strategy c l) →
        (∀ (force : Bool) (units : List SourceUnit) (place : Nat), units[place]? = some u →
          (idealLoad units : Int) ≤ Int64.maxValue.toInt →
          ∃ s, (allocate force Int64.maxValue units).states[place]? = some s ∧
            s.isForwarded = true) ∧
        u.forceLowest = some { target := some 0, oversending := true } ∧
        ∀ (budget : Int64) (units : List SourceUnit),
          ∃ s ∈ (allocate true budget (u :: units)).states.head?, s.isForwarded = true) := by
  intro u
  have hiff : u.layers ≠ [] ↔ ∃ l ∈ source.layers, Ladder.Eligible config strategy c l :=
    SourceUnit.layers_build_ne_nil_iff henabled
  refine ⟨hiff, fun heligible => ?_⟩
  have hlayers := hiff.mpr heligible
  refine ⟨?_, SourceUnit.forceLowest_of_layers_ne_nil hlayers, ?_⟩
  · intro force units place hu hroom
    exact isForwarded_allocate_ideal force hroom hu hlayers
  · intro budget units
    exact isForwarded_head budget units hlayers

/-! ## A screen on stage -/

/-- A shared screen of the given height, at five frames per second. -/
def screen (height : UInt32) : MediaSource :=
  ⟨⟨"desktop", by decide⟩, [⟨height, .ofNat 5, 1000⟩]⟩

/-- The unit of a screen on stage, wanted and taken up to 720 lines. -/
def screenOnStage (height : UInt32) : SourceUnit :=
  .build {} .stageView ⟨"carol", by decide⟩ (.ofHeight 720) (screen height)

/-- A small screen is sent on stage, behind a camera with room for both, and forced before it. -/
theorem present_of_eligible_small_screen :
    let u := screenOnStage 180
    let camera := twoLayerCamera 100 300 (by decide)
    let behind := allocate false Int64.maxValue [camera, u]
    let before := allocate true 10 [u, camera]
    (VideoConstraints.ofHeight 720).maxHeight ≠ 0 ∧
      Ladder.OnStage {} .stageView (.ofHeight 720) ∧
      u.layers = [⟨180, .ofNat 5, 1000⟩] ∧
      (∃ s, behind.states[1]? = some s ∧ s.isForwarded = true) ∧
      u.forceLowest = some { target := some 0, oversending := true } ∧
      ∃ s ∈ before.states.head?, s.isForwarded = true := by
  intro u camera behind before
  have henabled : (VideoConstraints.ofHeight 720).maxHeight ≠ 0 := by decide
  obtain ⟨_, hpresent⟩ :=
    present_of_eligible {} .stageView ⟨"carol", by decide⟩ henabled (screen 180)
  have heligible : ∃ l ∈ (screen 180).layers,
      Ladder.Eligible {} .stageView (.ofHeight 720) l := by decide +kernel
  obtain ⟨hunlimited, hforceable, hforced⟩ := hpresent heligible
  exact ⟨henabled, by decide, by decide +kernel,
    hunlimited false [camera, u] 1 rfl (by decide +kernel), hforceable, hforced 10 [camera]⟩

/-- **Within the limits of the receiver a source can vanish.**  The one layer of a large screen is
no higher and no faster than it may be, yet on stage nothing of it is left: it is not sent with all
the budget there is, and there is nothing that it could be forced to send. -/
theorem screen_absent_on_stage :
    let u := screenOnStage 720
    (VideoConstraints.ofHeight 720).maxHeight ≠ 0 ∧
      (∃ l ∈ (screen 720).layers, l.height ≤ (VideoConstraints.ofHeight 720).maxHeight ∧
        ∀ limit ∈ (VideoConstraints.ofHeight 720).maxFrameRate, l.frameRate ≤ limit) ∧
      u.layers = [] ∧ (idealLoad [u] : Int) ≤ Int64.maxValue.toInt ∧
      targets (allocate true Int64.maxValue [u]).states = [none] ∧ u.forceLowest = none := by
  intro u
  exact ⟨by decide, by decide, by decide +kernel, by decide +kernel, by decide +kernel,
    by decide +kernel⟩

end Downlink
