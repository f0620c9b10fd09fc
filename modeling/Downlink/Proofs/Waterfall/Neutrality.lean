import Downlink.Proofs.Waterfall.Optimality
import Downlink.Proofs.Waterfall.Presence

/-!
# Neutrality

Units without layers take nothing, leave nobody waiting and cut nobody off, so the others are served
as if they were not there.  Such are the sources of disabled participants, and sources of which no
layer is admitted.

At the head of the list they do matter when forcing is on, since only the head can be forced.

## Results

* `Waterfall.filter` — dropping units without layers from a waterfall drops their states.
* `spending_filter` — it changes nothing in what is spent.
* `allocate_ignores_inert` — what is allocated to the others does not depend on them.
-/

set_option autoImplicit false

namespace Downlink

open Allocator

variable {force : Bool} {room : Int} {units : List SourceUnit} {states : List UnitState}

namespace SourceUnit

variable {u : SourceUnit}

/-- The unit has a layer to be sent at. -/
def hasLayers (u : SourceUnit) : Bool := !u.layers.isEmpty

theorem hasLayers_iff : u.hasLayers = true ↔ u.layers ≠ [] := by
  simp [hasLayers]

theorem not_hasLayers_iff : ¬ u.hasLayers = true ↔ u.layers = [] := by
  simp [hasLayers]

theorem bitrate_of_layers_eq_nil (h : u.layers = []) (s : UnitState) : u.bitrate s = 0 := by
  have hnone : u.layer? s.target = none := by
    cases s.target <;> simp [layer?, h]
  rw [bitrate, layerBitrate, hnone]
  rfl

end SourceUnit

/-! ## Dropping states along with their units -/

/-- The states of those units that have layers. -/
def statesWithLayers (units : List SourceUnit) (states : List UnitState) : List UnitState :=
  ((units.zip states).filter (·.1.hasLayers)).map (·.2)

theorem statesWithLayers_cons_of_pos {u : SourceUnit} (h : u.hasLayers = true) (s : UnitState) :
    statesWithLayers (u :: units) (s :: states) = s :: statesWithLayers units states := by
  simp [statesWithLayers, h]

theorem statesWithLayers_cons_of_neg {u : SourceUnit} (h : ¬ u.hasLayers = true) (s : UnitState) :
    statesWithLayers (u :: units) (s :: states) = statesWithLayers units states := by
  simp [statesWithLayers, h]

theorem statesWithLayers_idle (units : List SourceUnit) :
    statesWithLayers units (units.map fun _ => {}) =
      (units.filter (·.hasLayers)).map fun _ => {} := by
  induction units with
  | nil => rfl
  | cons u units ih =>
    rw [List.map_cons]
    by_cases h : u.hasLayers = true
    · rw [statesWithLayers_cons_of_pos h, List.filter_cons_of_pos h, ih, List.map_cons]
    · rw [statesWithLayers_cons_of_neg h, List.filter_cons_of_neg h, ih]

/-- **Units without layers spend nothing**, in whatever state. -/
theorem spending_filter (hlength : states.length = units.length) :
    spending (units.filter (·.hasLayers)) (statesWithLayers units states) =
      spending units states := by
  induction units generalizing states with
  | nil => rfl
  | cons u units ih =>
    obtain ⟨s, states, rfl⟩ := List.exists_cons_of_length_eq_add_one hlength
    have htail := ih (Nat.succ.inj hlength)
    by_cases h : u.hasLayers = true
    · rw [statesWithLayers_cons_of_pos h, List.filter_cons_of_pos h, spending_cons, spending_cons,
        htail]
    · have hzero := SourceUnit.bitrate_of_layers_eq_nil (SourceUnit.not_hasLayers_iff.mp h) s
      rw [statesWithLayers_cons_of_neg h, List.filter_cons_of_neg h, spending_cons, hzero, htail,
        Int64.toInt_zero, Int.zero_add]

/-! ## The waterfall -/

namespace Waterfall

/-- Units without layers are sent nothing. -/
theorem eq_idle_of_layers_eq_nil (h : Waterfall force room units states) :
    ∀ p ∈ units.zip states, p.1.layers = [] → p.2 = {} := by
  induction h with
  | dry => simp
  | flow hs _ _ ih =>
    rw [List.zip_cons_cons, List.forall_mem_cons]
    exact ⟨fun hnil => hs.unique (SourceUnit.share_of_layers_eq_nil hnil), ih⟩
  | cutoff units hs _ =>
    rw [List.zip_cons_cons, List.forall_mem_cons]
    refine ⟨fun hnil => hs.unique (SourceUnit.share_of_layers_eq_nil hnil), ?_⟩
    intro p hp _
    obtain ⟨_, _, heq⟩ := List.mem_map.mp (List.of_mem_zip hp).2
    exact heq.symm

/-- **Dropping units without layers from a waterfall drops their states**, unless one of them stands
where a unit may be forced. -/
theorem filter (h : Waterfall force room units states)
    (hhead : force = false ∨ ∀ u ∈ units.head?, u.layers ≠ []) :
    Waterfall force room (units.filter (·.hasLayers)) (statesWithLayers units states) := by
  induction h with
  | dry force room => exact .dry force room
  | @flow force room u s units states hs hw _ ih =>
    have htail := ih (.inl rfl)
    by_cases h : u.hasLayers = true
    · rw [statesWithLayers_cons_of_pos h, List.filter_cons_of_pos h]
      exact .flow hs hw htail
    · have hnil := SourceUnit.not_hasLayers_iff.mp h
      -- the unit behind moves up to the head, where it must not become one that may be forced
      have hforce : force = false := hhead.resolve_right fun hne => hne u rfl hnil
      rw [SourceUnit.bitrate_of_layers_eq_nil hnil, Int64.toInt_zero, Int.sub_zero] at htail
      rw [statesWithLayers_cons_of_neg h, List.filter_cons_of_neg h, hforce]
      exact htail
  | cutoff units hs hw =>
    have h := SourceUnit.hasLayers_iff.mpr hw.layers_ne_nil
    rw [statesWithLayers_cons_of_pos h, List.filter_cons_of_pos h, statesWithLayers_idle]
    exact .cutoff _ hs hw

end Waterfall

/-! ## Allocating -/

/-- **Units without layers are neutral.**  Unless the head of the list is one of them and forcing is
on, they are sent nothing, and allocating without them leaves the states of all others and the
remaining budget as they are. -/
theorem allocate_ignores_inert (budget : Int64)
    (hhead : force = false ∨ ∀ u ∈ units.head?, u.layers ≠ []) :
    let outcome := allocate force budget units
    let without := allocate force budget (units.filter (·.hasLayers))
    outcome.states.length = units.length ∧
      (∀ p ∈ units.zip outcome.states, p.1.layers = [] → p.2 = {}) ∧
      without.states = statesWithLayers units outcome.states ∧
      without.remaining = outcome.remaining := by
  obtain ⟨states, left, h⟩ := exists_firstPass force budget units
  obtain ⟨others, left', h'⟩ := exists_firstPass force budget (units.filter (·.hasLayers))
  have hlength := h.waterfall.length_eq
  have hstates : others = statesWithLayers units states :=
    h'.waterfall.unique (h.waterfall.filter hhead)
  have hleft : left' = left := by
    rw [h'.left_eq, h.left_eq, hstates, spending_filter hlength]
  intro outcome without
  rw [show outcome = _ from h.allocate_eq, show without = _ from h'.allocate_eq]
  exact ⟨hlength, h.waterfall.eq_idle_of_layers_eq_nil, hstates, hleft⟩

/-- Between two cameras stand a screen that the stage does not admit and one of a participant of
whom no video is taken. -/
theorem allocate_ignores_inert_between_cameras :
    let disabled := SourceUnit.build {} .stageView ⟨"carol", by decide⟩ .disabled (screen 180)
    let units := [twoLayerCamera 100 300 (by decide), screenOnStage 720, disabled,
      twoLayerCamera 10 20 (by decide)]
    let outcome := allocate true 120 units
    let without := allocate true 120 (units.filter (·.hasLayers))
    (∀ u ∈ units.head?, u.layers ≠ []) ∧ (screenOnStage 720).layers = [] ∧
      disabled.constraints.isDisabled = true ∧
      targets outcome.states = [some 0, none, none, some 1] ∧
      targets without.states = [some 0, some 1] ∧
      without.states = statesWithLayers units outcome.states ∧
      without.remaining = outcome.remaining := by
  intro disabled units outcome without
  have hhead : ∀ u ∈ units.head?, u.layers ≠ [] := by decide +kernel
  obtain ⟨_, _, hstates, hremaining⟩ := allocate_ignores_inert 120 (.inr hhead)
  exact ⟨hhead, by decide +kernel, by decide, by decide +kernel, by decide +kernel, hstates,
    hremaining⟩

/-- A screen without layers at the head of the list keeps the camera behind it from being forced. -/
example :
    let camera := twoLayerCamera 10 20 (by decide)
    targets (allocate true 5 [screenOnStage 720, camera]).states = [none, none] ∧
      targets (allocate true 5 [camera]).states = [some 0] := by
  decide +kernel

end Downlink
