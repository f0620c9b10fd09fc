import Downlink.Proofs.Waterfall.Settling

/-!
# Coherence of records

A record looks its layers up by position, so a position out of the ladder would pass for a source
that is forwarded in no layer.  No unit is ever in such a state: a unit keeps to its ladder when it
chooses within a budget and when it is forced, hence in a pass, and in all passes of a settling.

## Results

* `SourceUnit.Sound.answer` — a unit that keeps to its ladder goes on doing so, whatever it is
  offered.
* `sound_pass`, `sound_of_reached` — so do all units in a pass, and in every pass of a settling.
* `SourceUnit.Sound.isCoherent_result` — then what is reported of the unit fits together.
* `allocate_coherent` — so do the records of an allocation, and their totals.
-/

set_option autoImplicit false

namespace Downlink

open Allocator LayerSelection

variable {force : Bool} {budget : Int64} {units : List SourceUnit}

/-! ## Keeping to the ladder -/

namespace SourceUnit

variable {u : SourceUnit} {s : UnitState}

/-- The state keeps to the unit's ladder: it is no higher than ideal, and who sends nothing does not
oversend. -/
structure Sound (u : SourceUnit) (s : UnitState) : Prop where
  useful : rung s.target ≤ rung u.idealIndex
  idle : s.target = none → s.oversending = false

theorem sound_idle (u : SourceUnit) : u.Sound {} := ⟨Nat.zero_le _, fun _ => rfl⟩

theorem sound_of_forceLowest (h : u.forceLowest = some s) : u.Sound s := by
  have hlayers : u.layers ≠ [] := by
    intro hempty
    rw [forceLowest_eq_none_iff.mpr hempty] at h
    cases h
  rw [forceLowest_of_layers_ne_nil hlayers] at h
  cases h
  exact ⟨rung_zero_le hlayers, fun htarget => nomatch htarget⟩

namespace Sound

theorem improve (h : u.Sound s) (budget : Int64) : u.Sound (u.improve s budget) := by
  unfold SourceUnit.improve
  split
  · rename_i i found
    have hfits := (affordable?_eq_some_iff.mp found).1
    split
    · exact h
    · exact ⟨hfits.useful, fun htarget => nomatch htarget⟩
  · exact h

/-- **A unit that keeps to its ladder goes on doing so**, whatever it is offered. -/
theorem answer (h : u.Sound s) (force : Bool) (budget : Int64) :
    u.Sound (u.answer force s budget) := by
  unfold SourceUnit.answer
  simp only
  cases hforced : (⟨u, u.improve s budget⟩ : Slot SourceUnit).forced? force with
  | none => exact h.improve budget
  | some t =>
    -- being forced leads to the lowest layer, wherever the unit was before
    apply sound_of_forceLowest
    unfold Slot.forced? at hforced
    split at hforced
    · exact hforced
    · cases hforced

end Sound

end SourceUnit

/-- The unit of the slot keeps to its ladder. -/
def Slot.Sound (s : Slot SourceUnit) : Prop := s.unit.Sound s.state

theorem Slot.Sound.serve {s : Slot SourceUnit} (h : s.Sound) (force : Bool) (remaining : Int64) :
    (s.serve force remaining).1.Sound := by
  rw [show s.serve force remaining = _ from SourceUnit.serve_eq force remaining s.unit s.state]
  exact SourceUnit.Sound.answer h ..

/-- **In a pass every unit keeps to its ladder**, also where the pass stops midway. -/
theorem sound_pass {slots : List (Slot SourceUnit)} (h : ∀ s ∈ slots, s.Sound)
    (force : Bool) (remaining : Int64) : ∀ s ∈ (pass force remaining slots).1, s.Sound := by
  induction slots generalizing force remaining with
  | nil =>
    intro s hs
    cases hs
  | cons s rest ih =>
    obtain ⟨hhead, hrest⟩ := List.forall_mem_cons.mp h
    cases hsuppressed : isSuppressed s.unit with
    | true =>
      rw [pass_cons_suppressed hsuppressed]
      exact List.forall_mem_cons.mpr ⟨hhead, ih hrest false remaining⟩
    | false =>
      have hserved := hhead.serve force remaining
      rw [pass_cons_served hsuppressed rfl]
      split
      · -- the pass stops here, and the others stay as they are
        exact List.forall_mem_cons.mpr ⟨hserved, hrest⟩
      · exact List.forall_mem_cons.mpr ⟨hserved, ih hrest false _⟩

/-- **In a settling no pass leads out of a ladder.** -/
theorem sound_of_reached {p : Progress SourceUnit}
    (h : Progress.Reached force (Progress.start budget units) p) : ∀ s ∈ p.slots, s.Sound := by
  induction h with
  | start =>
    intro s hs
    obtain ⟨u, _, rfl⟩ := List.mem_map.mp hs
    exact u.sound_idle
  | @advance p _ _ _ ih => exact sound_pass ih force p.remaining

/-- What is allocated is what a settling comes through at some time. -/
theorem exists_reached_allocate (force : Bool) (budget : Int64) (units : List SourceUnit) :
    ∃ p, Progress.Reached force (Progress.start budget units) p ∧
      p.slots = List.zipWith Slot.mk units (allocate force budget units).states := by
  obtain ⟨states, _, h⟩ := exists_firstPass force budget units
  -- the first pass is never discarded, and the ones after it change nothing
  refine ⟨_, .advance .start rfl (not_drops_start force budget units), ?_⟩
  rw [h.advance_eq, h.allocate_eq]

/-- **What is allocated keeps to the ladders.** -/
theorem sound_allocate (force : Bool) (budget : Int64) (units : List SourceUnit) :
    List.Forall₂ SourceUnit.Sound units (allocate force budget units).states := by
  obtain ⟨p, hreached, hslots⟩ := exists_reached_allocate force budget units
  have hsound := sound_of_reached hreached
  rw [hslots, ← List.map_uncurry_zip_eq_zipWith, List.forall_mem_map] at hsound
  rw [List.forall₂_iff_zip]
  exact ⟨(units_allocate force budget units).2.symm, fun hmem => hsound _ hmem⟩

/-! ## Records -/

namespace SourceAllocation

/-- The record fits together, and fits the unit that it is of. -/
structure IsCoherent (r : SourceAllocation) (u : SourceUnit) : Prop where
  participant_eq : r.participant = u.participant
  source_eq : r.source = u.source
  idealIndex_eq : r.idealIndex = u.idealIndex
  ideal : ∀ i, r.idealIndex = some i → ∃ l, u.layers[i]? = some l ∧ r.idealBitrate = l.bitrate
  /-- Who is forwarded is so in a layer of the ladder, no higher than ideal, at its bitrate. -/
  forwarded : ∀ i, r.targetIndex = some i → ∃ l, u.layers[i]? = some l ∧
    r.targetLayer = some l ∧ r.bitrate = l.bitrate ∧ ∃ j, r.idealIndex = some j ∧ i ≤ j
  idle : r.targetIndex = none → r.targetLayer = none ∧ r.bitrate = 0 ∧ r.oversending = false
  bitrate_le : r.bitrate ≤ r.idealBitrate

/-- The state that a record reports. -/
def state (r : SourceAllocation) : UnitState := ⟨r.targetIndex, r.oversending⟩

end SourceAllocation

namespace SourceUnit

variable {u : SourceUnit} {s : UnitState}

/-- No higher than the ideal layer there is a layer at every position. -/
theorem exists_layer_of_useful {i : Nat} (h : rung (some i) ≤ rung u.idealIndex) :
    ∃ l, u.layer? (some i) = some l := by
  cases hladder : u.ladder with
  | none => simp [idealIndex, hladder, rung] at h
  | some ladder =>
    have hlt := ladder.ideal_lt
    simp only [idealIndex, hladder, Option.map_some, rung] at h
    have hi : i < ladder.layers.length := by omega
    refine ⟨ladder.layers[i], ?_⟩
    simp [layer?, layers, hladder, hi]

theorem layerBitrate_of_layer? {index : Option Nat} {l : Layer} (h : u.layer? index = some l) :
    u.layerBitrate index = l.bitrate := by
  simp [layerBitrate, h]

theorem layerBitrate_le_ideal {index : Option Nat} (h : rung index ≤ rung u.idealIndex) :
    u.layerBitrate index ≤ u.layerBitrate u.idealIndex := by
  cases index with
  | none => simp
  | some i =>
    cases hideal : u.idealIndex with
    | none => simp [hideal, rung] at h
    | some j =>
      rw [hideal] at h
      exact layerBitrate_mono (Nat.le_of_succ_le_succ h) (by rw [hideal])

/-- **What is reported of a unit that keeps to its ladder fits together.** -/
theorem Sound.isCoherent_result (h : u.Sound s) : (u.result s).IsCoherent u where
  participant_eq := rfl
  source_eq := rfl
  idealIndex_eq := rfl
  ideal i hi := by
    have hi : u.idealIndex = some i := hi
    obtain ⟨l, hl⟩ := exists_layer_of_useful (u := u) (i := i) (by rw [hi])
    exact ⟨l, hl, by simp [result, hi, layerBitrate_of_layer? hl]⟩
  forwarded i hi := by
    have hi : s.target = some i := hi
    have huseful := h.useful
    rw [hi] at huseful
    obtain ⟨l, hl⟩ := exists_layer_of_useful huseful
    refine ⟨l, hl, by simp [result, hi, hl], by simp [result, hi, layerBitrate_of_layer? hl], ?_⟩
    cases hideal : u.idealIndex with
    | none => simp [hideal, rung] at huseful
    | some j =>
      rw [hideal] at huseful
      exact ⟨j, hideal, Nat.le_of_succ_le_succ huseful⟩
  idle hi := by
    have hi : s.target = none := hi
    exact ⟨by simp [result, hi, layer?], by simp [result, hi], h.idle hi⟩
  bitrate_le := layerBitrate_le_ideal h.useful

end SourceUnit

/-- A record of an allocation is the result of a unit in a state that keeps to its ladder. -/
theorem exists_unit_of_mem_allocation {r : SourceAllocation}
    (h : r ∈ (allocate force budget units).allocation.sources) :
    ∃ u ∈ units, ∃ s, u.Sound s ∧ r = u.result s := by
  rw [Outcome.allocation, (units_allocate force budget units).1,
    ← List.map_uncurry_zip_eq_zipWith] at h
  obtain ⟨⟨u, s⟩, hmem, rfl⟩ := List.mem_map.mp h
  have hsound := (List.forall₂_iff_zip.mp (sound_allocate force budget units)).2 hmem
  exact ⟨u, (List.of_mem_zip hmem).1, s, hsound, rfl⟩

theorem forall₂_isCoherent_result {states : List UnitState}
    (h : List.Forall₂ SourceUnit.Sound units states) :
    List.Forall₂ (fun u r => r.IsCoherent u) units (units.zipWith SourceUnit.result states) := by
  induction h with
  | nil => exact .nil
  | cons hsound _ ih => exact .cons hsound.isCoherent_result ih

theorem map_state_result {states : List UnitState} (h : states.length = units.length) :
    (units.zipWith SourceUnit.result states).map (·.state) = states := by
  have hslots := map_state_zipWith h
  rw [List.map_zipWith] at hslots ⊢
  exact hslots

namespace Allocation

theorem targetBitrate_le_idealBitrate {a : Allocation}
    (h : ∀ r ∈ a.sources, r.bitrate ≤ r.idealBitrate) : a.targetBitrate ≤ a.idealBitrate := by
  obtain ⟨records⟩ := a
  induction records with
  | nil => exact Nat.le_refl 0
  | cons r records ih =>
    obtain ⟨hhead, hrest⟩ := List.forall_mem_cons.mp h
    have := UInt64.le_iff_toNat_le.mp hhead
    have := ih hrest
    simp only [targetBitrate, idealBitrate, List.foldr_cons] at *
    omega

/-- Who is forwarded can be told from the states reported. -/
theorem forwardedCount_eq (a : Allocation) :
    a.forwardedCount = (a.sources.map (·.state)).countP (·.isForwarded) := by
  rw [List.countP_map]
  rfl

end Allocation

/-- **The records of an allocation are coherent.**  There is one for each unit, in the order of the
units.  A unit that is forwarded is so in a layer of its ladder, no higher than ideal, and at the
bitrate of that layer; one that is not has no layer, no bitrate, and does not oversend.  So no more
is sent than would be ideal, of any unit and in all, and who is forwarded can be told from the
states as well as from the records. -/
theorem allocate_coherent (force : Bool) (budget : Int64) (units : List SourceUnit) :
    let outcome := allocate force budget units
    let allocation := outcome.allocation
    List.Forall₂ (fun u r => r.IsCoherent u) units allocation.sources ∧
      allocation.targetBitrate ≤ allocation.idealBitrate ∧
      allocation.sources.map (·.state) = outcome.states ∧
      allocation.sources.map (·.isForwarded) = outcome.states.map (·.isForwarded) ∧
      allocation.forwardedCount = outcome.forwardedCount := by
  intro outcome allocation
  obtain ⟨hunits, hlength⟩ := units_allocate force budget units
  have hsources : allocation.sources = units.zipWith SourceUnit.result outcome.states := by
    show List.zipWith _ outcome.units _ = _
    rw [hunits]
  have hcoherent := forall₂_isCoherent_result (sound_allocate force budget units)
  rw [← hsources] at hcoherent
  have hstates : allocation.sources.map (·.state) = outcome.states := by
    rw [hsources, map_state_result hlength]
  refine ⟨hcoherent, ?_, hstates, ?_, ?_⟩
  · apply Allocation.targetBitrate_le_idealBitrate
    intro r hr
    obtain ⟨u, _, s, hsound, rfl⟩ := exists_unit_of_mem_allocation hr
    exact hsound.isCoherent_result.bitrate_le
  · rw [← hstates, List.map_map]
    rfl
  · rw [Allocation.forwardedCount_eq, hstates]
    rfl

end Downlink
