import Downlink.Proofs.Waterfall.Settling

/-!
# Plenty

Where there is room for all ideal layers together, everybody is sent the ideal layer: nobody is left
wanting, so nobody is cut off, and nobody has to be forced.  What a unit gets then does not depend
on its place.

## Results

* `Waterfall.ideal` — with room for all ideal layers these are what runs down.
* `allocation_allocate_ideal` — with a budget for them these are what is allocated.
* `allocate_reaches_ideal` — everybody with a ladder is sent the ideal layer, and what remains is the
  budget less the ideal bitrates.
-/

set_option autoImplicit false

namespace Downlink

open Allocator

variable {force : Bool} {room : Int}

namespace SourceUnit

variable {u : SourceUnit}

/-- The state of sending the ideal layer; a unit without a ladder sends nothing. -/
def idealState (u : SourceUnit) : UnitState := { target := u.idealIndex }

/-- The bitrate of the ideal layer. -/
def idealBitrate (u : SourceUnit) : Nat := (u.layerBitrate u.idealIndex).toNat

/-- An ideal layer that is affordable is the share. -/
theorem share_idealState (h : (u.idealBitrate : Int) ≤ room) :
    u.Share force room u.idealState := by
  cases hideal : u.idealIndex with
  | none =>
    rw [idealState, hideal]
    exact share_of_layers_eq_nil (idealIndex_eq_none_iff.mp hideal)
  | some ideal =>
    rw [idealBitrate, hideal] at h
    rw [idealState, hideal]
    refine .fitting ⟨⟨hideal ▸ Nat.le_refl _, h⟩, ?_⟩
    intro i hi
    have huseful := hi.useful
    rw [hideal] at huseful
    exact Nat.le_of_succ_le_succ huseful

theorem not_isWanting_idealState (u : SourceUnit) : ¬ u.IsWanting u.idealState.target := by
  cases hladder : u.ladder with
  | none => simp [IsWanting, idealState, idealIndex, preferredIndex, hladder]
  | some ladder =>
    have hle := ladder.preferred_le
    simp only [IsWanting, idealState, idealIndex, preferredIndex, hladder, Option.map_some, rung]
    omega

/-- A bitrate within the signed range is accounted for in full. -/
theorem toInt_bitrate_idealState (h : (u.idealBitrate : Int) < 2 ^ 63) :
    (u.bitrate u.idealState).toInt = u.idealBitrate := by
  rw [toInt_bitrate]
  show min (u.idealBitrate : Int) (2 ^ 63 - 1) = u.idealBitrate
  omega

end SourceUnit

/-- The bitrate of all ideal layers together. -/
def idealLoad (units : List SourceUnit) : Nat := (units.map (·.idealBitrate)).sum

@[simp] theorem idealLoad_cons (u : SourceUnit) (units : List SourceUnit) :
    idealLoad (u :: units) = u.idealBitrate + idealLoad units := rfl

theorem idealLoad_perm {units units' : List SourceUnit} (h : units.Perm units') :
    idealLoad units = idealLoad units' := (h.map _).sum_eq

variable {units : List SourceUnit}

/-- **With room for all ideal layers these are what runs down.** -/
theorem Waterfall.ideal (h : (idealLoad units : Int) ≤ room) (hroom : room < 2 ^ 63) :
    Waterfall force room units (units.map (·.idealState)) := by
  induction units generalizing force room with
  | nil => exact .dry force room
  | cons u units ih =>
    rw [idealLoad_cons] at h
    rw [List.map_cons]
    have hbitrate : (u.bitrate u.idealState).toInt = u.idealBitrate :=
      SourceUnit.toInt_bitrate_idealState (by omega)
    -- nobody is left wanting, so what is left over flows on
    refine .flow (SourceUnit.share_idealState (by omega)) u.not_isWanting_idealState ?_
    exact ih (by omega) (by omega)

/-- The ideal bitrates in the records are those of the units. -/
theorem idealBitrate_allocation_allocate (force : Bool) (budget : Int64)
    (units : List SourceUnit) :
    (allocate force budget units).allocation.idealBitrate = idealLoad units := by
  suffices hstates : ∀ (units : List SourceUnit) (states : List UnitState),
      states.length = units.length →
        (⟨units.zipWith SourceUnit.result states⟩ : Allocation).idealBitrate = idealLoad units by
    obtain ⟨hunits, hlength⟩ := units_allocate force budget units
    rw [Outcome.allocation, hunits]
    exact hstates units _ hlength
  intro units
  induction units with
  | nil => exact fun _ _ => rfl
  | cons u units ih =>
    intro states hlength
    obtain ⟨s, states, rfl⟩ := List.exists_cons_of_length_eq_add_one hlength
    rw [idealLoad_cons, ← ih states (Nat.succ.inj hlength)]
    rfl

theorem spending_ideal (h : (idealLoad units : Int) < 2 ^ 63) :
    spending units (units.map (·.idealState)) = idealLoad units := by
  induction units with
  | nil => rfl
  | cons u units ih =>
    rw [idealLoad_cons] at h
    have hbitrate : (u.bitrate u.idealState).toInt = u.idealBitrate :=
      SourceUnit.toInt_bitrate_idealState (by omega)
    rw [List.map_cons, spending_cons, idealLoad_cons, hbitrate, ih (by omega)]
    omega

/-- With a budget for all ideal layers everybody ends at the ideal layer, and nothing is clamped in
reckoning what remains. -/
theorem allocate_ideal (force : Bool) {budget : Int64}
    (h : (idealLoad units : Int) ≤ budget.toInt) :
    (allocate force budget units).states = units.map (·.idealState) ∧
      (allocate force budget units).remaining.toInt = budget.toInt - idealLoad units := by
  obtain ⟨states, left, hfirst⟩ := exists_firstPass force budget units
  have hstates : states = units.map (·.idealState) :=
    hfirst.waterfall.unique (.ideal h budget.toInt_lt)
  have hspending := spending_ideal (Int.lt_of_le_of_lt h budget.toInt_lt)
  have hlt := budget.toInt_lt
  rw [hfirst.allocate_eq]
  refine ⟨hstates, ?_⟩
  show left.toInt = budget.toInt - idealLoad units
  rw [hfirst.left_eq, hstates, hspending, toInt_ofIntClamp_eq]
  omega

/-- **With a budget for all ideal layers these are what is allocated.** -/
theorem allocation_allocate_ideal {budget : Int64} (h : (idealLoad units : Int) ≤ budget.toInt) :
    (allocate force budget units).allocation = ⟨units.map fun u => u.result u.idealState⟩ := by
  rw [Outcome.allocation, (units_allocate force budget units).1, (allocate_ideal force h).1,
    List.zipWith_map_right, List.zipWith_self]

/-- The unit is sent its ideal layer, or nothing if it has no ladder, and does not oversend. -/
structure SourceUnit.AtIdeal (u : SourceUnit) (s : UnitState) : Prop where
  sent : u.layers ≠ [] → ∃ i, u.idealIndex = some i ∧ s.target = some i
  idle : u.layers = [] → s.target = none
  not_oversending : s.oversending = false

theorem SourceUnit.atIdeal_idealState (u : SourceUnit) : u.AtIdeal u.idealState where
  sent hne := by
    obtain ⟨i, hi⟩ := Option.ne_none_iff_exists'.mp (mt idealIndex_eq_none_iff.mp hne)
    exact ⟨i, hi, hi⟩
  idle hempty := idealIndex_eq_none_iff.mpr hempty
  not_oversending := rfl

/-- **Room for all ideal layers is enough for everybody.**  Whoever has a ladder is sent exactly its
ideal layer, the others nothing, nobody oversends, forced or not, and of the budget there remains
what the ideal layers do not cost. -/
theorem allocate_reaches_ideal (force : Bool) {units : List SourceUnit} {budget : Int64}
    (h : (idealLoad units : Int) ≤ budget.toInt) :
    let outcome := allocate force budget units
    List.Forall₂ SourceUnit.AtIdeal units outcome.states ∧
      outcome.remaining.toInt = budget.toInt - idealLoad units := by
  obtain ⟨hstates, hremaining⟩ := allocate_ideal force h
  intro outcome
  refine ⟨?_, hremaining⟩
  rw [show outcome.states = _ from hstates, List.forall₂_map_right_iff, List.forall₂_same]
  intro u _
  exact u.atIdeal_idealState

/-- Two cameras take the greatest budget to the last bit, and a third one is sent at no cost. -/
theorem allocate_reaches_ideal_last_bit :
    let half := 4611686018427387904
    let units := [twoLayerCamera 0 half (by decide), twoLayerCamera 100 (half - 1) (by decide),
      twoLayerCamera 0 0 (by decide)]
    let outcome := allocate true Int64.maxValue units
    (idealLoad units : Int) ≤ Int64.maxValue.toInt ∧
      List.Forall₂ SourceUnit.AtIdeal units outcome.states ∧
      outcome.remaining.toInt = Int64.maxValue.toInt - idealLoad units ∧ outcome.remaining = 0 := by
  intro half units outcome
  have hroom : (idealLoad units : Int) ≤ Int64.maxValue.toInt := by decide
  obtain ⟨hideal, hremaining⟩ := allocate_reaches_ideal true hroom
  exact ⟨hroom, hideal, hremaining, by decide⟩

end Downlink
