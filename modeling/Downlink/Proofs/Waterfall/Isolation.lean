import Downlink.Proofs.Waterfall.Settling

/-!
# Isolation

What the first units of a list get does not depend on the units behind them.  Later passes work with
a budget that the units behind have been paid from, but they change nothing, and in the waterfall
room only ever runs down the list.

## Results

* `Waterfall.take` — cutting a waterfall's units short cuts its states short.
* `take_states_allocate` — the first units get what they would get alone.
* `allocate_isolates` — lists that begin alike are allocated alike as far as they agree.
-/

set_option autoImplicit false

namespace Downlink

open Allocator

variable {force : Bool} {room : Int} {units : List SourceUnit} {states : List UnitState}

/-- **Cutting a waterfall's units short cuts its states short.** -/
theorem Waterfall.take (h : Waterfall force room units states) (k : Nat) :
    Waterfall force room (units.take k) (states.take k) := by
  induction h generalizing k with
  | dry force room =>
    rw [List.take_nil, List.take_nil]
    exact .dry force room
  | flow hs hw _ ih =>
    cases k with
    | zero => exact .dry ..
    | succ k => exact .flow hs hw (ih k)
  | cutoff units hs hw =>
    cases k with
    | zero => exact .dry ..
    | succ k =>
      rw [List.take_succ_cons, List.take_succ_cons, ← List.map_take]
      exact .cutoff _ hs hw

/-- **The first units get what they would get alone.** -/
theorem take_states_allocate (force : Bool) (budget : Int64) (units : List SourceUnit) (k : Nat) :
    (allocate force budget units).states.take k =
      (allocate force budget (units.take k)).states := by
  obtain ⟨states, _, h⟩ := exists_firstPass force budget units
  obtain ⟨alone, _, halone⟩ := exists_firstPass force budget (units.take k)
  rw [h.allocate_eq, halone.allocate_eq]
  exact (h.waterfall.take k).unique halone.waterfall

/-- The first records are those of the first units alone. -/
theorem take_sources_allocate (force : Bool) (budget : Int64) (units : List SourceUnit) (k : Nat) :
    (allocate force budget units).allocation.sources.take k =
      (allocate force budget (units.take k)).allocation.sources := by
  rw [Outcome.allocation, Outcome.allocation, List.take_zipWith, take_states_allocate,
    (units_allocate force budget units).1, (units_allocate force budget (units.take k)).1]

/-- **Priorities are isolated.**  Where two lists of units begin with the same `k` units, these get
the same states and the same records in both, whoever stands behind them. -/
theorem allocate_isolates (force : Bool) (budget : Int64) {units units' : List SourceUnit} {k : Nat}
    (h : units.take k = units'.take k) :
    let outcome := allocate force budget units
    let outcome' := allocate force budget units'
    outcome.states.length = units.length ∧ outcome'.states.length = units'.length ∧
      outcome.states.take k = outcome'.states.take k ∧
      outcome.allocation.sources.take k = outcome'.allocation.sources.take k := by
  intro outcome outcome'
  refine ⟨(units_allocate force budget units).2, (units_allocate force budget units').2, ?_, ?_⟩
  · rw [take_states_allocate, take_states_allocate, h]
  · rw [take_sources_allocate, take_sources_allocate, h]

/-- A camera that joins costs a second pass, and the one before it keeps its free layer. -/
theorem allocate_isolates_head :
    let head := twoLayerCamera 0 100 (by decide)
    let units := [head]
    let units' := [head, twoLayerCamera 10 20 (by decide)]
    let outcome := allocate true 50 units
    let outcome' := allocate true 50 units'
    units.take 1 = units'.take 1 ∧ outcome.passes = 1 ∧ outcome'.passes = 2 ∧
      targets outcome.states = [some 0] ∧ targets outcome'.states = [some 0, some 1] ∧
      outcome.states.take 1 = outcome'.states.take 1 ∧
      outcome.allocation.sources.take 1 = outcome'.allocation.sources.take 1 := by
  intro head units units' outcome outcome'
  have hhead : units.take 1 = units'.take 1 := rfl
  obtain ⟨_, _, hstates, hsources⟩ := allocate_isolates true 50 hhead
  exact ⟨hhead, by decide, by decide, by decide, by decide, hstates, hsources⟩

end Downlink
