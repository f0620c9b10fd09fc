import Downlink.Proofs.Coherence
import Downlink.Proofs.Controller.Steps
import Downlink.Proofs.Sameness

/-!
# The records of an allocation

Every record of an allocation that a controller computes is of a source that some member publishes,
and if it is forwarded, then in one of the layers that the constraints of the member admit.

## Results

* `Controller.exists_source_of_mem_called` — where a record comes from, and what it says.
* `Controller.rateIsNumber_called` — layers with numbers for rates give records with such.
-/

set_option autoImplicit false

namespace Downlink

open Allocator

namespace SourceUnit

variable {u : SourceUnit}

theorem mem_layers_of_layer? {index : Option Nat} {l : Layer} (h : u.layer? index = some l) :
    l ∈ u.layers := by
  obtain ⟨i, _, hl⟩ := Option.bind_eq_some_iff.mp h
  exact List.mem_of_getElem? hl

end SourceUnit

/-- The record is of the member's source, under constraints for the member. -/
structure SourceAllocation.IsOf (r : SourceAllocation) (m : Member) (source : MediaSource)
    (constraints : VideoConstraints) : Prop where
  participant_eq : r.participant = m.id
  source_eq : r.source = source.id
  layer_isSome : r.isForwarded = true → r.targetLayer.isSome = true
  /-- A layer sent is one that the source publishes and the constraints admit. -/
  layer : ∀ l ∈ r.targetLayer,
    l ∈ source.layers ∧ constraints.isDisabled = false ∧ Ladder.admits constraints l = true

theorem SourceUnit.isOf_result_build (config : Config) (strategy : Strategy) (m : Member)
    (constraints : VideoConstraints) (source : MediaSource) {s : UnitState}
    (h : rung s.target ≤ rung (build config strategy m.id constraints source).idealIndex) :
    ((build config strategy m.id constraints source).result s).IsOf m source constraints where
  participant_eq := rfl
  source_eq := rfl
  layer_isSome hforwarded := by
    obtain ⟨i, hi⟩ := Option.isSome_iff_exists.mp hforwarded
    have hi : s.target = some i := hi
    rw [hi] at h
    obtain ⟨l, hl⟩ := exists_layer_of_useful h
    rw [result, hi, hl]
    rfl
  layer l hl := by
    have hmem := mem_layers_of_layer? hl
    rw [layers_build] at hmem
    by_cases hdisabled : constraints.isDisabled = true
    · rw [if_pos hdisabled] at hmem
      cases hmem
    · rw [if_neg hdisabled] at hmem
      obtain ⟨hsource, hadmits, _⟩ := Ladder.mem_admitted.mp hmem
      exact ⟨hsource, Bool.eq_false_of_not_eq_true hdisabled, hadmits⟩

/-- The rate of every layer that is published is a number. -/
def Conference.RatesAreNumbers (conference : Conference) : Prop :=
  ∀ m ∈ conference.members, ∀ source ∈ m.sources, ∀ l ∈ source.layers, l.frameRate.isNaN = false

instance (conference : Conference) : Decidable conference.RatesAreNumbers :=
  inferInstanceAs (Decidable (∀ m ∈ conference.members, ∀ source ∈ m.sources,
    ∀ l ∈ source.layers, l.frameRate.isNaN = false))

namespace Controller

variable {c : Controller} {s : State} {r : SourceAllocation}

theorem mem_units {config : Config} {strategy : Strategy} {effective : EffectiveConstraints}
    {ordered : List Member} {u : SourceUnit} :
    u ∈ units config strategy effective ordered ↔ ∃ m ∈ ordered, ∃ source ∈ m.sources,
      SourceUnit.build config strategy m.id ((effective.find? m.id).getD .disabled) source = u := by
  simp [units]

/-- **A record of the allocation called for is of a source of a member to serve.** -/
theorem exists_source_of_mem_called (h : r ∈ (s.called c).outcome.allocation.sources) :
    ∃ m ∈ prioritize s.order s.settings.selected s.conference.members, ∃ source ∈ m.sources,
      r.IsOf m source (((s.called c).effective.find? m.id).getD .disabled) := by
  obtain ⟨u, hu, state, hsound, rfl⟩ := exists_unit_of_mem_allocation h
  obtain ⟨m, hm, source, hsource, rfl⟩ := mem_units.mp hu
  exact ⟨m, hm, source, hsource, SourceUnit.isOf_result_build _ _ _ _ _ hsound.useful⟩

theorem rateIsNumber_called (hrates : s.conference.RatesAreNumbers)
    (h : r ∈ (s.called c).outcome.allocation.sources) : r.RateIsNumber := by
  obtain ⟨m, hm, source, hsource, hof⟩ := exists_source_of_mem_called h
  intro l hl
  exact hrates m (mem_prioritize hm).1 source hsource l (hof.layer l hl).1

end Controller

end Downlink
