import Downlink.Proofs.Controller.History
import Downlink.Proofs.SameRecords

/-!
# What publications leave out

An allocation that is the same as the one published last is not published, and the old one stays in
place.  As long as every member names its sources apart, nothing is lost by that: what is in place
has the totals of what was computed.  A member with two sources of one name shows that the condition
is needed, since of these two only the second one is looked at.

## Results

* `Controller.keysAreDistinct_called` — the records called for have keys of their own.
* `Controller.held_sameTotals_called` — what is in place after a computation has the totals of what
  was computed.
-/

set_option autoImplicit false

namespace Downlink

open Allocator

/-- The key of a unit's record. -/
def SourceUnit.key (u : SourceUnit) : SourceAllocation.Key := ⟨u.participant, u.source⟩

/-- There is one record for each unit, and it has the unit's key. -/
theorem map_key_allocation (force : Bool) (budget : Int64) (units : List SourceUnit) :
    (allocate force budget units).allocation.sources.map (·.key) = units.map SourceUnit.key := by
  obtain ⟨hunits, hlength⟩ := units_allocate force budget units
  have hkey : (fun r : SourceAllocation => r.key) ∘ Function.uncurry SourceUnit.result =
      SourceUnit.key ∘ Prod.fst := rfl
  rw [Outcome.allocation, hunits, ← List.map_uncurry_zip_eq_zipWith, List.map_map, hkey,
    ← List.map_map, List.map_fst_zip hlength.ge]

namespace Controller

variable {c : Controller} {now : Nat} {s : State}

theorem map_key_units (config : Config) (strategy : Strategy) (effective : EffectiveConstraints)
    (ordered : List Member) : (units config strategy effective ordered).map SourceUnit.key =
      ordered.flatMap fun m => m.sources.map fun source => ⟨m.id, source.id⟩ := by
  rw [units, List.map_flatMap]
  simp only [List.map_map]
  rfl

/-- Members told apart, each of which names its sources apart, have units with keys of their own. -/
theorem nodup_keys_units (config : Config) (strategy : Strategy) (effective : EffectiveConstraints)
    {ordered : List Member} (hmembers : (ordered.map (·.id)).Nodup)
    (hsources : ∀ m ∈ ordered, (m.sources.map (·.id)).Nodup) :
    ((units config strategy effective ordered).map SourceUnit.key).Nodup := by
  rw [map_key_units, List.nodup_flatMap]
  constructor
  · intro m hm
    have hids := hsources m hm
    rw [List.Nodup, List.pairwise_map] at hids ⊢
    refine hids.imp ?_
    intro source source' hne heq
    exact hne (congrArg SourceAllocation.Key.source heq)
  · rw [List.Nodup, List.pairwise_map] at hmembers
    refine hmembers.imp ?_
    intro m m' hne key hkey hkey'
    obtain ⟨_, _, rfl⟩ := List.mem_map.mp hkey
    obtain ⟨_, _, heq⟩ := List.mem_map.mp hkey'
    exact hne (congrArg SourceAllocation.Key.participant heq).symm

/-- No member that the order names publishes two sources under one name. -/
def State.SourcesAreDistinct (s : State) : Prop :=
  ∀ m ∈ s.conference.members, m.id ∈ s.order → (m.sources.map (·.id)).Nodup

instance (s : State) : Decidable s.SourcesAreDistinct :=
  inferInstanceAs (Decidable (∀ m ∈ s.conference.members, m.id ∈ s.order →
    (m.sources.map (·.id)).Nodup))

theorem State.SameDemand.sourcesAreDistinct {t : State} (h : s.SameDemand t)
    (hdistinct : t.SourcesAreDistinct) : s.SourcesAreDistinct := by
  intro m hm horder
  rw [← h.conference] at hm
  rw [← h.order] at horder
  exact hdistinct m hm horder

/-- **The records called for have keys of their own.** -/
theorem keysAreDistinct_called (h : s.SourcesAreDistinct) :
    (s.called c).outcome.allocation.KeysAreDistinct := by
  have hsources : ∀ m ∈ prioritize s.order s.settings.selected s.conference.members,
      (m.sources.map (·.id)).Nodup := by
    intro m hm
    obtain ⟨hmember, horder⟩ := mem_prioritize hm
    exact h m hmember horder
  have hkeys := nodup_keys_units c.config s.settings.strategy (s.called c).effective
    (nodup_ids_prioritize s.order s.settings.selected s.conference.members) hsources
  rw [Allocation.KeysAreDistinct, State.called, compute, map_key_allocation]
  exact hkeys

/-- What is in place after recomputing is what was computed, or the same. -/
theorem recompute_allocation (c : Controller) (now : Nat) (horder : s.order ≠ []) :
    (c.recompute now s).1.allocation = (s.called c).outcome.allocation ∨
      (c.recompute now s).1.allocation.isSameAs (s.called c).outcome.allocation = true := by
  rw [recompute_of_order_ne_nil horder]
  by_cases hsame : s.allocation.isSameAs (s.called c).outcome.allocation = true
  · right
    rw [if_pos hsame]
    exact hsame
  · left
    exact if_neg hsame

theorem recompute_sameTotals (horder : s.order ≠ []) (h : s.SourcesAreDistinct) :
    (c.recompute now s).1.allocation.SameTotals (s.called c).outcome.allocation := by
  rcases recompute_allocation c now horder with hheld | hsame
  · rw [hheld]
    exact .refl _
  · exact Allocation.sameTotals_of_isSameAs hsame (keysAreDistinct_called h)

/-- **No publication that is left out hides a change.**  Whatever happened before, after a step that
computed an allocation the one in place has the totals of the one computed, published or not, as
long as the members named in the order name their sources apart. -/
theorem held_sameTotals_called (c : Controller) (conference : Conference) (settings : Settings)
    (subscribers : List Subscriber) (past : List Timed) (r : Timed) :
    let s := (c.run (c.start conference settings subscribers) past).1
    let last := c.step r.time s r.request
    last.2.HasComputed → last.1.SourcesAreDistinct →
      last.1.allocation.SameTotals (last.1.called c).outcome.allocation := by
  intro s last hcomputed hdistinct
  obtain ⟨t, horder, hlast⟩ := exists_recompute_of_hasComputed hcomputed
  have hlast : last.1 = (c.recompute r.time t).1 := hlast
  have hdemand : t.SameDemand last.1 := hlast ▸ sameDemand_recompute c r.time t
  rw [hdemand.called_eq c, hlast]
  exact recompute_sameTotals horder (hdemand.sourcesAreDistinct hdistinct)

/-! ## Two sources of one member -/

/-- The slot rule, and nobody is forced. -/
def unforcedController : Controller where
  config := { forceForwardTopPriority := false }
  policy := (SlotPolicy.ofConfig {}).effective

/-- Alice publishes a webcam, and a source of the given name that takes more than there is. -/
def aliceWith (second : SourceId) : Conference :=
  { members := [⟨alice, [⟨webcam, [⟨180, .ofNat 30, 100⟩]⟩,
      ⟨second, [⟨180, .ofNat 30, 1000⟩]⟩]⟩] }

/-- The webcam fits from the first estimate on, and the second estimate makes no difference. -/
theorem held_sameTotals_called_webcam_and_screen :
    let start := unforcedController.start (aliceWith ⟨"screen", by decide⟩) {} []
    let past : List Timed := [⟨0, .setOrder [alice]⟩, ⟨1, .reportBandwidth 150⟩]
    let last := unforcedController.step 2 (unforcedController.run start past).1
      (.reportBandwidth 160)
    last.2.HasComputed ∧ last.1.SourcesAreDistinct ∧ last.2.activity.published = 0 ∧
      last.1.allocation.forwardedParticipants = [alice] ∧
      last.1.allocation.SameTotals (last.1.called unforcedController).outcome.allocation := by
  intro start past last
  have hcomputed : last.2.HasComputed := by decide +kernel
  have hdistinct : last.1.SourcesAreDistinct := by decide +kernel
  exact ⟨hcomputed, hdistinct, by decide +kernel, by decide +kernel,
    held_sameTotals_called unforcedController (aliceWith ⟨"screen", by decide⟩) {} [] past
      ⟨2, .reportBandwidth 160⟩ hcomputed hdistinct⟩

/-- **Under one name a change is hidden.**  The estimate makes room for the first webcam, but only
the second one is looked at, which is not sent before or after. -/
theorem change_hidden_two_webcams :
    let start := unforcedController.start (aliceWith webcam) {} [⟨"main", false⟩]
    let past : List Timed := [⟨0, .setOrder [alice]⟩]
    let last := unforcedController.step 1 (unforcedController.run start past).1
      (.reportBandwidth 150)
    last.2.HasComputed ∧ last.1.conference.RatesAreNumbers ∧ last.2.activity.deliveries = [] ∧
      last.1.allocation.forwardedParticipants = [] ∧
      (last.1.called unforcedController).outcome.allocation.forwardedParticipants = [alice] ∧
      ¬ last.1.allocation.SameTotals (last.1.called unforcedController).outcome.allocation := by
  intro start past last
  refine ⟨by decide +kernel, by decide +kernel, by decide +kernel, by decide +kernel,
    by decide +kernel, ?_⟩
  intro hsame
  have hdiffer : last.1.allocation.forwardedCount ≠
      (last.1.called unforcedController).outcome.allocation.forwardedCount := by decide +kernel
  exact hdiffer hsame.forwardedCount

end Controller

end Downlink
