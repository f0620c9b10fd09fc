import Downlink.Proofs.Controller.Records

/-!
# History

What a controller has in place after it recomputed is what its demand calls for, and how the demand
came about does not matter.  Only the allocation may be older than that, since one that is the same
as before is not put in place again; but then it holds the same records.

## Results

* `Controller.upToDate_recompute` — what is in place after recomputing is what is called for.
* `Controller.State.UpToDate.news_eq_nil` — as long as that is in place there is nothing to tell.
* `Controller.run_forgets` — a controller that is only told the demand ends in the same place.
-/

set_option autoImplicit false

namespace Downlink.Controller

variable {c : Controller} {now : Nat} {s t : State}

/-! ## Up to date -/

/-- What is to be shown is settled by the demand and the constraints in force. -/
theorem State.SameDemand.refreshDebug_debug (h : s.SameDemand t)
    (heffective : t.effective = s.effective) :
    t.refreshDebug.debug = s.refreshDebug.debug := by
  show DebugState.mk t.conference.trustsEstimate t.estimate t.settings.summary t.effective = _
  rw [h.conference, h.estimate, h.settings, heffective]
  rfl

/-- What is in place is what is called for, but for the order of the records. -/
structure State.UpToDate (c : Controller) (s : State) : Prop where
  effective : s.effective = (s.called c).effective
  allocation : s.allocation.isSameAs (s.called c).outcome.allocation = true

/-- **What is in place after recomputing is what is called for.** -/
theorem upToDate_recompute (horder : s.order ≠ []) (hrates : s.conference.RatesAreNumbers) :
    (c.recompute now s).1.UpToDate c := by
  have hcalled := (sameDemand_recompute c now s).called_eq c
  refine ⟨?_, ?_⟩
  · rw [hcalled, recompute_of_order_ne_nil horder]
    rfl
  · rw [hcalled, recompute_of_order_ne_nil horder]
    by_cases hsame : s.allocation.isSameAs (s.called c).outcome.allocation = true
    · rw [if_pos hsame]
      exact hsame
    · rw [if_neg hsame]
      exact Allocation.isSameAs_self fun _ => rateIsNumber_called hrates

namespace State.UpToDate

/-- Two states that are up to date with one demand have the same in place. -/
theorem agree (hs : s.UpToDate c) (ht : t.UpToDate c) (h : s.SameDemand t) :
    t.effective = s.effective ∧ t.allocation.isSameAs s.allocation = true := by
  have hcalled := h.called_eq c
  refine ⟨?_, ?_⟩
  · rw [ht.effective, hs.effective, hcalled]
  · exact Allocation.isSameAs_trans (hcalled ▸ ht.allocation)
      (Allocation.isSameAs_symm hs.allocation)

/-- To be up to date is a matter of the demand and of what is in place. -/
theorem congr (h : s.UpToDate c) (hdemand : s.SameDemand t) (heffective : t.effective = s.effective)
    (hallocation : t.allocation = s.allocation) : t.UpToDate c := by
  have hcalled := hdemand.called_eq c
  refine ⟨?_, ?_⟩
  · rw [heffective, hcalled, h.effective]
  · rw [hallocation, hcalled]
    exact h.allocation

end State.UpToDate

/-- **As long as what is called for is in place there is nothing to tell.** -/
theorem State.UpToDate.news_eq_nil (h : s.UpToDate c) (hrates : s.effective.RatesAreNumbers) :
    c.news s = [] := by
  by_cases horder : s.order = []
  · rw [news, if_pos horder]
  · refine (news_eq_nil_iff horder).mpr ⟨h.allocation, ?_⟩
    rw [← h.effective]
    exact EffectiveConstraints.beq_self_iff.mpr hrates

/-- An allocation was computed, so there was an order. -/
def Response.HasComputed (response : Response) : Prop := response.activity.recomputations ≠ 0

instance (response : Response) : Decidable response.HasComputed :=
  inferInstanceAs (Decidable (_ ≠ _))

theorem hasComputed_recomputing {answer : Option Bool} {before : Activity} (h : before.IsQuiet) :
    (c.recomputing now answer before s).2.HasComputed ↔ s.order ≠ [] := by
  show before.recomputations + (c.recompute now s).2.recomputations ≠ 0 ↔ _
  rw [h.recomputations_eq_zero, recompute_recomputations]
  split <;> simp [*]

/-- A step that computed an allocation ends in a recomputation with an order. -/
theorem exists_recompute_of_hasComputed {request : Request}
    (h : (c.step now s request).2.HasComputed) :
    ∃ t : State, t.order ≠ [] ∧ (c.step now s request).1 = (c.recompute now t).1 := by
  have hstepped := step_stepped c now s request
  generalize c.step now s request = result at hstepped h ⊢
  cases hstepped with
  | @recomputed t answer before _ _ _ hquiet =>
    exact ⟨t, (hasComputed_recomputing hquiet).mp h, rfl⟩
  | rested _ _ _ _ hquiet => exact absurd hquiet.recomputations_eq_zero h

theorem upToDate_of_hasComputed {request : Request} (h : (c.step now s request).2.HasComputed)
    (hrates : (c.step now s request).1.conference.RatesAreNumbers) :
    (c.step now s request).1.UpToDate c := by
  obtain ⟨t, horder, hstate⟩ := exists_recompute_of_hasComputed h
  rw [hstate] at hrates ⊢
  exact upToDate_recompute horder ((sameDemand_recompute c now t).conference ▸ hrates)

/-! ## Told anew -/

/-- The demand of a state, told at the given times. -/
def State.retold (s : State) (t₁ t₂ t₃ : Nat) : List Timed :=
  [⟨t₁, .updateSettings s.settings⟩, ⟨t₂, .reportBandwidth s.estimate.bps⟩, ⟨t₃, .setOrder s.order⟩]

/-- Telling the demand to a fresh controller comes to one recomputation under that demand: as long
as there is no order, nothing is computed. -/
theorem exists_recompute_of_retold (c : Controller) (s : State) (settings : Settings)
    (subscribers : List Subscriber) (t₁ t₂ t₃ : Nat) :
    ∃ t : State, s.SameDemand t ∧
      (c.run (c.start s.conference settings subscribers) (s.retold t₁ t₂ t₃)).1 =
        (c.recompute t₃ t).1 := by
  let fresh := c.start s.conference settings subscribers
  let first := State.refreshDebug { fresh with settings := s.settings, lastRecompute := some t₁ }
  let second := State.refreshDebug { first with estimate := s.estimate, lastRecompute := some t₂ }
  have hfirst : (c.step t₁ fresh (.updateSettings s.settings)).1 = first :=
    congrArg Prod.fst
      (recompute_of_order_eq_nil (c := c) (s := { fresh with settings := s.settings }) rfl t₁)
  have hsecond : (c.step t₂ first (.reportBandwidth s.estimate.bps)).1 = second := by
    rw [step, if_pos (Gate.reacts_of_isUnknown rfl)]
    exact congrArg Prod.fst
      (recompute_of_order_eq_nil (c := c) (s := { first with estimate := s.estimate }) rfl t₂)
  refine ⟨{ second with order := s.order }, ⟨rfl, rfl, rfl, rfl⟩, ?_⟩
  rw [State.retold, run_cons, run_cons, hfirst, hsecond]
  rfl

/-- **A controller forgets how its demand came about.**  Whatever happened before a step that
computed an allocation, a fresh controller of the conference that is told no more than the settings,
the estimate and the order comes to show the same, and its allocation is the same. -/
theorem run_forgets (c : Controller) (conference : Conference) (settings : Settings)
    (subscribers : List Subscriber) (past : List Timed) (r : Timed) :
    let s := (c.run (c.start conference settings subscribers) past).1
    let last := c.step r.time s r.request
    last.2.HasComputed → last.1.conference.RatesAreNumbers →
      ∀ (settings' : Settings) (subscribers' : List Subscriber) (t₁ t₂ t₃ : Nat),
        let start := c.start last.1.conference settings' subscribers'
        let fresh := (c.run start (last.1.retold t₁ t₂ t₃)).1
        fresh.debug = last.1.debug ∧ fresh.allocation.isSameAs last.1.allocation = true := by
  intro s last hcomputed hrates settings' subscribers' t₁ t₂ t₃ start fresh
  obtain ⟨t, horder, hlast⟩ := exists_recompute_of_hasComputed hcomputed
  obtain ⟨t', htold, hfresh⟩ :=
    exists_recompute_of_retold c last.1 settings' subscribers' t₁ t₂ t₃
  have hlast : last.1 = (c.recompute r.time t).1 := hlast
  have hfresh : fresh = (c.recompute t₃ t').1 := hfresh
  have hdemand : t.SameDemand last.1 := hlast ▸ sameDemand_recompute c r.time t
  have hdemand' : t'.SameDemand fresh := hfresh ▸ sameDemand_recompute c t₃ t'
  have hrecent : last.1.UpToDate c := upToDate_of_hasComputed hcomputed hrates
  have hrecent' : fresh.UpToDate c := by
    rw [hfresh]
    exact upToDate_recompute (htold.order ▸ hdemand.order ▸ horder) (htold.conference ▸ hrates)
  have hsame := htold.trans hdemand'
  obtain ⟨heffective, hallocation⟩ := hrecent.agree hrecent' hsame
  refine ⟨?_, hallocation⟩
  calc fresh.debug = fresh.refreshDebug.debug := by rw [hfresh, refreshDebug_recompute]
    _ = last.1.refreshDebug.debug := hsame.refreshDebug_debug heffective
    _ = last.1.debug := by rw [hlast, refreshDebug_recompute]

/-- That Bob once came first, and that there was room for both, leaves no trace. -/
theorem run_forgets_two_members :
    let s := (slotController.run (slotController.start twoMembers {} []) aliceJoins).1
    let last := slotController.step 3 s (.reportBandwidth 150)
    let start := slotController.start last.1.conference {} []
    let fresh := (slotController.run start (last.1.retold 0 1 2)).1
    last.2.HasComputed ∧ last.1.conference.RatesAreNumbers ∧
      s.allocation.forwardedParticipants = [alice, bob] ∧
      last.1.allocation.forwardedParticipants = [alice] ∧
      fresh.debug = last.1.debug ∧ fresh.allocation.isSameAs last.1.allocation = true := by
  refine ⟨by decide +kernel, by decide +kernel, by decide +kernel, by decide +kernel, ?_⟩
  exact run_forgets slotController twoMembers {} [] aliceJoins ⟨3, .reportBandwidth 150⟩
    (by decide +kernel) (by decide +kernel) {} [] 0 1 2

end Downlink.Controller
