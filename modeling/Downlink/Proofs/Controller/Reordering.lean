import Downlink.Proofs.Controller.Limits
import Downlink.Proofs.Controller.Log
import Downlink.Proofs.Reordering
import Downlink.Proofs.Waterfall.Plenty

/-!
# Reordering in a run

Where there is plenty, with no limit on participants and bandwidth for all ideal layers, the order
decides nothing but who is in it.  Naming the same participants in another order, or several times,
is computed anew but changes nothing and is not told.

## Results

* `Controller.called_of_sameStage` — what is called for does not depend on the order.
* `Controller.step_keepsStage` — a step is silent and leaves what is in place.
* `Controller.run_keepsStage` — so does every step of a run.
* `Controller.run_ignores_reordering` — so does naming the participants in another order.
-/

set_option autoImplicit false

namespace Downlink.Controller

variable {c : Controller} {now : Nat} {s t u : State}

/-- Bandwidth counts as unlimited and is enough for all ideal layers in the order, and the number of
participants is not limited. -/
structure State.HasPlenty (c : Controller) (s : State) : Prop where
  distrusted : s.conference.trustsEstimate = false
  lastN_neg : s.settings.lastN < 0
  idealBitrate_lt : (s.called c).outcome.allocation.idealBitrate < 2 ^ 63

instance (c : Controller) (s : State) : Decidable (s.HasPlenty c) :=
  decidable_of_iff (s.conference.trustsEstimate = false ∧ s.settings.lastN < 0 ∧
      (s.called c).outcome.allocation.idealBitrate < 2 ^ 63)
    ⟨fun h => ⟨h.1, h.2.1, h.2.2⟩, fun h => ⟨h.distrusted, h.lastN_neg, h.idealBitrate_lt⟩⟩

/-- The same conference and settings, and an order that names the same participants. -/
structure State.SameStage (s t : State) : Prop where
  conference : t.conference = s.conference
  settings : t.settings = s.settings
  order_subset : t.order ⊆ s.order
  subset_order : s.order ⊆ t.order

instance (s t : State) : Decidable (s.SameStage t) :=
  decidable_of_iff (t.conference = s.conference ∧ t.settings = s.settings ∧ t.order ⊆ s.order ∧
      s.order ⊆ t.order)
    ⟨fun h => ⟨h.1, h.2.1, h.2.2.1, h.2.2.2⟩,
      fun h => ⟨h.conference, h.settings, h.order_subset, h.subset_order⟩⟩

/-- The members to serve. -/
def State.served (s : State) : List Member :=
  prioritize s.order s.settings.selected s.conference.members

theorem State.nodup_ids_served (s : State) : (s.served.map (·.id)).Nodup :=
  nodup_ids_prioritize ..

namespace State.SameStage

theorem of_sameDemand (h : s.SameStage u) (hdemand : t.SameDemand u) : s.SameStage t where
  conference := hdemand.conference.symm.trans h.conference
  settings := hdemand.settings.symm.trans h.settings
  order_subset := hdemand.order ▸ h.order_subset
  subset_order := hdemand.order ▸ h.subset_order

theorem order_ne_nil (h : s.SameStage t) (horder : t.order ≠ []) : s.order ≠ [] := by
  intro hnil
  exact horder (List.subset_nil.mp (hnil ▸ h.order_subset))

/-- The same members are served, in another sequence. -/
theorem perm_served (h : s.SameStage t) : s.served.Perm t.served := by
  rw [served, served, h.settings, h.conference]
  exact perm_prioritize (fun _ => ⟨fun hid => h.subset_order hid, fun hid => h.order_subset hid⟩) ..

end State.SameStage

/-! ## What is called for -/

/-- The records of a member whose sources are all sent in their ideal layers. -/
def idealRecords (config : Config) (strategy : Strategy) (effective : EffectiveConstraints)
    (m : Member) : List SourceAllocation :=
  (m.sources.map (SourceUnit.build config strategy m.id
    ((effective.find? m.id).getD .disabled))).map fun u => u.result u.idealState

theorem participant_of_mem_idealRecords {config : Config} {strategy : Strategy}
    {effective : EffectiveConstraints} (m : Member) :
    ∀ r ∈ idealRecords config strategy effective m, r.participant = m.id := by
  intro r hr
  obtain ⟨u, hu, rfl⟩ := List.mem_map.mp hr
  obtain ⟨source, _, rfl⟩ := List.mem_map.mp hu
  rfl

theorem budget_of_distrusted {conference : Conference} (h : conference.trustsEstimate = false)
    (estimate : Estimate) : budget conference estimate = Int64.maxValue := by
  rw [budget, h]
  rfl

theorem idealBitrate_called (c : Controller) (s : State) :
    (s.called c).outcome.allocation.idealBitrate =
      idealLoad (units c.config s.settings.strategy (s.called c).effective s.served) :=
  idealBitrate_allocation_allocate ..

namespace State.HasPlenty

/-- Everybody is sent the ideal layers. -/
theorem allocation_called (h : s.HasPlenty c) : (s.called c).outcome.allocation =
    ⟨s.served.flatMap (idealRecords c.config s.settings.strategy (s.called c).effective)⟩ := by
  have hload := h.idealBitrate_lt
  rw [idealBitrate_called] at hload
  have hbudget : (idealLoad (units c.config s.settings.strategy (s.called c).effective s.served) :
      Int) ≤ (budget s.conference s.estimate).toInt := by
    rw [budget_of_distrusted h.distrusted, Int64.toInt_maxValue]
    omega
  calc (s.called c).outcome.allocation
    _ = ⟨(units c.config s.settings.strategy (s.called c).effective s.served).map
          fun u => u.result u.idealState⟩ := allocation_allocate_ideal hbudget
    _ = _ := by rw [units, List.map_flatMap]; rfl

/-- Without a limit, the slot rule gives the same constraints. -/
theorem effective_called (h : s.HasPlenty c)
    (hpolicy : c.policy = (SlotPolicy.ofConfig c.config).effective) (hstage : s.SameStage t) :
    (t.called c).effective = (s.called c).effective := by
  have hslots : s.settings.slots = none := if_pos h.lastN_neg
  show c.policy t.served t.settings = c.policy s.served s.settings
  rw [hpolicy, hstage.settings]
  exact (SlotPolicy.effective_perm _ hslots hstage.perm_served s.nodup_ids_served).symm

theorem of_sameStage (h : s.HasPlenty c)
    (hpolicy : c.policy = (SlotPolicy.ofConfig c.config).effective) (hstage : s.SameStage t) :
    t.HasPlenty c where
  distrusted := hstage.conference ▸ h.distrusted
  lastN_neg := hstage.settings ▸ h.lastN_neg
  idealBitrate_lt := by
    have hload := h.idealBitrate_lt
    rw [idealBitrate_called] at hload ⊢
    rw [h.effective_called hpolicy hstage, hstage.settings]
    exact idealLoad_perm (hstage.perm_served.flatMap_right _) ▸ hload

/-- **What is called for does not depend on the order.** -/
theorem called_of_sameStage (h : s.HasPlenty c)
    (hpolicy : c.policy = (SlotPolicy.ofConfig c.config).effective)
    (hrates : s.conference.RatesAreNumbers) (hstage : s.SameStage t) :
    (t.called c).effective = (s.called c).effective ∧
      (s.called c).outcome.allocation.isSameAs (t.called c).outcome.allocation = true := by
  have heffective := h.effective_called hpolicy hstage
  refine ⟨heffective, ?_⟩
  have hnumbers : ∀ r ∈ (s.called c).outcome.allocation.sources, r.RateIsNumber :=
    fun r hr => rateIsNumber_called hrates hr
  rw [h.allocation_called] at hnumbers ⊢
  rw [(h.of_sameStage hpolicy hstage).allocation_called, heffective, hstage.settings]
  exact Allocation.isSameAs_perm participant_of_mem_idealRecords hstage.perm_served
    s.nodup_ids_served hnumbers

end State.HasPlenty

/-! ## Steps and runs -/

/-- What is up to date stays in place. -/
theorem State.UpToDate.recompute_keeps (h : s.UpToDate c) (now : Nat) :
    (c.recompute now s).1.effective = s.effective ∧
      (c.recompute now s).1.allocation = s.allocation := by
  by_cases horder : s.order = []
  · rw [recompute_of_order_eq_nil horder]
    exact ⟨rfl, rfl⟩
  · rw [recompute_of_order_ne_nil horder]
    exact ⟨h.effective.symm, if_pos h.allocation⟩

/-- Whenever an allocation is computed in a run from `t`, it is for the stage of `s`. -/
def KeepsStage (c : Controller) (s : State) : State → List Timed → Prop
  | _, [] => True
  | t, r :: rest =>
    let next := c.step r.time t r.request
    (next.2.HasComputed → s.SameStage next.1) ∧ KeepsStage c s next.1 rest

instance decidableKeepsStage (c : Controller) (s : State) :
    (t : State) → (requests : List Timed) → Decidable (KeepsStage c s t requests)
  | _, [] => .isTrue trivial
  | t, r :: rest =>
    have := decidableKeepsStage c s (c.step r.time t r.request).1 rest
    inferInstanceAs (Decidable (_ ∧ _))

section Stage

variable (hpolicy : c.policy = (SlotPolicy.ofConfig c.config).effective) (hplenty : s.HasPlenty c)
  (hrates : s.conference.RatesAreNumbers) (hconstraints : s.effective.RatesAreNumbers)
  (hrecent : s.order ≠ [] → s.UpToDate c)

include hpolicy hplenty hrates hrecent in
theorem upToDate_of_sameStage (hstage : s.SameStage t) (horder : t.order ≠ [])
    (heffective : t.effective = s.effective) (hallocation : t.allocation = s.allocation) :
    t.UpToDate c := by
  have hs := hrecent (hstage.order_ne_nil horder)
  obtain ⟨heffective', hallocation'⟩ := hplenty.called_of_sameStage hpolicy hrates hstage
  refine ⟨?_, ?_⟩
  · rw [heffective, hs.effective, heffective']
  · rw [hallocation]
    exact Allocation.isSameAs_trans hs.allocation hallocation'

include hpolicy hplenty hrates hconstraints hrecent

/-- **A step is silent and leaves what is in place**, if what it computes is for the same stage. -/
theorem step_keepsStage {request : Request}
    (hstage : (c.step now t request).2.HasComputed → s.SameStage (c.step now t request).1)
    (heffective : t.effective = s.effective) (hallocation : t.allocation = s.allocation) :
    (c.step now t request).2.activity.IsSilent ∧
      (c.step now t request).1.effective = s.effective ∧
      (c.step now t request).1.allocation = s.allocation := by
  have hstepped := step_stepped c now t request
  generalize c.step now t request = result at hstepped hstage ⊢
  cases hstepped with
  | @recomputed u answer before hresults _ _ hquiet =>
    have heffective := hresults.effective.trans heffective
    have hallocation := hresults.allocation.trans hallocation
    by_cases horder : u.order = []
    · -- an order was taken away: nothing is computed, and everything stays
      have hnews : c.news u = [] := if_pos horder
      refine ⟨hquiet.isSilent.append (isSilent_recompute hnews), ?_⟩
      show (c.recompute now u).1.effective = _ ∧ (c.recompute now u).1.allocation = _
      rw [recompute_of_order_eq_nil horder]
      exact ⟨heffective, hallocation⟩
    · -- what is in place is what the stage calls for, however it is ordered
      have hsame : s.SameStage u :=
        (hstage ((hasComputed_recomputing hquiet).mpr horder)).of_sameDemand
          (sameDemand_recompute c now u)
      have hu : u.UpToDate c :=
        upToDate_of_sameStage hpolicy hplenty hrates hrecent hsame horder heffective hallocation
      have hnews : c.news u = [] := hu.news_eq_nil (heffective ▸ hconstraints)
      obtain ⟨hkept, hkept'⟩ := hu.recompute_keeps now
      exact ⟨hquiet.isSilent.append (isSilent_recompute hnews), hkept.trans heffective,
        hkept'.trans hallocation⟩
  | rested hresults _ _ _ hquiet =>
    exact ⟨hquiet.isSilent, hresults.effective.trans heffective,
      hresults.allocation.trans hallocation⟩

/-- **So does every step of a run.** -/
theorem run_keepsStage {requests : List Timed} (hstage : KeepsStage c s t requests)
    (heffective : t.effective = s.effective) (hallocation : t.allocation = s.allocation) :
    (∀ response ∈ (c.run t requests).2, response.activity.IsSilent) ∧
      (c.run t requests).1.effective = s.effective ∧
      (c.run t requests).1.allocation = s.allocation := by
  induction requests generalizing t with
  | nil => exact ⟨fun _ h => (nomatch h), heffective, hallocation⟩
  | cons r requests ih =>
    obtain ⟨hsilent, heffective, hallocation⟩ := step_keepsStage hpolicy hplenty hrates
      hconstraints hrecent hstage.1 heffective hallocation
    obtain ⟨hsilent', hkept⟩ := ih hstage.2 heffective hallocation
    rw [run_cons]
    exact ⟨List.forall_mem_cons.mpr ⟨hsilent, hsilent'⟩, hkept⟩

end Stage

/-- **Where there is plenty, naming the same participants in another order changes nothing.**
Whatever happened before an allocation was computed, and whatever happens since on the same stage:
an order that names the same participants, in any sequence and as often as it likes, is not told,
and leaves the allocation and the constraints as they are.  Before there was any order nothing is
computed, and then there is nobody to name. -/
theorem run_ignores_reordering {config : Config} (hbuild : build config = .ok c)
    (conference : Conference) (settings : Settings) (subscribers : List Subscriber)
    (past : List Timed) :
    let s := (c.run (c.start conference settings subscribers) past).1
    ∀ (r : Timed) (between : List Timed) (now : Nat) (order : List ParticipantId),
      let first := c.step r.time s r.request
      let rest := c.run first.1 between
      let again := c.step now rest.1 (.setOrder order)
      (first.1.order ≠ [] → first.2.HasComputed) → first.1.HasPlenty c →
        first.1.conference.RatesAreNumbers → first.1.effective.RatesAreNumbers →
        KeepsStage c first.1 first.1 between → first.1.SameStage { rest.1 with order } →
        again.2.activity.IsSilent ∧ again.1.allocation = rest.1.allocation ∧
          again.1.effective = rest.1.effective ∧
          again.1.debug.effective = rest.1.debug.effective := by
  intro s r between now order first rest again hcomputed hplenty hrates hconstraints hstage hsame
  have hpolicy := policy_of_build hbuild
  have hrecent : first.1.order ≠ [] → first.1.UpToDate c :=
    fun horder => upToDate_of_hasComputed (hcomputed horder) hrates
  obtain ⟨_, heffective, hallocation⟩ :=
    run_keepsStage hpolicy hplenty hrates hconstraints hrecent hstage rfl rfl
  have hagain : first.1.SameStage again.1 :=
    hsame.of_sameDemand (sameDemand_recompute c now { rest.1 with order }).symm
  obtain ⟨hsilent, heffective', hallocation'⟩ := step_keepsStage hpolicy hplenty hrates
    hconstraints hrecent (fun _ => hagain) heffective hallocation
  have hkept : again.1.effective = rest.1.effective := heffective'.trans heffective.symm
  have hshown : first.1.Shown :=
    shown_step (shown_run c conference settings subscribers past) r.time r.request
  have hshown' : rest.1.Shown :=
    run_invariant (P := State.Shown) (fun _ r h => shown_step h r.time r.request) hshown between
  have hshown'' : again.1.Shown := shown_step hshown' now (.setOrder order)
  refine ⟨hsilent, hallocation'.trans hallocation.symm, hkept, ?_⟩
  rw [hshown''.effective, hshown'.effective, hkept]

/-- Alice comes in before Bob, the estimate drops, and the order is taken away; then Bob comes first
and is named again behind her. -/
theorem run_ignores_reordering_bob_first :
    let conference : Conference := { twoMembers with trustsEstimate := false }
    let between : List Timed := [⟨2, .reportBandwidth 10⟩, ⟨3, .setOrder []⟩]
    let start := slotController.start conference {} [⟨"main", false⟩]
    let s := (slotController.run start [⟨0, .setOrder [bob]⟩]).1
    let first := slotController.step 1 s (.setOrder [alice, bob])
    let rest := slotController.run first.1 between
    let again := slotController.step 4 rest.1 (.setOrder [bob, alice, bob])
    build {} = .ok slotController ∧ first.2.HasComputed ∧ first.1.HasPlenty slotController ∧
      KeepsStage slotController first.1 first.1 between ∧
      (rest.2.map (·.activity.recomputations)) = [1, 0] ∧
      rest.1.allocation.forwardedParticipants = [alice, bob] ∧ again.2.HasComputed ∧
      again.2.activity.IsSilent ∧ again.1.allocation = rest.1.allocation := by
  intro conference between start s first rest again
  have hcomputed : first.2.HasComputed := by decide +kernel
  have hplenty : first.1.HasPlenty slotController := by decide +kernel
  have hstage : KeepsStage slotController first.1 first.1 between := by decide +kernel
  have hsame : first.1.SameStage { rest.1 with order := [bob, alice, bob] } := by decide +kernel
  obtain ⟨hsilent, hallocation, _⟩ := run_ignores_reordering build_slotController conference {}
    [⟨"main", false⟩] [⟨0, .setOrder [bob]⟩] ⟨1, .setOrder [alice, bob]⟩ between 4
    [bob, alice, bob] (fun _ => hcomputed) hplenty (by decide +kernel) (by decide +kernel) hstage
    hsame
  exact ⟨build_slotController, hcomputed, hplenty, hstage, by decide +kernel, by decide +kernel,
    by decide +kernel, hsilent, hallocation⟩

end Downlink.Controller
