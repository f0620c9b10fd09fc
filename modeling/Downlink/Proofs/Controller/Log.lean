import Downlink.Proofs.Controller.History

/-!
# The log that events keep

What a subscriber is told keeps a log of what is in place: the allocation told last is the one
published, the constraints follow one from another up to those that are shown, and nothing is told
twice.  All who subscribed at the start are told the same, whatever their names and however many
join them.

## Results

* `Controller.Logs.recompute` — the news of a recomputation keep the log.
* `Controller.isSilent_step` — an answer to a demand that was answered before is silent.
* `Controller.isSilent_step_of_order_eq_nil` — so is every step that leaves nobody to serve.
* `Controller.run_logs` — what subscribers are told in a run is a log of what is in place.
-/

set_option autoImplicit false

namespace Downlink

/-! ## What is told -/

namespace Event

/-- The allocation told of. -/
def allocation? : Event → Option Allocation
  | allocationChanged allocation => some allocation
  | constraintsChanged .. => none

/-- The old and the new constraints told of. -/
def change? : Event → Option (EffectiveConstraints × EffectiveConstraints)
  | allocationChanged .. => none
  | constraintsChanged old new => some (old, new)

/-- The allocations told of, in order. -/
def allocations (events : List Event) : List Allocation := events.filterMap allocation?

/-- The changes of constraints told of, in order. -/
def changes (events : List Event) : List (EffectiveConstraints × EffectiveConstraints) :=
  events.filterMap change?

/-- Each at most once, the allocation first. -/
def AllocationFirst (events : List Event) : Prop :=
  ∃ (allocation : Option Allocation)
    (change : Option (EffectiveConstraints × EffectiveConstraints)),
    events = allocation.toList.map allocationChanged
      ++ change.toList.map fun (old, new) => constraintsChanged old new

end Event

namespace Activity

/-- Nothing is handed out, and no allocation published. -/
structure IsSilent (a : Activity) : Prop where
  deliveries : a.deliveries = []
  published : a.published = 0

theorem IsQuiet.isSilent {a : Activity} (h : a.IsQuiet) : a.IsSilent :=
  ⟨h.deliveries_eq_nil, h.published_eq_zero⟩

theorem IsSilent.append {a b : Activity} (ha : a.IsSilent) (hb : b.IsSilent) :
    (a ++ b).IsSilent where
  deliveries := by rw [deliveries_append, ha.deliveries, hb.deliveries, List.append_nil]
  published := by rw [published_append, ha.published, hb.published]

end Activity

namespace Controller

variable {c : Controller} {now : Nat} {s t : State}

theorem allocationFirst_news (c : Controller) (s : State) : Event.AllocationFirst (c.news s) := by
  unfold news
  split
  · exact ⟨none, none, rfl⟩
  · split <;> split
    · exact ⟨none, none, rfl⟩
    · exact ⟨none, some (_, _), rfl⟩
    · exact ⟨some _, none, rfl⟩
    · exact ⟨some _, some (_, _), rfl⟩

/-- Each subscriber, and whoever joined them, is handed the events of a response in turn, the
allocation first.  Nothing else is handed out. -/
structure Tells (subscribers : List Subscriber) (response : Response) (events : List Event) :
    Prop where
  deliveries : ∃ joined : List Subscriber, response.activity.deliveries =
    events.flatMap fun e => (subscribers ++ joined).map fun subscriber => ⟨subscriber.name, e⟩
  allocationFirst : Event.AllocationFirst events

namespace Tells

variable {subscribers joined : List Subscriber} {response : Response} {events : List Event}

theorem mem_deliveries (h : Tells subscribers response events) {me : Subscriber}
    (hme : me ∈ subscribers) {e : Event} (he : e ∈ events) :
    ⟨me.name, e⟩ ∈ response.activity.deliveries := by
  obtain ⟨joined, hdeliveries⟩ := h.deliveries
  rw [hdeliveries]
  exact List.mem_flatMap.mpr ⟨e, he, List.mem_map.mpr ⟨me, List.mem_append_left _ hme, rfl⟩⟩

/-- What was told was handed to each. -/
theorem exists_delivery {responses : List Response} {told : List (List Event)}
    (h : List.Forall₂ (Tells subscribers) responses told) {me : Subscriber}
    (hme : me ∈ subscribers) {e : Event} (he : e ∈ told.flatten) :
    ∃ response ∈ responses, ⟨me.name, e⟩ ∈ response.activity.deliveries := by
  induction h with
  | nil => cases he
  | cons htells _ ih =>
    rw [List.flatten_cons, List.mem_append] at he
    rcases he with he | he
    · exact ⟨_, List.mem_cons_self, htells.mem_deliveries hme he⟩
    · obtain ⟨response, hresponse, hdelivery⟩ := ih he
      exact ⟨response, List.mem_cons_of_mem _ hresponse, hdelivery⟩

theorem of_append (h : Tells (subscribers ++ joined) response events) :
    Tells subscribers response events := by
  obtain ⟨others, hdeliveries⟩ := h.deliveries
  exact ⟨⟨joined ++ others, by rw [hdeliveries, List.append_assoc]⟩, h.allocationFirst⟩

end Tells

theorem tells_recomputing {answer : Option Bool} {before : Activity} (h : before.IsQuiet) :
    Tells s.subscribers (c.recomputing now answer before s).2 (c.news s) := by
  refine ⟨⟨[], ?_⟩, allocationFirst_news c s⟩
  show before.deliveries ++ (c.recompute now s).2.deliveries = _
  rw [h.deliveries_eq_nil, recompute_deliveries, List.append_nil]
  rfl

theorem tells_nil (subscribers : List Subscriber) {response : Response}
    (h : response.activity.IsQuiet) : Tells subscribers response [] :=
  ⟨⟨[], h.deliveries_eq_nil⟩, ⟨none, none, rfl⟩⟩

/-! ## The log -/

/-- Changes one from another, from the constraints `first` to the constraints `last`, and each a
change indeed. -/
def Chained : EffectiveConstraints → List (EffectiveConstraints × EffectiveConstraints) →
    EffectiveConstraints → Prop
  | first, [], last => (first == last) = true
  | first, (old, new) :: rest, last =>
    (first == old) = true ∧ (old == new) = false ∧ Chained new rest last

namespace Chained

variable {first last old new : EffectiveConstraints}
  {changes : List (EffectiveConstraints × EffectiveConstraints)}

theorem trans (h : Chained first changes last) (hlast : (last == new) = true) :
    Chained first changes new := by
  induction changes generalizing first with
  | nil => exact PartialEquivBEq.trans h hlast
  | cons change changes ih => exact ⟨h.1, h.2.1, ih h.2.2⟩

theorem concat (h : Chained first changes old) (hchange : (old == new) = false)
    (hnew : new.RatesAreNumbers) : Chained first (changes ++ [(old, new)]) new := by
  induction changes generalizing first with
  | nil => exact ⟨h, hchange, EffectiveConstraints.beq_self_iff.mpr hnew⟩
  | cons change changes ih => exact ⟨h.1, h.2.1, ih h.2.2⟩

end Chained

/-- What was told is a log of the allocation and of the constraints in place. -/
structure Logs (told : List Event) (allocation : Allocation) (effective : EffectiveConstraints) :
    Prop where
  last_allocation : (Event.allocations told).getLast?.getD .empty = allocation
  allocations_differ : (Allocation.empty :: Event.allocations told).IsChain
    fun before after => after.isSameAs before = false
  /-- Changes are told by value, so a rate that is no number would change at every turn. -/
  changes_chained : (∀ change ∈ Event.changes told, change.2.RatesAreNumbers) →
    Chained ∅ (Event.changes told) effective

theorem logs_start (c : Controller) (conference : Conference) (settings : Settings)
    (subscribers : List Subscriber) :
    Logs [] (c.start conference settings subscribers).allocation
      (c.start conference settings subscribers).effective :=
  ⟨rfl, .singleton _, fun _ => EffectiveConstraints.beq_self_iff.mpr fun _ h => nomatch h⟩

theorem allocations_news (horder : s.order ≠ []) : Event.allocations (c.news s) =
    if s.allocation.isSameAs (s.called c).outcome.allocation then []
    else [(s.called c).outcome.allocation] := by
  rw [news, if_neg horder]
  split <;> split <;> rfl

theorem changes_news (horder : s.order ≠ []) : Event.changes (c.news s) =
    if s.effective == (s.called c).effective then []
    else [(s.effective, (s.called c).effective)] := by
  rw [news, if_neg horder]
  split <;> split <;> rfl

namespace Logs

/-- **The news of a recomputation keep the log.** -/
theorem recompute {told : List Event} (h : Logs told s.allocation s.effective) (now : Nat) :
    Logs (told ++ c.news s) (c.recompute now s).1.allocation (c.recompute now s).1.effective := by
  by_cases horder : s.order = []
  · rw [recompute_of_order_eq_nil horder, news, if_pos horder, List.append_nil]
    exact h
  have hallocations : Event.allocations (told ++ c.news s) =
      Event.allocations told ++ Event.allocations (c.news s) := List.filterMap_append
  have hchanges : Event.changes (told ++ c.news s) =
      Event.changes told ++ Event.changes (c.news s) := List.filterMap_append
  rw [recompute_of_order_ne_nil horder]
  constructor
  case last_allocation =>
    rw [hallocations, allocations_news horder]
    by_cases hsame : s.allocation.isSameAs (s.called c).outcome.allocation = true
    · rw [if_pos hsame, List.append_nil, h.last_allocation]
      exact (if_pos hsame).symm
    · rw [if_neg hsame, List.getLast?_concat]
      exact (if_neg hsame).symm
  case allocations_differ =>
    rw [hallocations, allocations_news horder]
    by_cases hsame : s.allocation.isSameAs (s.called c).outcome.allocation = true
    · rw [if_pos hsame, List.append_nil]
      exact h.allocations_differ
    · rw [if_neg hsame, ← List.cons_append]
      refine List.isChain_append.mpr ⟨h.allocations_differ, .singleton _, ?_⟩
      intro before hbefore after hafter
      -- the one before is what was in place
      rw [List.getLast?_cons, h.last_allocation] at hbefore
      cases hbefore
      cases hafter
      exact Bool.eq_false_of_not_eq_true fun h => hsame (Allocation.isSameAs_symm h)
  case changes_chained =>
    rw [hchanges, changes_news horder]
    intro hrates
    have hchained := h.changes_chained fun change hchange =>
      hrates change (List.mem_append_left _ hchange)
    by_cases hsame : (s.effective == (s.called c).effective) = true
    · rw [if_pos hsame, List.append_nil]
      exact hchained.trans hsame
    · rw [if_neg hsame] at hrates ⊢
      exact hchained.concat (Bool.eq_false_of_not_eq_true hsame)
        (hrates _ (List.mem_append_right _ (List.mem_singleton_self _)))

/-- **What is told in a step keeps the log.** -/
theorem step {told : List Event} (h : Logs told s.allocation s.effective) (now : Nat)
    (request : Request) :
    ∃ events, Tells s.subscribers (c.step now s request).2 events ∧
      Logs (told ++ events) (c.step now s request).1.allocation
        (c.step now s request).1.effective := by
  have hstepped := step_stepped c now s request
  generalize c.step now s request = result at hstepped ⊢
  cases hstepped with
  | @recomputed t answer before hresults _ hsubscribers hquiet =>
    rw [← hresults.allocation, ← hresults.effective] at h
    rw [← hsubscribers]
    exact ⟨c.news t, tells_recomputing hquiet, h.recompute now⟩
  | rested hresults _ _ _ hquiet =>
    refine ⟨[], tells_nil _ hquiet, ?_⟩
    rw [List.append_nil, hresults.allocation, hresults.effective]
    exact h

/-- **What is told in a run keeps the log.** -/
theorem run {told : List Event} (h : Logs told s.allocation s.effective) (requests : List Timed) :
    ∃ events, List.Forall₂ (Tells s.subscribers) (c.run s requests).2 events ∧
      Logs (told ++ events.flatten) (c.run s requests).1.allocation
        (c.run s requests).1.effective := by
  induction requests generalizing s told with
  | nil => exact ⟨[], .nil, by rwa [List.flatten_nil, List.append_nil]⟩
  | cons r requests ih =>
    obtain ⟨first, hfirst, hlogs⟩ := h.step (c := c) r.time r.request
    obtain ⟨events, hevents, hlogs'⟩ := ih hlogs
    rw [step_subscribers] at hevents
    refine ⟨first :: events, .cons hfirst (hevents.imp fun _ _ => Tells.of_append), ?_⟩
    rw [List.flatten_cons, ← List.append_assoc]
    exact hlogs'

end Logs

/-! ## Silence -/

/-- A step without a computation leaves what is in place. -/
theorem step_keeps {request : Request} (h : ¬(c.step now s request).2.HasComputed) :
    (c.step now s request).1.effective = s.effective ∧
      (c.step now s request).1.allocation = s.allocation := by
  have hstepped := step_stepped c now s request
  generalize c.step now s request = result at hstepped h ⊢
  cases hstepped with
  | @recomputed t answer before hresults _ _ hquiet =>
    have horder : t.order = [] := by
      by_contra horder
      exact h ((hasComputed_recomputing hquiet).mpr horder)
    show (c.recompute now t).1.effective = _ ∧ (c.recompute now t).1.allocation = _
    rw [recompute_of_order_eq_nil horder]
    exact ⟨hresults.effective, hresults.allocation⟩
  | rested hresults _ _ _ _ => exact ⟨hresults.effective, hresults.allocation⟩

/-- So does a run of such steps. -/
theorem run_keeps {requests : List Timed} (h : ∀ response ∈ (c.run s requests).2,
    ¬response.HasComputed) :
    (c.run s requests).1.effective = s.effective ∧
      (c.run s requests).1.allocation = s.allocation := by
  induction requests generalizing s with
  | nil => exact ⟨rfl, rfl⟩
  | cons r requests ih =>
    rw [run_cons, List.forall_mem_cons] at h
    obtain ⟨heffective, hallocation⟩ := step_keeps h.1
    obtain ⟨heffective', hallocation'⟩ := ih h.2
    exact ⟨heffective'.trans heffective, hallocation'.trans hallocation⟩

/-- Without news nothing is told. -/
theorem isSilent_recompute (h : c.news s = []) : (c.recompute now s).2.IsSilent := by
  refine ⟨?_, ?_⟩
  · rw [recompute_deliveries, h]
    rfl
  · by_cases horder : s.order = []
    · rw [recompute_of_order_eq_nil horder]
    · obtain ⟨hsame, heffective⟩ := (news_eq_nil_iff horder).mp h
      simp only [recompute_of_order_ne_nil horder, hsame, heffective, if_true]
      rfl

theorem isSilent_recomputing {answer : Option Bool} {before : Activity} (hquiet : before.IsQuiet)
    (h : c.news s = []) : (c.recomputing now answer before s).2.activity.IsSilent :=
  hquiet.isSilent.append (isSilent_recompute h)

/-- **An answer to a demand that was answered before is silent.** -/
theorem isSilent_step {request : Request} (h : t.UpToDate c) (hrates : t.effective.RatesAreNumbers)
    (heffective : s.effective = t.effective) (hallocation : s.allocation = t.allocation)
    (hdemand : t.SameDemand (c.step now s request).1) :
    (c.step now s request).2.activity.IsSilent := by
  have hstepped := step_stepped c now s request
  generalize c.step now s request = result at hstepped hdemand ⊢
  cases hstepped with
  | @recomputed u answer before hresults _ _ hquiet =>
    have heffective := hresults.effective.trans heffective
    have hrecent : u.UpToDate c :=
      h.congr (hdemand.trans (sameDemand_recompute c now u).symm) heffective
        (hresults.allocation.trans hallocation)
    exact isSilent_recomputing hquiet (hrecent.news_eq_nil (heffective ▸ hrates))
  | rested _ _ _ _ hquiet => exact hquiet.isSilent

/-- **With an empty order every step is silent**, whatever it takes in. -/
theorem isSilent_step_of_order_eq_nil {request : Request}
    (h : (c.step now s request).1.order = []) : (c.step now s request).2.activity.IsSilent := by
  have hstepped := step_stepped c now s request
  generalize c.step now s request = result at hstepped h ⊢
  cases hstepped with
  | @recomputed t answer before _ _ _ hquiet =>
    have horder : t.order = [] := (sameDemand_recompute c now t).order.symm.trans h
    exact isSilent_recomputing hquiet (if_pos horder)
  | rested _ _ _ _ hquiet => exact hquiet.isSilent

/-! ## Runs -/

/-- **What subscribers are told is a log of what is in place.**  Whatever happened since a
controller was started with them, the allocation told last is the one published, none is the same as
the one before it, and the constraints lead one from another to those that are shown; within one
step the allocation comes first.  And when the demand is the same as at the last computation, to
compute anew is silent; with an empty order, which asks for no computation, it always is. -/
theorem run_logs (c : Controller) (conference : Conference) (settings : Settings)
    (subscribers : List Subscriber) (past : List Timed) :
    let run := c.run (c.start conference settings subscribers) past
    (∃ told, List.Forall₂ (Tells subscribers) run.2 told ∧
      Logs told.flatten run.1.allocation run.1.debug.effective) ∧
      (∀ (r : Timed) (between : List Timed) (r' : Timed),
        let first := c.step r.time run.1 r.request
        let rest := c.run first.1 between
        let again := c.step r'.time rest.1 r'.request
        first.2.HasComputed → (∀ response ∈ rest.2, ¬response.HasComputed) →
          first.1.SameDemand again.1 → first.1.conference.RatesAreNumbers →
          first.1.effective.RatesAreNumbers → again.2.activity.IsSilent) ∧
      ∀ r : Timed,
        let after := c.step r.time run.1 r.request
        after.1.order = [] → after.2.activity.IsSilent := by
  intro run
  refine ⟨?_, ?_, fun r => isSilent_step_of_order_eq_nil⟩
  · obtain ⟨told, htold, hlogs⟩ := (logs_start c conference settings subscribers).run past
    have hshown : run.1.Shown := shown_run c conference settings subscribers past
    exact ⟨told, htold, hshown.effective ▸ hlogs⟩
  · intro r between r' first rest again hcomputed hidle hdemand hrates heffective
    obtain ⟨hsame, hsame'⟩ := run_keeps hidle
    exact isSilent_step (upToDate_of_hasComputed hcomputed hrates) heffective hsame hsame' hdemand

/-- The log of a subscriber that fails each time.  After a drop the order is taken away and given
back, which is computed but not told; nor is it told that the order was taken away. -/
theorem run_logs_two_members :
    let run := slotController.run (slotController.start twoMembers {} [⟨"main", true⟩]) aliceJoins
    let first := slotController.step 3 run.1 (.reportBandwidth 150)
    let rest := slotController.run first.1 [⟨4, .setOrder []⟩]
    let again := slotController.step 5 rest.1 (.setOrder [alice, bob])
    let cleared := slotController.step 3 run.1 (.setOrder [])
    (∃ told, List.Forall₂ (Tells [⟨"main", true⟩]) run.2 told ∧
      (∀ change ∈ Event.changes told.flatten, change.2.RatesAreNumbers) ∧
      Logs told.flatten run.1.allocation run.1.debug.effective) ∧
      run.1.allocation.forwardedParticipants = [alice, bob] ∧
      first.1.allocation.forwardedParticipants = [alice] ∧
      again.2.HasComputed ∧ again.2.activity.IsSilent ∧
      cleared.1.lastRecompute = some 3 ∧ cleared.2.activity.IsSilent := by
  have hlog := run_logs slotController twoMembers {} [⟨"main", true⟩] aliceJoins
  refine ⟨?_, by decide +kernel, by decide +kernel, by decide +kernel, ?_, by decide +kernel,
    hlog.2.2 ⟨3, .setOrder []⟩ rfl⟩
  · obtain ⟨told, htold, hlogs⟩ := hlog.1
    refine ⟨told, htold, ?_, hlogs⟩
    intro change hchange
    obtain ⟨e, he, hchange⟩ := List.mem_filterMap.mp hchange
    obtain ⟨response, hresponse, hdelivery⟩ :=
      Tells.exists_delivery htold (List.mem_singleton_self _) he
    have hrates : ∀ response ∈
        (slotController.run (slotController.start twoMembers {} [⟨"main", true⟩]) aliceJoins).2,
        ∀ d ∈ response.activity.deliveries, ∀ change ∈ d.event.change?,
          change.2.RatesAreNumbers := by decide +kernel
    exact hrates response hresponse _ hdelivery change hchange
  · refine hlog.2.1 ⟨3, .reportBandwidth 150⟩ [⟨4, .setOrder []⟩] ⟨5, .setOrder [alice, bob]⟩
      ?_ ?_ ⟨?_, ?_, ?_, ?_⟩ ?_ ?_ <;> decide +kernel

end Controller

end Downlink
