import Downlink.Proofs.Controller.Steps
import Downlink.Proofs.Signaling

/-!
# Selections in force

A receiver sets strategy, selection and constraints in two ways: all at once by an update of its
settings, or by signaling a list and a cap, from which the three are derived.  A signal that derives
something new takes the place of whatever settings there are.  One that derives nothing new is not
acted upon, and so it does not undo an update that came in between.

## Results

* `Controller.signaling_run` — what is remembered is the list and the cap signaled last.
* `Controller.inForce_run` — what was derived stays in force until settings are updated.
* `Controller.select_inForce` — when a selection just signaled is in force.
-/

set_option autoImplicit false

namespace Downlink

namespace Controller

/-! ## What a history signals -/

/-- The list that a request signals. -/
def Request.listed? : Request → Option (List ParticipantId)
  | .select listed => some listed
  | _ => none

/-- The cap that a request signals. -/
def Request.cap? : Request → Option UInt32
  | .capHeight cap => some cap
  | _ => none

/-- The request replaces the settings. -/
def Request.updatesSettings : Request → Bool
  | .updateSettings _ => true
  | _ => false

/-- The list signaled last; at first nobody is listed. -/
def lastListed (past : List Timed) : List ParticipantId :=
  (past.filterMap (·.request.listed?)).getLast?.getD []

/-- The cap signaled last; at first there is none. -/
def lastCap (past : List Timed) : UInt32 :=
  (past.filterMap (·.request.cap?)).getLast?.getD 4294967295

theorem lastListed_concat (past : List Timed) (r : Timed) :
    lastListed (past ++ [r]) = r.request.listed?.getD (lastListed past) := by
  cases h : r.request.listed? <;> simp [lastListed, List.filterMap_append, h]

theorem lastCap_concat (past : List Timed) (r : Timed) :
    lastCap (past ++ [r]) = r.request.cap?.getD (lastCap past) := by
  cases h : r.request.cap? <;> simp [lastCap, List.filterMap_append, h]

/-- What the rule gives for the list and the cap signaled last. -/
def derivedFrom (c : Controller) (past : List Timed) : DerivedSelection :=
  .of c.config.onstageIdealHeight (lastCap past) (lastListed past)

end Controller

/-- The settings hold what was derived. -/
structure DerivedSelection.InForce (d : DerivedSelection) (s : Settings) : Prop where
  strategy : s.strategy = d.strategy
  selected : s.selected = d.selected
  constraints : s.constraints = d.constraints

instance (d : DerivedSelection) (s : Settings) : Decidable (d.InForce s) :=
  decidable_of_iff
    (s.strategy = d.strategy ∧ s.selected = d.selected ∧ s.constraints = d.constraints)
    ⟨fun ⟨h₁, h₂, h₃⟩ => ⟨h₁, h₂, h₃⟩, fun ⟨h₁, h₂, h₃⟩ => ⟨h₁, h₂, h₃⟩⟩

theorem SelectionSignaling.inForce_applyTo (ideal cap : UInt32) (listed : List ParticipantId)
    (base : Settings) :
    (DerivedSelection.of ideal cap listed).InForce ((signaled ideal cap listed).applyTo base) :=
  ⟨rfl, rfl, rfl⟩

namespace Controller

variable {c : Controller} {now : Nat} {s : State}

/-! ## One step -/

theorem recompute_signaling (c : Controller) (now : Nat) (s : State) :
    (c.recompute now s).1.signaling = s.signaling := by
  obtain ⟨effective, allocation, hstate⟩ := exists_recompute_eq c now s
  rw [hstate]
  rfl

theorem recompute_settings (c : Controller) (now : Nat) (s : State) :
    (c.recompute now s).1.settings = s.settings :=
  (sameDemand_recompute c now s).settings

/-- What was signaled is remembered, and the settings are replaced if that changed anything. -/
theorem applySignaling_eq (c : Controller) (now : Nat) (s : State) (signaling : SelectionSignaling)
    (changed : Bool) :
    (c.applySignaling now s (signaling, changed)).2.answer = some changed ∧
      (c.applySignaling now s (signaling, changed)).1.signaling = signaling ∧
      (c.applySignaling now s (signaling, changed)).1.settings =
        if changed then signaling.applyTo s.settings else s.settings := by
  cases changed with
  | false => exact ⟨rfl, rfl, rfl⟩
  | true => exact ⟨rfl, recompute_signaling .., recompute_settings ..⟩

/-- A request that signals nothing leaves what was signaled, and unless it updates the settings it
leaves these as well. -/
theorem step_of_not_signal {request : Request} (hlisted : request.listed? = none)
    (hcap : request.cap? = none) (now : Nat) :
    (c.step now s request).1.signaling = s.signaling ∧
      (request.updatesSettings = false → (c.step now s request).1.settings = s.settings) := by
  cases request with
  | select listed => cases hlisted
  | capHeight cap => cases hcap
  | updateSettings settings => exact ⟨recompute_signaling .., fun h => nomatch h⟩
  | setOrder order => exact ⟨recompute_signaling .., fun _ => recompute_settings ..⟩
  | reportBandwidth bps =>
    rw [step]
    split
    · exact ⟨recompute_signaling .., fun _ => recompute_settings ..⟩
    · exact ⟨rfl, fun _ => rfl⟩
  | recomputeIfStale dispatch =>
    rw [step]
    split
    · exact ⟨recompute_signaling .., fun _ => recompute_settings ..⟩
    · exact ⟨rfl, fun _ => rfl⟩
  | setMembers members => exact ⟨rfl, fun _ => rfl⟩
  | setTrust trustsEstimate => exact ⟨rfl, fun _ => rfl⟩
  | subscribe subscriber => exact ⟨rfl, fun _ => rfl⟩

section Signaled

variable {ideal cap : UInt32} {listed : List ParticipantId}

theorem step_select (hs : s.signaling = .signaled ideal cap listed) (now : Nat)
    (listed' : List ParticipantId) :
    c.step now s (.select listed') = c.applySignaling now s (.signaled ideal cap listed',
      decide (DerivedSelection.of ideal cap listed' ≠ .of ideal cap listed)) := by
  rw [step, hs, SelectionSignaling.setListed_signaled]

theorem step_capHeight (hs : s.signaling = .signaled ideal cap listed) (now : Nat) (cap' : UInt32) :
    c.step now s (.capHeight cap') = c.applySignaling now s (.signaled ideal cap' listed,
      decide (DerivedSelection.of ideal cap' listed ≠ .of ideal cap listed)) := by
  rw [step, hs, SelectionSignaling.setMaxFrameHeight_signaled]

/-- **A request puts its list or its cap in the place of the one before.**  Unless it updates the
settings itself, they are replaced exactly if the rule now gives something else. -/
theorem step_signaled (hs : s.signaling = .signaled ideal cap listed) (now : Nat)
    (request : Request) :
    let cap' := request.cap?.getD cap
    let listed' := request.listed?.getD listed
    (c.step now s request).1.signaling = .signaled ideal cap' listed' ∧
      (request.updatesSettings = false → (c.step now s request).1.settings =
        if DerivedSelection.of ideal cap' listed' = .of ideal cap listed then s.settings
        else (SelectionSignaling.signaled ideal cap' listed').applyTo s.settings) := by
  intro cap' listed'
  by_cases hsignal : request.listed? = none ∧ request.cap? = none
  · obtain ⟨hlisted, hcap⟩ := hsignal
    have hcap' : cap' = cap := by simp [cap', hcap]
    have hlisted' : listed' = listed := by simp [listed', hlisted]
    obtain ⟨hsignaling, hsettings⟩ := step_of_not_signal (c := c) (s := s) hlisted hcap now
    rw [hcap', hlisted', if_pos rfl, hsignaling]
    exact ⟨hs, hsettings⟩
  · have hstep : c.step now s request = c.applySignaling now s (.signaled ideal cap' listed',
        decide (DerivedSelection.of ideal cap' listed' ≠ .of ideal cap listed)) := by
      cases request with
      | select => exact step_select hs now _
      | capHeight => exact step_capHeight hs now _
      | _ => exact absurd ⟨rfl, rfl⟩ hsignal
    obtain ⟨_, hsignaling, hsettings⟩ := applySignaling_eq c now s (.signaled ideal cap' listed')
      (decide (DerivedSelection.of ideal cap' listed' ≠ .of ideal cap listed))
    rw [hstep, hsignaling, hsettings]
    refine ⟨rfl, ?_⟩
    intro _
    by_cases hsame : DerivedSelection.of ideal cap' listed' = .of ideal cap listed <;> simp [hsame]

end Signaled

/-! ## Runs -/

variable (c) (conference : Conference) (settings : Settings) (subscribers : List Subscriber)

/-- **What is remembered of a history is the list and the cap signaled last.** -/
theorem signaling_run (past : List Timed) :
    (c.run (c.start conference settings subscribers) past).1.signaling =
      .signaled c.config.onstageIdealHeight (lastCap past) (lastListed past) := by
  induction past using List.reverseRecOn with
  | nil => exact SelectionSignaling.start_eq_signaled _
  | append_singleton past r ih =>
    rw [run_append, lastCap_concat, lastListed_concat]
    exact (step_signaled ih r.time r.request).1

/-- A request that does not update the settings leaves in force what is derived. -/
theorem inForce_concat (past : List Timed) {r : Timed} (hr : r.request.updatesSettings = false)
    (h : (derivedFrom c past).InForce
      (c.run (c.start conference settings subscribers) past).1.settings) :
    (derivedFrom c (past ++ [r])).InForce
      (c.run (c.start conference settings subscribers) (past ++ [r])).1.settings := by
  have hsignaling := signaling_run c conference settings subscribers past
  have hsettings := (step_signaled (c := c) hsignaling r.time r.request).2 hr
  rw [derivedFrom, lastCap_concat, lastListed_concat, run_append]
  show DerivedSelection.InForce _ (c.step r.time _ r.request).1.settings
  rw [hsettings]
  split
  · rename_i hsame
    rw [hsame]
    exact h
  · exact SelectionSignaling.inForce_applyTo ..

/-- **What was derived stays in force until settings are updated**, and follows every signal. -/
theorem inForce_run (earlier later : List Timed)
    (hlater : ∀ r ∈ later, r.request.updatesSettings = false)
    (h : (derivedFrom c earlier).InForce
      (c.run (c.start conference settings subscribers) earlier).1.settings) :
    (derivedFrom c (earlier ++ later)).InForce
      (c.run (c.start conference settings subscribers) (earlier ++ later)).1.settings := by
  induction later using List.reverseRecOn with
  | nil =>
    rw [List.append_nil]
    exact h
  | append_singleton later r ih =>
    rw [← List.append_assoc]
    refine inForce_concat c conference settings subscribers _ (hlater r (by simp)) (ih ?_)
    intro r' hr'
    exact hlater r' (by simp [hr'])

/-- **When a selection just signaled is in force.**  Whatever happened before: the answer is yes
exactly if the rule gives something else for the new list than for the one signaled before, under
the cap signaled last, and then that is in force.  Otherwise the settings stay as they are, and what
the rule gives is in force if it has been at some time since settings were updated last.  The limit
on participants stays in any case. -/
theorem select_inForce (past : List Timed) (now : Nat) (listed : List ParticipantId) :
    let start := c.start conference settings subscribers
    let s := (c.run start past).1
    let after := c.step now s (.select listed)
    let derived := DerivedSelection.of c.config.onstageIdealHeight (lastCap past) listed
    after.2.answer = some (decide (derived ≠ derivedFrom c past)) ∧
      after.1.settings.lastN = s.settings.lastN ∧
      (derived ≠ derivedFrom c past → derived.InForce after.1.settings) ∧
      (derived = derivedFrom c past → after.1.settings = s.settings) ∧
      ∀ earlier later, past = earlier ++ later →
        (∀ r ∈ later, r.request.updatesSettings = false) →
        (derivedFrom c earlier).InForce (c.run start earlier).1.settings →
          derived.InForce after.1.settings := by
  intro start s after derived
  have hsignaling : s.signaling = _ := signaling_run c conference settings subscribers past
  have hstep : after = c.applySignaling now s (.signaled _ (lastCap past) listed,
      decide (derived ≠ derivedFrom c past)) := step_select hsignaling now listed
  obtain ⟨hanswer, _, hsettings⟩ := applySignaling_eq c now s
    (.signaled c.config.onstageIdealHeight (lastCap past) listed)
    (decide (derived ≠ derivedFrom c past))
  rw [← hstep] at hanswer hsettings
  refine ⟨hanswer, ?_, ?_, ?_, ?_⟩
  · rw [hsettings]
    split <;> rfl
  · intro hnew
    rw [hsettings, if_pos (decide_eq_true hnew)]
    exact SelectionSignaling.inForce_applyTo ..
  · intro hsame
    rw [hsettings, if_neg (by simp [hsame])]
  · rintro earlier later rfl hlater hforce
    have hbefore := inForce_run c conference settings subscribers earlier later hlater hforce
    have hafter := inForce_concat c conference settings subscribers (earlier ++ later)
      (r := ⟨now, .select listed⟩) rfl hbefore
    rw [derivedFrom, lastCap_concat, lastListed_concat, run_append] at hafter
    exact hafter

/-- Alice is signaled, tiles are asked for, and a cap brings her back on stage.  To signal her again
changes nothing, but she is in force; to signal Bob puts him in her place. -/
theorem select_inForce_under_cap :
    let earlier : List Timed := [⟨0, .select [alice]⟩,
      ⟨1, .updateSettings { strategy := .tileView, lastN := 1 }⟩, ⟨2, .capHeight 360⟩]
    let later : List Timed := [⟨3, .setTrust false⟩]
    let start := slotController.start twoMembers {} []
    let s := (slotController.run start (earlier ++ later)).1
    let again := slotController.step 4 s (.select [alice])
    let other := slotController.step 4 s (.select [bob])
    (∀ r ∈ later, r.request.updatesSettings = false) ∧
      (derivedFrom slotController earlier).InForce (slotController.run start earlier).1.settings ∧
      DerivedSelection.of 720 360 [bob] ≠ derivedFrom slotController (earlier ++ later) ∧
      again.2.answer = some false ∧ again.1.settings.lastN = 1 ∧
      (DerivedSelection.of 720 360 [alice]).InForce again.1.settings ∧
      (DerivedSelection.of 720 360 [bob]).InForce other.1.settings := by
  intro earlier later start s again other
  have hlater : ∀ r ∈ later, r.request.updatesSettings = false := by decide
  have hforce : (derivedFrom slotController earlier).InForce
      (slotController.run start earlier).1.settings := by decide +kernel
  have hnew : DerivedSelection.of 720 360 [bob] ≠
      derivedFrom slotController (earlier ++ later) := by decide +kernel
  obtain ⟨_, _, _, _, hagain⟩ :=
    select_inForce slotController twoMembers {} [] (earlier ++ later) 4 [alice]
  obtain ⟨_, _, hother, _⟩ :=
    select_inForce slotController twoMembers {} [] (earlier ++ later) 4 [bob]
  exact ⟨hlater, hforce, hnew, by decide +kernel, by decide +kernel,
    hagain earlier later rfl hlater hforce, hother hnew⟩

/-- **A selection signaled last is not always in force.**  Alice is signaled, tiles are asked for,
and to signal her again does not bring her back on stage. -/
theorem select_not_inForce_after_update :
    ¬ ∀ (past : List Timed) (now : Nat) (listed : List ParticipantId),
      let start := slotController.start twoMembers {} []
      let after := slotController.step now (slotController.run start past).1 (.select listed)
      (DerivedSelection.of slotController.config.onstageIdealHeight (lastCap past) listed).InForce
        after.1.settings := by
  intro h
  have hforce := h [⟨0, .select [alice]⟩, ⟨1, .updateSettings { strategy := .tileView }⟩] 2 [alice]
  exact absurd hforce (by decide +kernel)

end Controller

end Downlink
