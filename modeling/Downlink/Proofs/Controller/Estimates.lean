import Downlink.Proofs.Controller.Steps

/-!
# Estimates in force

The estimate in force is the one accepted last.  Reports that the gate ignores leave no trace, so
each report is judged against that estimate, and never against an ignored one: however many small
drops are reported one after the other, together they are as far from the estimate in force as the
gate ignores at once, or they are acted upon.

## Results

* `Gate.eq_or_isSmallDrop` — what the gate ignores is the same estimate, or a small drop.
* `Controller.estimate_run` — the estimate in force is the one accepted last.
* `Controller.estimate_does_not_creep` — the report last made is in force, or it is a small drop
  from the estimate that is.
-/

set_option autoImplicit false

namespace Downlink

/-! ## What the gate ignores -/

namespace Gate

/-- Both estimates are known, and `current` is below `previous` by too little to be acted upon. -/
structure IsSmallDrop (gate : Gate) (previous current : Estimate) : Prop where
  previous_known : previous.isUnknown = false
  current_known : current.isUnknown = false
  below : current.bps < previous.bps
  ignored : gate.reacts previous current = false

/-- **What the gate ignores is the same estimate, or a small drop.** -/
theorem eq_or_isSmallDrop {gate : Gate} {previous current : Estimate}
    (h : gate.reacts previous current = false) :
    previous = current ∨ gate.IsSmallDrop previous current := by
  have hreacts := h
  unfold reacts at h
  split at h
  · cases h
  · rename_i hknown
    rw [Bool.not_eq_true, Bool.or_eq_false_iff] at hknown
    split at h
    · cases h
    · rename_i hrise
      split at h
      · rename_i hsame
        left
        cases previous
        cases current
        exact congrArg Estimate.mk hsame
      · rename_i hdiffer
        right
        refine ⟨hknown.1, hknown.2, ?_, hreacts⟩
        exact Int64.lt_of_le_of_ne (Int64.not_lt.mp hrise) (Ne.symm hdiffer)

end Gate

namespace Controller

variable {c : Controller} {now : Nat} {s : State}

/-! ## What a history reports -/

/-- The estimate that a request reports. -/
def Request.reported? : Request → Option Estimate
  | .reportBandwidth bps => some ⟨bps⟩
  | _ => none

theorem eq_reportBandwidth {request : Request} {estimate : Estimate}
    (h : request.reported? = some estimate) : request = .reportBandwidth estimate.bps := by
  cases request with
  | reportBandwidth bps =>
    cases h
    rfl
  | _ => cases h

/-- The estimate reported last; at first there is none. -/
def lastReported (past : List Timed) : Estimate :=
  (past.filterMap (·.request.reported?)).getLast?.getD .unknown

/-- The estimate that a request reports, if the answer is that it is acted upon. -/
def accepted? (r : Timed) (response : Response) : Option Estimate :=
  if response.answer = some true then r.request.reported? else none

/-- The estimate accepted last; at first there is none. -/
def lastAccepted (past : List Timed) (responses : List Response) : Estimate :=
  ((past.zip responses).filterMap fun (r, response) => accepted? r response).getLast?.getD .unknown

theorem lastReported_concat (past : List Timed) (r : Timed) :
    lastReported (past ++ [r]) = r.request.reported?.getD (lastReported past) := by
  cases h : r.request.reported? <;> simp [lastReported, List.filterMap_append, h]

theorem lastAccepted_concat {past : List Timed} {responses : List Response}
    (hlength : past.length = responses.length) (r : Timed) (response : Response) :
    lastAccepted (past ++ [r]) (responses ++ [response]) =
      (accepted? r response).getD (lastAccepted past responses) := by
  rw [lastAccepted, List.zip_append hlength, List.filterMap_append]
  cases h : accepted? r response <;> simp [lastAccepted, h]

/-! ## One step -/

/-- A report is judged against the estimate in force, and one that is ignored leaves no trace. -/
theorem step_reportBandwidth (c : Controller) (now : Nat) (s : State) (bps : Int64) :
    let after := c.step now s (.reportBandwidth bps)
    after.2.answer = some (c.config.gate.reacts s.estimate ⟨bps⟩) ∧
      (c.config.gate.reacts s.estimate ⟨bps⟩ = true → after.1.estimate = ⟨bps⟩) ∧
      (c.config.gate.reacts s.estimate ⟨bps⟩ = false →
        after = (s, ⟨some false, { ignoredEstimates := 1 }⟩)) := by
  intro after
  by_cases hreacts : c.config.gate.reacts s.estimate ⟨bps⟩ = true
  · have hafter : after =
        c.recomputing now (some true) { acceptedEstimates := 1 } { s with estimate := ⟨bps⟩ } :=
      if_pos hreacts
    rw [hafter, hreacts]
    refine ⟨rfl, fun _ => ?_, fun h => nomatch h⟩
    exact (sameDemand_recompute c now { s with estimate := ⟨bps⟩ }).estimate
  · have hafter : after = (s, ⟨some false, { ignoredEstimates := 1 }⟩) := if_neg hreacts
    rw [Bool.not_eq_true] at hreacts
    rw [hafter, hreacts]
    exact ⟨rfl, fun h => (nomatch h), fun _ => rfl⟩

theorem applySignaling_estimate (c : Controller) (now : Nat) (s : State)
    (signaled : SelectionSignaling × Bool) :
    (c.applySignaling now s signaled).1.estimate = s.estimate := by
  obtain ⟨signaling, changed⟩ := signaled
  cases changed with
  | false => rfl
  | true => exact (sameDemand_recompute c now _).estimate

/-- Nothing but a report changes the estimate. -/
theorem step_estimate_of_not_report {request : Request} (h : request.reported? = none) (now : Nat) :
    (c.step now s request).1.estimate = s.estimate := by
  cases request with
  | reportBandwidth bps => cases h
  | setOrder order => exact (sameDemand_recompute c now { s with order }).estimate
  | updateSettings settings => exact (sameDemand_recompute c now { s with settings }).estimate
  | select listed => exact applySignaling_estimate ..
  | capHeight height => exact applySignaling_estimate ..
  | recomputeIfStale dispatch =>
    rw [step]
    split
    · exact (sameDemand_recompute c now s).estimate
    · rfl
  | setMembers members => rfl
  | setTrust trustsEstimate => rfl
  | subscribe subscriber => rfl

/-- **The estimate changes to what is accepted**, and to nothing else. -/
theorem step_estimate (c : Controller) (s : State) (r : Timed) :
    (c.step r.time s r.request).1.estimate =
      (accepted? r (c.step r.time s r.request).2).getD s.estimate := by
  obtain ⟨time, request⟩ := r
  cases hreported : request.reported? with
  | none =>
    rw [step_estimate_of_not_report hreported, accepted?, hreported, ite_self, Option.getD_none]
  | some estimate =>
    obtain rfl := eq_reportBandwidth hreported
    obtain ⟨hanswer, htaken, hignored⟩ := step_reportBandwidth c time s estimate.bps
    rw [accepted?, hanswer]
    cases hreacts : c.config.gate.reacts s.estimate estimate with
    | true => exact htaken hreacts
    | false =>
      rw [hignored hreacts]
      rfl

/-- A report that was not in force before is in force after the step, or is a small drop. -/
theorem step_standing {previous : Estimate}
    (h : s.estimate = previous ∨ c.config.gate.IsSmallDrop s.estimate previous) (r : Timed) :
    let current := r.request.reported?.getD previous
    let after := (c.step r.time s r.request).1
    after.estimate = current ∨ c.config.gate.IsSmallDrop after.estimate current := by
  obtain ⟨time, request⟩ := r
  intro current after
  cases hreported : request.reported? with
  | none =>
    have hcurrent : current = previous := by simp [current, hreported]
    have hafter : after.estimate = s.estimate := step_estimate_of_not_report hreported time
    rw [hcurrent, hafter]
    exact h
  | some estimate =>
    obtain rfl := eq_reportBandwidth hreported
    obtain ⟨_, htaken, hignored⟩ := step_reportBandwidth c time s estimate.bps
    cases hreacts : c.config.gate.reacts s.estimate estimate with
    | true => exact .inl (htaken hreacts)
    | false =>
      have hafter : after = s := congrArg Prod.fst (hignored hreacts)
      rw [hafter]
      exact Gate.eq_or_isSmallDrop hreacts

/-! ## Runs -/

variable (c) (conference : Conference) (settings : Settings) (subscribers : List Subscriber)

/-- **The estimate in force is the one accepted last.** -/
theorem estimate_run (past : List Timed) :
    let run := c.run (c.start conference settings subscribers) past
    run.1.estimate = lastAccepted past run.2 := by
  induction past using List.reverseRecOn with
  | nil => rfl
  | append_singleton past r ih =>
    rw [run_append]
    exact (step_estimate c _ r).trans
      (ih ▸ (lastAccepted_concat (length_responses ..).symm r _).symm)

/-- The report last made is in force, or it is a small drop from the estimate that is. -/
theorem standing_run (past : List Timed) :
    let s := (c.run (c.start conference settings subscribers) past).1
    s.estimate = lastReported past ∨ c.config.gate.IsSmallDrop s.estimate (lastReported past) := by
  induction past using List.reverseRecOn with
  | nil => exact .inl rfl
  | append_singleton past r ih =>
    rw [run_append, lastReported_concat]
    exact step_standing ih r

/-- **Small drops do not creep.**  Whatever happened before: the estimate shown is the one accepted
last, and the report last made is either that estimate or a small drop from it.  The next report is
judged against the estimate shown; one that is ignored changes nothing at all, is told to nobody,
and asks for no members. -/
theorem estimate_does_not_creep (past : List Timed) :
    let run := c.run (c.start conference settings subscribers) past
    let shown := run.1.debug.estimate
    shown = lastAccepted past run.2 ∧
      (shown = lastReported past ∨ c.config.gate.IsSmallDrop shown (lastReported past)) ∧
      ∀ (now : Nat) (bps : Int64),
        let after := c.step now run.1 (.reportBandwidth bps)
        after.2.answer = some (c.config.gate.reacts shown ⟨bps⟩) ∧
          (after.2.answer = some false → after.1 = run.1 ∧
            after.2.activity.deliveries = [] ∧ after.2.activity.snapshots = 0) := by
  intro run shown
  have hshown : shown = run.1.estimate :=
    (shown_run c conference settings subscribers past).estimate
  rw [hshown]
  refine ⟨estimate_run c conference settings subscribers past,
    standing_run c conference settings subscribers past, ?_⟩
  intro now bps after
  obtain ⟨hanswer, _, hignored⟩ := step_reportBandwidth c now run.1 bps
  refine ⟨hanswer, ?_⟩
  intro hno
  have hreacts : c.config.gate.reacts run.1.estimate ⟨bps⟩ = false :=
    Option.some.inj (hanswer.symm.trans hno)
  have hafter : after = (run.1, ⟨some false, { ignoredEstimates := 1 }⟩) := hignored hreacts
  rw [hafter]
  exact ⟨rfl, rfl, rfl⟩

/-- After two small drops the estimate in force is still the first one.  A third drop is small and
ignored as well.  With one bit per second less the drop counts, although from the estimate reported
last it would not. -/
theorem estimate_does_not_creep_three_drops :
    let past : List Timed := [⟨0, .setOrder [alice, bob]⟩, ⟨1, .reportBandwidth 1000⟩,
      ⟨2, .reportBandwidth 930⟩, ⟨3, .recomputeIfStale .inline⟩, ⟨4, .reportBandwidth 860⟩]
    let run := slotController.run (slotController.start twoMembers {} [⟨"main", false⟩]) past
    let ignored := slotController.step 5 run.1 (.reportBandwidth 851)
    let counted := slotController.step 5 run.1 (.reportBandwidth 850)
    lastReported past = ⟨860⟩ ∧ run.1.debug.estimate = ⟨1000⟩ ∧
      slotController.config.gate.IsSmallDrop ⟨1000⟩ ⟨860⟩ ∧
      ignored.2.answer = some false ∧ ignored.1 = run.1 ∧ ignored.2.activity.deliveries = [] ∧
      slotController.config.gate.reacts ⟨860⟩ ⟨850⟩ = false ∧ counted.2.answer = some true := by
  intro past run ignored counted
  obtain ⟨_, hstanding, hnext⟩ :=
    estimate_does_not_creep slotController twoMembers {} [⟨"main", false⟩] past
  have hreported : lastReported past = ⟨860⟩ := by decide +kernel
  have hshown : run.1.debug.estimate = ⟨1000⟩ := by decide +kernel
  have hignored : ignored.2.answer = some false := by decide +kernel
  obtain ⟨_, hnothing⟩ := hnext 5 851
  obtain ⟨hstate, hdeliveries, _⟩ := hnothing hignored
  refine ⟨hreported, hshown, ?_, hignored, hstate, hdeliveries, by decide +kernel,
    by decide +kernel⟩
  rw [show run.1.debug.estimate = _ from hshown, hreported] at hstanding
  exact hstanding.resolve_left (by decide)

end Controller

end Downlink
