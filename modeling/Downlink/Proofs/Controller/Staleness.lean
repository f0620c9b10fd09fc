import Downlink.Proofs.Controller.Steps

/-!
# Staleness

An allocation that is polled often enough does not grow old.  A poll has it computed anew if the
last recomputation is overdue, and leaves it alone otherwise.  What counts as a recomputation is
told by the history: whatever was taken in counts, also where there was nobody to serve, and an
estimate or a signal that was passed over does not.  All of this holds on clocks of any resolution.

## Results

* `Controller.lastRecompute_run` — the time held is that of the last recomputation in the history.
* `Controller.overdue_iff_isStale` — polls go by the age of that recomputation.
* `Controller.staleness_bounded` — after a poll it is not overdue, and between polls not by much.
-/

set_option autoImplicit false

namespace Downlink.Controller

variable {c : Controller} {now allowed : Nat} {s : State}

/-! ## What a history tells of recomputations -/

/-- No recomputation has happened, or the last one is more than `allowed` ticks old. -/
def IsOverdue (allowed now : Nat) (last : Option Nat) : Prop := ∀ t ∈ last, t + allowed < now

instance (allowed now : Nat) (last : Option Nat) : Decidable (IsOverdue allowed now last) :=
  inferInstanceAs (Decidable (∀ t ∈ last, t + allowed < now))

/-- A recomputation has happened, and the last one is at most `age` ticks old. -/
def HappenedWithin (age now : Nat) (last : Option Nat) : Prop :=
  ∃ t ∈ last, t ≤ now ∧ now ≤ t + age

/-- A request has the allocation computed anew: an order and settings in any case, an estimate and a
signal if the answer is that they are taken in, and a poll if the last recomputation is overdue. -/
def isRecomputation (allowed : Nat) (last : Option Nat) (r : Timed) (response : Response) : Bool :=
  match r.request with
  | .setOrder _ | .updateSettings _ => true
  | .reportBandwidth _ | .select _ | .capHeight _ => response.answer == some true
  | .recomputeIfStale _ => IsOverdue allowed r.time last
  | .setMembers _ | .setTrust _ | .subscribe _ => false

/-- When the allocation was computed last, by a history of requests and responses. -/
def lastRecomputed (allowed : Nat) (past : List Timed) (responses : List Response) : Option Nat :=
  (past.zip responses).foldl
    (fun last e => if isRecomputation allowed last e.1 e.2 then some e.1.time else last) none

theorem lastRecomputed_concat {past : List Timed} {responses : List Response}
    (hlength : past.length = responses.length) (r : Timed) (response : Response) :
    lastRecomputed allowed (past ++ [r]) (responses ++ [response]) =
      if isRecomputation allowed (lastRecomputed allowed past responses) r response then some r.time
      else lastRecomputed allowed past responses := by
  unfold lastRecomputed
  rw [List.zip_append hlength, List.foldl_append]
  rfl

/-- When polls were made. -/
def pollTimes (past : List Timed) : List Nat :=
  past.filterMap fun r =>
    match r.request with
    | .recomputeIfStale _ => some r.time
    | _ => none

/-- The clock did not go back, up to now. -/
def IsMonotone (past : List Timed) (now : Nat) : Prop :=
  (past.map (·.time) ++ [now]).Pairwise (· ≤ ·)

/-- Polls began, and from the first one until now there was never more than `period` between one and
the next. -/
def PolledEvery (period : Nat) (past : List Timed) (now : Nat) : Prop :=
  pollTimes past ≠ [] ∧
    (pollTimes past ++ [now]).IsChain fun earlier later => later ≤ earlier + period

/-! ## One step -/

/-- **Polls go by the age of the last recomputation.** -/
theorem overdue_iff_isStale (c : Controller) (now : Nat) (s : State) :
    c.isStale now s = true ↔ IsOverdue c.allowedAge now s.lastRecompute := by
  unfold isStale IsOverdue
  rw [Option.all_eq_true]
  constructor
  · intro h t ht
    have hlate := of_decide_eq_true (h t ht)
    omega
  · intro h t ht
    have hlate := h t ht
    exact decide_eq_true (by omega)

theorem recompute_lastRecompute (c : Controller) (now : Nat) (s : State) :
    (c.recompute now s).1.lastRecompute = some now := by
  obtain ⟨effective, allocation, hstate⟩ := exists_recompute_eq c now s
  rw [hstate]
  rfl

/-- What comes of a step that counts as a recomputation, or does not: what was taken in is computed
with, or what was computed before stays. -/
inductive CountedAs (c : Controller) (now : Nat) (s : State) : Bool → State × Response → Prop
  | recomputed {t : State} (answer : Option Bool) (before : Activity) : s.SameResults t →
      CountedAs c now s true (c.recomputing now answer before t)
  | rested {after : State × Response} : s.SameResults after.1 → CountedAs c now s false after

theorem applySignaling_countedAs (c : Controller) (now : Nat) (s : State)
    (signaled : SelectionSignaling × Bool) :
    CountedAs c now s ((c.applySignaling now s signaled).2.answer == some true)
      (c.applySignaling now s signaled) := by
  obtain ⟨signaling, changed⟩ := signaled
  cases changed with
  | false => exact .rested ⟨rfl, rfl, rfl, rfl⟩
  | true => exact .recomputed (some true) {} ⟨rfl, rfl, rfl, rfl⟩

/-- **What counts as a recomputation is one**, and nothing else is. -/
theorem step_countedAs (c : Controller) (s : State) (r : Timed) :
    let after := c.step r.time s r.request
    CountedAs c r.time s
      (isRecomputation c.allowedAge s.lastRecompute r after.2)
      after := by
  obtain ⟨time, request⟩ := r
  cases request with
  | reportBandwidth bps =>
    simp only [step, isRecomputation]
    split
    · exact .recomputed (some true) _ ⟨rfl, rfl, rfl, rfl⟩
    · exact .rested (.refl s)
  | setOrder order => exact .recomputed none {} ⟨rfl, rfl, rfl, rfl⟩
  | updateSettings settings => exact .recomputed none {} ⟨rfl, rfl, rfl, rfl⟩
  | select listed => exact applySignaling_countedAs c time s _
  | capHeight height => exact applySignaling_countedAs c time s _
  | recomputeIfStale dispatch =>
    simp only [step, isRecomputation, ← overdue_iff_isStale, Bool.decide_eq_true]
    cases c.isStale time s with
    | true => exact .recomputed _ {} (.refl s)
    | false => exact .rested (.refl s)
  | setMembers members => exact .rested ⟨rfl, rfl, rfl, rfl⟩
  | setTrust trustsEstimate => exact .rested ⟨rfl, rfl, rfl, rfl⟩
  | subscribe subscriber => exact .rested ⟨rfl, rfl, rfl, rfl⟩

/-- The time held changes with recomputations, and with nothing else. -/
theorem step_lastRecompute (c : Controller) (s : State) (r : Timed) :
    let after := c.step r.time s r.request
    after.1.lastRecompute =
      if isRecomputation c.allowedAge s.lastRecompute r after.2 then
        some r.time
      else s.lastRecompute := by
  intro after
  have hcounted : CountedAs c r.time s _ after := step_countedAs c s r
  generalize isRecomputation _ s.lastRecompute r after.2 = counted at hcounted ⊢
  generalize after = result at hcounted ⊢
  cases hcounted with
  | @recomputed t _ _ _ => exact recompute_lastRecompute c r.time t
  | rested hresults => exact hresults.lastRecompute

/-- A poll comes to a recomputation if the last one is overdue, and else to nothing at all. -/
theorem step_poll (c : Controller) (now : Nat) (s : State) (dispatch : Dispatch) :
    c.step now s (.recomputeIfStale dispatch) =
      if IsOverdue c.allowedAge now s.lastRecompute then
        c.recomputing now (some (dispatch == .background)) {} s
      else (s, { answer := some false }) := by
  simp only [step, overdue_iff_isStale]

/-! ## Polls of a history -/

theorem not_isOverdue_iff {last : Option Nat} :
    ¬ IsOverdue allowed now last ↔ ∃ t ∈ last, now ≤ t + allowed := by
  unfold IsOverdue
  constructor
  · intro h
    push Not at h
    exact h
  · rintro ⟨t, ht, hle⟩ hoverdue
    have hlate := hoverdue t ht
    omega

theorem mem_pollTimes_concat {past : List Timed} {r : Timed} {poll : Nat}
    (h : poll ∈ pollTimes (past ++ [r])) :
    poll ∈ pollTimes past ∨ poll = r.time ∧ ∃ dispatch, r.request = .recomputeIfStale dispatch := by
  obtain ⟨time, request⟩ := r
  unfold pollTimes at h
  rw [List.filterMap_append, List.mem_append] at h
  rcases h with h | h
  · exact .inl h
  · right
    cases request with
    | recomputeIfStale dispatch => exact ⟨List.mem_singleton.mp h, dispatch, rfl⟩
    | _ => cases h

theorem IsMonotone.of_concat {past : List Timed} {r : Timed} (h : IsMonotone (past ++ [r]) now) :
    IsMonotone past r.time ∧ r.time ≤ now := by
  unfold IsMonotone at *
  rw [List.map_append, List.map_singleton, List.pairwise_append] at h
  exact ⟨h.1, h.2.2 r.time (by simp) now (by simp)⟩

/-- The last poll is the one that now is measured from. -/
theorem PolledEvery.exists_poll {period : Nat} {past : List Timed}
    (h : PolledEvery period past now) : ∃ poll ∈ pollTimes past, now ≤ poll + period := by
  obtain ⟨hbegun, hchain⟩ := h
  refine ⟨(pollTimes past).getLast hbegun, List.getLast_mem hbegun, ?_⟩
  exact (List.isChain_append.mp hchain).2.2 _ (List.getLast?_eq_some_getLast hbegun) now rfl

/-- The allocation kept up with the polls: when each was over, the last recomputation was not
overdue. -/
structure KeepsUp (allowed now : Nat) (past : List Timed) (last : Option Nat) : Prop where
  not_later : ∀ t ∈ last, t ≤ now
  polls : ∀ poll ∈ pollTimes past, poll ≤ now ∧ ∃ t ∈ last, poll ≤ t + allowed

/-- Every step keeps up with the polls. -/
theorem keepsUp_step {past : List Timed} {r : Timed}
    (h : KeepsUp c.allowedAge r.time past s.lastRecompute)
    (hnow : r.time ≤ now) :
    KeepsUp c.allowedAge now (past ++ [r])
      (c.step r.time s r.request).1.lastRecompute := by
  rw [step_lastRecompute]
  split
  · -- a recomputation is not earlier than any poll before it
    refine ⟨fun t ht => ?_, fun poll hpoll => ?_⟩
    · cases ht
      exact hnow
    · have hearlier : poll ≤ r.time := by
        rcases mem_pollTimes_concat hpoll with hpast | ⟨rfl, _⟩
        · exact (h.polls poll hpast).1
        · exact Nat.le_refl _
      exact ⟨by omega, r.time, rfl, by omega⟩
  · rename_i hrested
    refine ⟨fun t ht => (h.not_later t ht).trans hnow, fun poll hpoll => ?_⟩
    rcases mem_pollTimes_concat hpoll with hpast | ⟨rfl, dispatch, hrequest⟩
    · obtain ⟨hearlier, hkept⟩ := h.polls poll hpast
      exact ⟨hearlier.trans hnow, hkept⟩
    · -- this poll found nothing to do
      simp only [isRecomputation, hrequest, decide_eq_true_eq] at hrested
      exact ⟨hnow, not_isOverdue_iff.mp hrested⟩

/-! ## Runs -/

variable (c) (conference : Conference) (settings : Settings) (subscribers : List Subscriber)

/-- **The time held is that of the last recomputation in the history.** -/
theorem lastRecompute_run (past : List Timed) :
    let run := c.run (c.start conference settings subscribers) past
    run.1.lastRecompute =
      lastRecomputed c.allowedAge past run.2 := by
  induction past using List.reverseRecOn with
  | nil => rfl
  | append_singleton past r ih =>
    rw [run_append]
    refine (step_lastRecompute c _ r).trans ?_
    rw [ih]
    exact (lastRecomputed_concat (length_responses ..).symm r _).symm

theorem keepsUp_run {past : List Timed} (hclock : IsMonotone past now) :
    KeepsUp c.allowedAge now past
      (c.run (c.start conference settings subscribers) past).1.lastRecompute := by
  induction past using List.reverseRecOn generalizing now with
  | nil => exact ⟨fun t ht => (nomatch ht), fun poll hpoll => (nomatch hpoll)⟩
  | append_singleton past r ih =>
    obtain ⟨hbefore, hnow⟩ := hclock.of_concat
    rw [run_append]
    exact keepsUp_step (ih hbefore) hnow

/-- **An allocation that is polled does not grow old.**  On a clock that does not go back: what the
history counts as recomputations are recomputations, and nothing else is.  A poll has the allocation
computed anew exactly if no recomputation has happened or the last one is overdue, and otherwise
changes nothing.  So right after a poll the last recomputation is not older than allowed; and as
long as polls are made every so often, at any moment since the first of them it is older by no more
than the time between two polls. -/
theorem staleness_bounded {past : List Timed} (hclock : IsMonotone past now) :
    let allowed := c.allowedAge
    let run := c.run (c.start conference settings subscribers) past
    let last := lastRecomputed allowed past run.2
    run.1.lastRecompute = last ∧
      (∀ request,
        let after := c.step now run.1 request
        CountedAs c now run.1 (isRecomputation allowed last ⟨now, request⟩ after.2) after) ∧
      (∀ dispatch,
        let after := c.step now run.1 (.recomputeIfStale dispatch)
        (IsOverdue allowed now last →
          after = c.recomputing now (some (dispatch == .background)) {} run.1) ∧
        (¬ IsOverdue allowed now last → after = (run.1, { answer := some false })) ∧
        HappenedWithin allowed now after.1.lastRecompute) ∧
      ∀ period, PolledEvery period past now → HappenedWithin (allowed + period) now last := by
  intro allowed run last
  have hlast : run.1.lastRecompute = last :=
    lastRecompute_run c conference settings subscribers past
  have hkept : KeepsUp allowed now past last :=
    hlast ▸ keepsUp_run c conference settings subscribers hclock
  refine ⟨hlast, ?_, ?_, ?_⟩
  · intro request
    rw [← hlast]
    exact step_countedAs c run.1 ⟨now, request⟩
  · intro dispatch after
    have hafter : after = if IsOverdue allowed now last then
        c.recomputing now (some (dispatch == .background)) {} run.1
      else (run.1, { answer := some false }) := hlast ▸ step_poll c now run.1 dispatch
    by_cases hoverdue : IsOverdue allowed now last
    · rw [if_pos hoverdue] at hafter
      have hstamp : after.1.lastRecompute = some now := by
        rw [hafter]
        exact recompute_lastRecompute c now run.1
      refine ⟨fun _ => hafter, fun hfresh => absurd hoverdue hfresh, ?_⟩
      exact ⟨now, hstamp, Nat.le_refl now, Nat.le_add_right ..⟩
    · rw [if_neg hoverdue] at hafter
      obtain ⟨t, ht, hfresh⟩ := not_isOverdue_iff.mp hoverdue
      have hstamp : after.1.lastRecompute = last := by rw [hafter, ← hlast]
      refine ⟨fun hlate => absurd hlate hoverdue, fun _ => hafter, ?_⟩
      exact ⟨t, hstamp ▸ ht, hkept.not_later t ht, hfresh⟩
  · intro period hpolled
    obtain ⟨poll, hpoll, hsince⟩ := hpolled.exists_poll
    obtain ⟨_, t, ht, hfresh⟩ := hkept.polls poll hpoll
    refine ⟨t, ht, hkept.not_later t ht, ?_⟩
    omega

/-- The slot rule on a clock of microseconds. -/
def fineController : Controller := { slotController with ticksPerMillisecond := 1000 }

/-- Polls are ten seconds apart, and recomputations may be fifteen seconds old.  The first poll is
made before there is anybody to serve, and counts; the order and an estimate count, and a small drop
does not.  When the estimate is fifteen seconds old a poll does nothing, a microsecond later it
recomputes, and by the time the next poll is due the bound still holds. -/
theorem staleness_bounded_ten_seconds_apart :
    let past : List Timed := [⟨0, .recomputeIfStale .background⟩,
      ⟨3000000, .setOrder [alice, bob]⟩, ⟨9000000, .reportBandwidth 1000⟩,
      ⟨10000000, .recomputeIfStale .inline⟩, ⟨12000000, .reportBandwidth 930⟩,
      ⟨20000000, .recomputeIfStale .inline⟩]
    let run := fineController.run (fineController.start twoMembers {} []) past
    let early := fineController.step 24000000 run.1 (.recomputeIfStale .background)
    let late := fineController.step 24000001 run.1 (.recomputeIfStale .background)
    fineController.allowedAge = 15000000 ∧ IsMonotone past 24000000 ∧ IsMonotone past 24000001 ∧
      IsMonotone past 29000000 ∧
      lastRecomputed fineController.allowedAge past run.2 = some 9000000 ∧
      early = (run.1, { answer := some false }) ∧
      late = fineController.recomputing 24000001 (some true) {} run.1 ∧
      PolledEvery 10000000 past 29000000 ∧
      HappenedWithin (fineController.allowedAge + 10000000) 29000000 (some 9000000) := by
  intro past run early late
  have hage : fineController.allowedAge = 15000000 := by decide +kernel
  have hearly : IsMonotone past 24000000 := by unfold IsMonotone; decide
  have hlate : IsMonotone past 24000001 := by unfold IsMonotone; decide
  have hnext : IsMonotone past 29000000 := by unfold IsMonotone; decide
  have hlast : lastRecomputed fineController.allowedAge past run.2 = some 9000000 := by
    decide +kernel
  have hpolled : PolledEvery 10000000 past 29000000 := by unfold PolledEvery; decide
  obtain ⟨_, _, hpoll, _⟩ := staleness_bounded fineController twoMembers {} [] hearly
  obtain ⟨_, _, hpoll', _⟩ := staleness_bounded fineController twoMembers {} [] hlate
  obtain ⟨_, _, _, hbound⟩ := staleness_bounded fineController twoMembers {} [] hnext
  refine ⟨hage, hearly, hlate, hnext, hlast, (hpoll .background).2.1 ?_,
    (hpoll' .background).1 ?_, hpolled, hlast ▸ hbound 10000000 hpolled⟩
  · intro hoverdue
    have hlater := hoverdue 9000000 hlast
    omega
  · intro t ht
    cases Option.some.inj (ht.symm.trans hlast)
    omega

end Downlink.Controller
