import Downlink.Proofs.Controller.Steps
import Downlink.Scenario.Basic

/-!
# Replays

A replay depends on what happens when, and not on the order in which a scenario lists its steps:
steps are taken by their time, and only those of one time by their place in the list.  The records
of a replay are the events that its controller publishes, each with the step that caused it.

## Results

* `Scenario.timeline_pairwise` — the timeline ascends by time, and by place where times are equal.
* `Scenario.Rearranged.timeline_eq` — listing the steps in another order does not change the
  timeline, but for the places by which it names them.
* `Scenario.logs_follow` — a replay records what its controller publishes, and why.
* `Scenario.replay_of_rearranged` — a replay does not depend on the listing, but for these places.
-/

set_option autoImplicit false

namespace Downlink.Scenario

open Controller (Timed)

/-! ## The timeline -/

/-- Earlier, or at the same time and listed before. -/
def Precedes (a b : Step × Nat) : Prop :=
  a.1.time < b.1.time ∨ (a.1.time = b.1.time ∧ a.2 < b.2)

instance : DecidableRel Precedes := fun _ _ => inferInstanceAs (Decidable (_ ∨ _))

theorem Precedes.asymm {a b : Step × Nat} (hab : Precedes a b) (hba : Precedes b a) : False := by
  unfold Precedes at hab hba
  simp only [UInt64.lt_iff_toNat_lt, ← UInt64.toNat_inj] at hab hba
  omega

theorem Precedes.time_le {a b : Step × Nat} (h : Precedes a b) : a.1.time ≤ b.1.time := by
  unfold Precedes at h
  simp only [UInt64.lt_iff_toNat_lt, UInt64.le_iff_toNat_le, ← UInt64.toNat_inj] at h ⊢
  omega

variable (s : Scenario)

/-- Every step is taken, and once. -/
theorem perm_timeline : s.timeline.Perm s.steps.zipIdx := List.mergeSort_perm ..

theorem time_le_trans (a b c : Step × Nat) (hab : decide (a.1.time ≤ b.1.time) = true)
    (hbc : decide (b.1.time ≤ c.1.time) = true) : decide (a.1.time ≤ c.1.time) = true := by
  simp only [decide_eq_true_eq, UInt64.le_iff_toNat_le] at hab hbc ⊢
  omega

theorem time_le_total (a b : Step × Nat) :
    (decide (a.1.time ≤ b.1.time) || decide (b.1.time ≤ a.1.time)) = true := by
  simp only [Bool.or_eq_true, decide_eq_true_eq, UInt64.le_iff_toNat_le]
  omega

/-- The steps of one time are taken in the order in which they are listed. -/
theorem filter_timeline (time : UInt64) : s.timeline.filter (·.1.time == time) =
    s.steps.zipIdx.filter (·.1.time == time) := by
  let tied := s.steps.zipIdx.filter (·.1.time == time)
  have htied : tied.Pairwise fun a b => decide (a.1.time ≤ b.1.time) = true := by
    refine List.pairwise_of_forall_mem_list fun a ha b hb => ?_
    have ha := (List.mem_filter.mp ha).2
    have hb := (List.mem_filter.mp hb).2
    rw [beq_iff_eq] at ha hb
    rw [ha, hb, decide_eq_true_eq]
    exact UInt64.le_refl time
  -- sorting is stable: what stands in order before stays so
  have hsublist : tied.Sublist s.timeline :=
    List.sublist_mergeSort time_le_trans time_le_total htied List.filter_sublist
  have hfiltered : tied.Sublist (s.timeline.filter (·.1.time == time)) := by
    simpa [tied, List.filter_filter] using hsublist.filter (·.1.time == time)
  exact (hfiltered.eq_of_length ((s.perm_timeline.filter _).length_eq).symm).symm

theorem zipIdx_pairwise (steps : List Step) : steps.zipIdx.Pairwise fun a b => a.2 < b.2 := by
  have hplaces : (steps.zipIdx.map Prod.snd).Pairwise (· < ·) := by
    rw [List.zipIdx_map_snd]
    exact List.pairwise_lt_range' 1
  exact List.pairwise_map.mp hplaces

/-- **The timeline ascends by time, and by place where times are equal.** -/
theorem timeline_pairwise : s.timeline.Pairwise Precedes := by
  have hsorted : s.timeline.Pairwise fun a b => decide (a.1.time ≤ b.1.time) = true :=
    List.pairwise_mergeSort time_le_trans time_le_total _
  rw [List.pairwise_iff_forall_sublist]
  intro a b hab
  have hle : a.1.time ≤ b.1.time :=
    of_decide_eq_true (List.pairwise_iff_forall_sublist.mp hsorted hab)
  by_cases htied : a.1.time = b.1.time
  · right
    refine ⟨htied, ?_⟩
    -- tied steps stand in the timeline as they are listed
    have hlisted : [a, b].Sublist s.steps.zipIdx := by
      have hkept := hab.filter (·.1.time == a.1.time)
      rw [filter_timeline] at hkept
      refine List.Sublist.trans ?_ (hkept.trans List.filter_sublist)
      simp [htied]
    exact List.pairwise_iff_forall_sublist.mp (zipIdx_pairwise s.steps) hlisted
  · exact .inl (UInt64.lt_of_le_of_ne hle htied)

/-- No other order of the steps does that. -/
theorem timeline_eq_of_perm {timeline : List (Step × Nat)} (hperm : timeline.Perm s.steps.zipIdx)
    (h : timeline.Pairwise Precedes) : s.timeline = timeline :=
  (s.perm_timeline.trans hperm.symm).eq_of_pairwise
    (fun _ _ _ _ hab hba => (hab.asymm hba).elim) s.timeline_pairwise h

/-- The steps of `steps` in another order, in which `place` says where each one has gone.  Steps of
one time keep their order. -/
structure Rearranged (steps steps' : List Step) (place : Nat → Nat) : Prop where
  length_eq : steps'.length = steps.length
  step_eq : ∀ i < steps.length, steps'[place i]? = steps[i]?
  keeps_ties : ∀ j < steps.length, ∀ i < j,
    steps[i]?.map (·.time) = steps[j]?.map (·.time) → place i < place j

/-- A step at another place. -/
def moved (place : Nat → Nat) (p : Step × Nat) : Step × Nat := (p.1, place p.2)

namespace Rearranged

variable {s} {steps steps' : List Step} {place : Nat → Nat}

theorem injective (h : Rearranged steps steps' place) {i j : Nat} (hi : i < steps.length)
    (hj : j < steps.length) (hplace : place i = place j) : i = j := by
  have hstep : steps[i]? = steps[j]? := by rw [← h.step_eq i hi, ← h.step_eq j hj, hplace]
  rcases Nat.lt_trichotomy i j with hlt | heq | hgt
  · have := h.keeps_ties j hj i hlt (congrArg (Option.map (·.time)) hstep)
    omega
  · exact heq
  · have := h.keeps_ties i hi j hgt (congrArg (Option.map (·.time)) hstep.symm)
    omega

theorem perm_zipIdx (h : Rearranged steps steps' place) :
    (steps.zipIdx.map (moved place)).Perm steps'.zipIdx := by
  have hsubset : steps.zipIdx.map (moved place) ⊆ steps'.zipIdx := by
    intro p hp
    obtain ⟨⟨a, i⟩, hmem, rfl⟩ := List.mem_map.mp hp
    have ha : steps[i]? = some a := List.mem_zipIdx_iff_getElem?.mp hmem
    obtain ⟨hi, _⟩ := List.getElem?_eq_some_iff.mp ha
    exact List.mem_zipIdx_iff_getElem?.mpr ((h.step_eq i hi).trans ha)
  have hnodup : (steps.zipIdx.map (moved place)).Nodup := by
    refine List.Nodup.map_on ?_ ((zipIdx_pairwise steps).imp ?_)
    · rintro ⟨a, i⟩ hmem ⟨b, j⟩ hmem' heq
      obtain ⟨hi, _⟩ := List.getElem?_eq_some_iff.mp (List.mem_zipIdx_iff_getElem?.mp hmem)
      obtain ⟨hj, _⟩ := List.getElem?_eq_some_iff.mp (List.mem_zipIdx_iff_getElem?.mp hmem')
      obtain ⟨rfl, hplace⟩ := Prod.mk.inj heq
      exact Prod.ext rfl (h.injective hi hj hplace)
    · rintro a b hlt rfl
      exact Nat.lt_irrefl _ hlt
  refine (List.subperm_of_subset hnodup hsubset).perm_of_length_le ?_
  rw [List.length_map, List.length_zipIdx, List.length_zipIdx, h.length_eq]

/-- **Listing the steps in another order does not change the timeline**, but for the places. -/
theorem timeline_eq (h : Rearranged s.steps steps' place) :
    ({ s with steps := steps' } : Scenario).timeline = s.timeline.map (moved place) := by
  have hperm : (s.timeline.map (moved place)).Perm steps'.zipIdx :=
    (s.perm_timeline.map _).trans h.perm_zipIdx
  have hmoved : (s.timeline.map (moved place)).Pairwise Precedes := by
    rw [List.pairwise_map]
    refine s.timeline_pairwise.imp_of_mem ?_
    rintro ⟨a, i⟩ ⟨b, j⟩ ha hb (hlt | ⟨htied, hlt⟩)
    · exact .inl hlt
    · have ha := List.mem_zipIdx_iff_getElem?.mp (s.perm_timeline.mem_iff.mp ha)
      have hb := List.mem_zipIdx_iff_getElem?.mp (s.perm_timeline.mem_iff.mp hb)
      obtain ⟨hj, _⟩ := List.getElem?_eq_some_iff.mp hb
      refine .inr ⟨htied, h.keeps_ties j hj i hlt ?_⟩
      rw [ha, hb]
      exact congrArg some htied
  exact timeline_eq_of_perm _ hperm hmoved

end Rearranged

/-! ## Following a timeline -/

/-- What steps ask for, each at its time. -/
def requestsOf (timeline : List (Step × Nat)) : List Timed :=
  timeline.flatMap fun (step, _) => step.requests.map (⟨step.time.toNat, ·⟩)

/-- The records of a step that is taken, from the responses to what it asked for. -/
def recordsOf (p : Step × Nat) (responses : List Controller.Response) : List Record :=
  (Controller.activity responses).deliveries.map (⟨p.2, p.1.time, ·.event⟩)

namespace Replay

/-- What is done first, then the replay. -/
def after (later : Replay) (first : Activity) (records : List Record) : Replay :=
  { later with activity := first ++ later.activity, records := records ++ later.records }

/-- The same replay, its records naming the steps by other places. -/
def renumbered (place : Nat → Nat) (r : Replay) : Replay :=
  { r with records := r.records.map fun record => { record with step := place record.step } }

end Replay

section Follow

variable (c : Controller) (state : Controller.State)

theorem follow_cons (p : Step × Nat) (rest : List (Step × Nat)) :
    follow c state (p :: rest) =
      (follow c (c.run state (requestsOf [p])).1 rest).after
        (Controller.activity (c.run state (requestsOf [p])).2)
        (recordsOf p (c.run state (requestsOf [p])).2) := by
  rw [requestsOf, List.flatMap_singleton]
  rfl

theorem records_follow_cons (p : Step × Nat) (rest : List (Step × Nat)) :
    (follow c state (p :: rest)).records = recordsOf p (c.run state (requestsOf [p])).2
      ++ (follow c (c.run state (requestsOf [p])).1 rest).records := by
  rw [follow_cons]
  rfl

theorem requestsOf_cons (p : Step × Nat) (rest : List (Step × Nat)) :
    requestsOf (p :: rest) = requestsOf [p] ++ requestsOf rest := by
  rw [requestsOf, List.flatMap_cons, requestsOf, List.flatMap_singleton]
  rfl

/-- Other places are only seen in the records. -/
theorem follow_moved (place : Nat → Nat) (timeline : List (Step × Nat)) :
    follow c state (timeline.map (moved place)) =
      (follow c state timeline).renumbered place := by
  induction timeline generalizing state with
  | nil => rfl
  | cons p timeline ih =>
    have hrequests : requestsOf [moved place p] = requestsOf [p] := rfl
    rw [List.map_cons, follow_cons, hrequests, ih, follow_cons]
    simp [Replay.renumbered, Replay.after, recordsOf, moved]

theorem follow_controller (timeline : List (Step × Nat)) :
    (follow c state timeline).controller = c := by
  induction timeline generalizing state with
  | nil => rfl
  | cons p timeline ih => exact ih _

/-- The controller is left as its run along the timeline leaves it. -/
theorem follow_state (timeline : List (Step × Nat)) :
    (follow c state timeline).state = (c.run state (requestsOf timeline)).1 := by
  induction timeline generalizing state with
  | nil => rfl
  | cons p timeline ih =>
    rw [requestsOf_cons, Controller.run_append, follow_cons]
    exact ih _

/-- The records are what is handed out in that run. -/
theorem map_event_follow (timeline : List (Step × Nat)) :
    (follow c state timeline).records.map (·.event) =
      (Controller.activity (c.run state (requestsOf timeline)).2).deliveries.map (·.event) := by
  induction timeline generalizing state with
  | nil => rfl
  | cons p timeline ih =>
    rw [requestsOf_cons, Controller.run_append, Controller.deliveries_activity, List.flatMap_append,
      ← Controller.deliveries_activity, ← Controller.deliveries_activity, List.map_append, ← ih,
      records_follow_cons, List.map_append, recordsOf, List.map_map]
    rfl

theorem follow_append (first rest : List (Step × Nat)) :
    (follow c state (first ++ rest)).records = (follow c state first).records
      ++ (follow c (c.run state (requestsOf first)).1 rest).records := by
  induction first generalizing state with
  | nil => rfl
  | cons p first ih =>
    rw [List.cons_append, records_follow_cons, ih, records_follow_cons,
      requestsOf_cons p first, Controller.run_append, List.append_assoc]

/-- A record names a step of the timeline, and its time. -/
theorem exists_of_mem_follow {timeline : List (Step × Nat)} {record : Record}
    (h : record ∈ (follow c state timeline).records) :
    ∃ step, (step, record.step) ∈ timeline ∧ record.time = step.time := by
  induction timeline generalizing state with
  | nil => cases h
  | cons p timeline ih =>
    rw [records_follow_cons] at h
    rcases List.mem_append.mp h with hnow | hlater
    · obtain ⟨_, _, rfl⟩ := List.mem_map.mp hnow
      exact ⟨p.1, List.mem_cons_self, rfl⟩
    · obtain ⟨step, hstep, htime⟩ := ih _ hlater
      exact ⟨step, List.mem_cons_of_mem _ hstep, htime⟩

theorem follow_ascending {timeline : List (Step × Nat)}
    (h : timeline.Pairwise fun a b => a.1.time ≤ b.1.time) :
    (follow c state timeline).records.Pairwise fun a b => a.time ≤ b.time := by
  induction timeline generalizing state with
  | nil => exact .nil
  | cons p timeline ih =>
    obtain ⟨hfirst, hrest⟩ := List.pairwise_cons.mp h
    rw [records_follow_cons, List.pairwise_append]
    refine ⟨?_, ih _ hrest, ?_⟩
    · rw [recordsOf, List.pairwise_map]
      exact List.pairwise_of_forall_mem_list fun _ _ _ _ => UInt64.le_refl _
    · intro record hrecord later hlater
      obtain ⟨_, _, rfl⟩ := List.mem_map.mp hrecord
      obtain ⟨step, hstep, htime⟩ := exists_of_mem_follow c _ hlater
      rw [htime]
      exact hfirst _ hstep

/-- The records of one step are what is handed out when it is taken. -/
theorem filter_follow {before after : List (Step × Nat)} {p : Step × Nat}
    (h : ((before ++ p :: after).map Prod.snd).Nodup) :
    (follow c state (before ++ p :: after)).records.filter (·.step == p.2) =
      recordsOf p (c.run (c.run state (requestsOf before)).1 (requestsOf [p])).2 := by
  -- other steps have other places, so their records fall away
  have helsewhere : ∀ (state : Controller.State) (others : List (Step × Nat)),
      p.2 ∉ others.map Prod.snd →
        (follow c state others).records.filter (·.step == p.2) = [] := by
    intro state others hplace
    rw [List.filter_eq_nil_iff]
    intro record hrecord
    obtain ⟨other, hother, _⟩ := exists_of_mem_follow c state hrecord
    rw [beq_iff_eq]
    intro hstep
    exact hplace (hstep ▸ List.mem_map_of_mem hother)
  rw [List.map_append, List.map_cons] at h
  have hsplit := List.nodup_middle.mp h
  obtain ⟨hbefore, hafter⟩ := not_or.mp (mt List.mem_append.mpr (List.nodup_cons.mp hsplit).1)
  rw [follow_append, List.filter_append, helsewhere _ _ hbefore, List.nil_append,
    records_follow_cons, List.filter_append, helsewhere _ _ hafter, List.append_nil,
    List.filter_eq_self]
  intro record hrecord
  obtain ⟨_, _, rfl⟩ := List.mem_map.mp hrecord
  exact beq_self_eq_true p.2

end Follow

/-! ## Replays -/

/-- Whether a scenario is replayed depends on its sources and on the configuration. -/
theorem replay_eq (s : Scenario) (config : Config) : s.replay config =
    s.members.bind fun members => ((Controller.build config).mapError .config).map fun c =>
      follow c (c.start ⟨members, s.trust⟩ s.settings [recorder]) s.timeline := by
  unfold replay
  cases s.members with
  | error => rfl
  | ok members =>
    cases (Controller.build config).mapError Error.config with
    | error => rfl
    | ok => rfl

theorem replay_eq_ok_iff {s : Scenario} {config : Config} {r : Replay} :
    s.replay config = .ok r ↔ ∃ members c, s.members = .ok members ∧
      Controller.build config = .ok c ∧
      r = follow c (c.start ⟨members, s.trust⟩ s.settings [recorder]) s.timeline := by
  rw [replay_eq]
  cases s.members with
  | error e => simp [Except.bind]
  | ok members =>
    cases Controller.build config with
    | error e => simp [Except.bind, Except.map, Except.mapError]
    | ok c => simp [Except.bind, Except.map, Except.mapError, eq_comm]

/-- The replay is the run of a controller along the timeline of the scenario, and its records are
what is published in that run. -/
structure Replay.Logs (r : Replay) (s : Scenario) (start : Controller.State) : Prop where
  /-- Every step is taken once. -/
  timeline : s.timeline.Perm s.steps.zipIdx
  state : r.state = (r.controller.run start (requestsOf s.timeline)).1
  /-- No event is left out, and none is added. -/
  events : r.records.map (·.event) = (Controller.activity
    (r.controller.run start (requestsOf s.timeline)).2).deliveries.map (·.event)
  ascending : r.records.Pairwise fun a b => a.time ≤ b.time
  /-- The records that name a step are what is published when it is taken. -/
  tagged : ∀ before p after, s.timeline = before ++ p :: after →
    r.records.filter (·.step == p.2) = recordsOf p
      (r.controller.run (r.controller.run start (requestsOf before)).1 (requestsOf [p])).2

theorem logs_follow (s : Scenario) (c : Controller) (start : Controller.State) :
    (follow c start s.timeline).Logs s start := by
  have hcontroller := follow_controller c start s.timeline
  refine ⟨s.perm_timeline, ?_, ?_, ?_, ?_⟩
  · rw [hcontroller]
    exact follow_state c start s.timeline
  · rw [hcontroller]
    exact map_event_follow c start s.timeline
  · exact follow_ascending c start (s.timeline_pairwise.imp Precedes.time_le)
  · intro before p after htimeline
    have hplaces : (s.timeline.map Prod.snd).Nodup := by
      rw [(s.perm_timeline.map Prod.snd).nodup_iff, List.zipIdx_map_snd]
      exact List.nodup_range'
    rw [hcontroller, htimeline]
    rw [htimeline] at hplaces
    exact filter_follow c start hplaces

/-- **A replay does not depend on how a scenario lists its steps.**  As long as steps of one time
keep their order, the replay ends in the same error, or in the same state of the same controller
and with the same records, but for the places by which they name the steps.  The records are just
what the controller publishes, in the order of time, and each names the step that caused it. -/
theorem replay_of_rearranged {s : Scenario} {steps' : List Step} {place : Nat → Nat}
    (h : Rearranged s.steps steps' place) (config : Config) :
    ({ s with steps := steps' } : Scenario).replay config =
        (s.replay config).map (Replay.renumbered place) ∧
      ∀ r, s.replay config = .ok r → ∃ members, s.members = .ok members ∧
        Controller.build config = .ok r.controller ∧
        r.Logs s (r.controller.start ⟨members, s.trust⟩ s.settings [recorder]) := by
  constructor
  · have hmembers : ({ s with steps := steps' } : Scenario).members = s.members := rfl
    rw [replay_eq, replay_eq, hmembers, h.timeline_eq]
    cases s.members with
    | error => rfl
    | ok members =>
      cases Controller.build config with
      | error => rfl
      | ok c => exact congrArg Except.ok (follow_moved c _ place s.timeline)
  · intro r hr
    obtain ⟨members, c, hmembers, hbuild, rfl⟩ := replay_eq_ok_iff.mp hr
    refine ⟨members, hmembers, ?_, ?_⟩
    · rw [follow_controller]
      exact hbuild
    · rw [follow_controller]
      exact logs_follow s c _

/-- Alice joins Bob just before the bandwidth drops: these two steps are of one time, and both are
listed before the first one.  Listed by time the replay is the same, and the records name the steps
by their new places. -/
theorem replay_of_rearranged_tied_steps :
    let camera : Source := ⟨webcam, [⟨180, .ofNat 30, 100⟩, ⟨360, .ofNat 30, 300⟩], []⟩
    let joins : Step := { time := 100, order := some [alice, bob] }
    let drops : Step := { time := 100, bandwidth := some 150 }
    let starts : Step := { bandwidth := some 1000, order := some [bob] }
    let s : Scenario :=
      { participants := [⟨alice, [camera]⟩, ⟨bob, [camera]⟩], steps := [joins, drops, starts] }
    let steps' := [starts, joins, drops]
    let place : Nat → Nat := fun i => (i + 1) % 3
    let start := slotController.start twoMembers {} [recorder]
    let r := follow slotController start s.timeline
    Rearranged s.steps steps' place ∧ s.replay {} = .ok r ∧
      r.records.map (·.step) = [2, 2, 0, 0, 1] ∧
      ({ s with steps := steps' } : Scenario).replay {} = .ok (r.renumbered place) ∧
      (r.renumbered place).records.map (·.step) = [0, 0, 1, 1, 2] ∧ r.Logs s start := by
  intro camera joins drops starts s steps' place start r
  have hrearranged : Rearranged s.steps steps' place := ⟨rfl, by decide +kernel, by decide +kernel⟩
  have htimeline : s.timeline = [(starts, 2), (joins, 0), (drops, 1)] :=
    s.timeline_eq_of_perm (by decide +kernel) (by decide +kernel)
  have hsteps : r.records.map (·.step) = [2, 2, 0, 0, 1] := by
    simp only [r, htimeline]
    decide +kernel
  have hmembers : s.members = .ok twoMembers.members := rfl
  have hreplay : s.replay {} = .ok r :=
    replay_eq_ok_iff.mpr ⟨_, slotController, hmembers, build_slotController, rfl⟩
  obtain ⟨hsame, hlogs⟩ := replay_of_rearranged hrearranged {}
  refine ⟨hrearranged, hreplay, hsteps, ?_, ?_, ?_⟩
  · rw [hsame, hreplay]
    rfl
  · calc (r.renumbered place).records.map (·.step)
      _ = (r.records.map (·.step)).map place := by simp [Replay.renumbered]
      _ = [0, 0, 1, 1, 2] := by rw [hsteps]; rfl
  · obtain ⟨members, hmembers', hbuild, hlogs⟩ := hlogs r hreplay
    cases hmembers.symm.trans hmembers'
    have hcontroller : r.controller = slotController := follow_controller ..
    rw [hcontroller] at hlogs
    exact hlogs

end Downlink.Scenario
