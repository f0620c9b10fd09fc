import Mathlib
import Downlink.Controller.Step

/-!
# Steps and runs

What one step of a controller can do, said once: it takes in what is asked for, and then it either
recomputes or leaves it at that.  What a recomputation puts in place and publishes follows from the
allocation that is called for.

## Results

* `step_stepped` — the two ways in which a step goes.
* `recompute_deliveries` — every subscriber is handed the news of a recomputation, and in order.
* `step_subscribers` — subscribers stay, and those who join stand behind the others.
* `run_invariant` — what steps keep, runs keep.
* `shown_run` — what is shown of estimate, settings and constraints is never behind.
-/

set_option autoImplicit false

namespace Downlink

namespace Activity

@[simp] theorem deliveries_append (a b : Activity) :
    (a ++ b).deliveries = a.deliveries ++ b.deliveries := rfl

@[simp] theorem published_append (a b : Activity) :
    (a ++ b).published = a.published + b.published := rfl

/-- Nothing was done but for counting an estimate. -/
def IsQuiet (a : Activity) : Prop :=
  ∃ accepted ignored, a = { acceptedEstimates := accepted, ignoredEstimates := ignored }

theorem isQuiet_empty : IsQuiet {} := ⟨0, 0, rfl⟩

namespace IsQuiet

variable {a : Activity}

theorem deliveries_eq_nil (h : a.IsQuiet) : a.deliveries = [] := by
  obtain ⟨_, _, rfl⟩ := h
  rfl

theorem recomputations_eq_zero (h : a.IsQuiet) : a.recomputations = 0 := by
  obtain ⟨_, _, rfl⟩ := h
  rfl

theorem published_eq_zero (h : a.IsQuiet) : a.published = 0 := by
  obtain ⟨_, _, rfl⟩ := h
  rfl

end IsQuiet

end Activity

namespace Controller

variable {c : Controller} {now : Nat} {s t : State}

namespace State

/-- What the allocation is computed from is the same in both. -/
structure SameDemand (s t : State) : Prop where
  conference : t.conference = s.conference
  settings : t.settings = s.settings
  estimate : t.estimate = s.estimate
  order : t.order = s.order

/-- What was computed, and what is shown of it, is the same in both. -/
structure SameResults (s t : State) : Prop where
  effective : t.effective = s.effective
  allocation : t.allocation = s.allocation
  lastRecompute : t.lastRecompute = s.lastRecompute
  debug : t.debug = s.debug

theorem SameResults.refl (s : State) : s.SameResults s := ⟨rfl, rfl, rfl, rfl⟩

/-- The allocation called for. -/
def called (c : Controller) (s : State) : Computation :=
  c.compute s.conference s.settings s.estimate s.order

namespace SameDemand

theorem symm (h : s.SameDemand t) : t.SameDemand s :=
  ⟨h.conference.symm, h.settings.symm, h.estimate.symm, h.order.symm⟩

theorem trans {u : State} (h : s.SameDemand t) (h' : t.SameDemand u) : s.SameDemand u where
  conference := h'.conference.trans h.conference
  settings := h'.settings.trans h.settings
  estimate := h'.estimate.trans h.estimate
  order := h'.order.trans h.order

theorem called_eq (h : s.SameDemand t) (c : Controller) : t.called c = s.called c := by
  rw [called, called, h.conference, h.settings, h.estimate, h.order]

end SameDemand

/-- What is shown of a state at inspection keeps up with it.  Trust is shown as it was when the
allocation was computed last. -/
structure Shown (s : State) : Prop where
  estimate : s.debug.estimate = s.estimate
  settings : s.debug.settings = s.settings.summary
  effective : s.debug.effective = s.effective

end State

/-! ## Recomputing -/

/-- What is there to tell after recomputing from a state: the allocation unless it is the same as
the one published last, and the constraints if they changed. -/
def news (c : Controller) (s : State) : List Event :=
  if s.order = [] then []
  else
    (if s.allocation.isSameAs (s.called c).outcome.allocation then []
      else [.allocationChanged (s.called c).outcome.allocation])
    ++ if s.effective == (s.called c).effective then []
      else [.constraintsChanged s.effective (s.called c).effective]

theorem news_eq_nil_iff (horder : s.order ≠ []) : c.news s = [] ↔
    s.allocation.isSameAs (s.called c).outcome.allocation = true ∧
      (s.effective == (s.called c).effective) = true := by
  rw [news, if_neg horder, List.append_eq_nil_iff]
  simp only [ite_eq_left_iff, List.cons_ne_nil, imp_false, not_not]

/-- Without an order everything stays, and it is shown anew. -/
theorem recompute_of_order_eq_nil (h : s.order = []) (now : Nat) :
    c.recompute now s = (State.refreshDebug { s with lastRecompute := some now }, {}) := by
  have hidle : s.order.isEmpty = true := List.isEmpty_iff.mpr h
  simp only [recompute, hidle, if_true]

/-- What is called for is put in place; an allocation that is the same as the old one is not.  What
changed is handed out, the allocation first. -/
theorem recompute_of_order_ne_nil (h : s.order ≠ []) (now : Nat) :
    c.recompute now s =
      (State.refreshDebug
        { s with
          lastRecompute := some now
          effective := (s.called c).effective
          allocation := if s.allocation.isSameAs (s.called c).outcome.allocation then s.allocation
            else (s.called c).outcome.allocation },
      { snapshots := 1, recomputations := 1 } ++ State.allocating (s.called c).outcome
        ++ (if s.allocation.isSameAs (s.called c).outcome.allocation then {}
          else { published := 1 }
            ++ State.notify s.subscribers (.allocationChanged (s.called c).outcome.allocation))
        ++ if s.effective == (s.called c).effective then {}
          else State.notify s.subscribers
            (.constraintsChanged s.effective (s.called c).effective)) := by
  have hbusy : s.order.isEmpty = false := List.isEmpty_eq_false_iff.mpr h
  unfold State.called
  simp only [recompute, hbusy, Bool.false_eq_true, if_false]
  cases s.allocation.isSameAs
    (c.compute s.conference s.settings s.estimate s.order).outcome.allocation <;> rfl

theorem recompute_deliveries (c : Controller) (now : Nat) (s : State) :
    (c.recompute now s).2.deliveries =
      (c.news s).flatMap fun e => (State.notify s.subscribers e).deliveries := by
  by_cases horder : s.order = []
  · rw [recompute_of_order_eq_nil horder, news, if_pos horder]
    rfl
  · rw [recompute_of_order_ne_nil horder, news, if_neg horder]
    split <;> split <;> simp [State.allocating]

theorem recompute_recomputations (c : Controller) (now : Nat) (s : State) :
    (c.recompute now s).2.recomputations = if s.order = [] then 0 else 1 := by
  by_cases horder : s.order = []
  · rw [recompute_of_order_eq_nil horder, if_pos horder]
  · rw [recompute_of_order_ne_nil horder, if_neg horder]
    split <;> split <;> rfl

/-- Recomputing touches nothing but the results, and shows them. -/
theorem exists_recompute_eq (c : Controller) (now : Nat) (s : State) :
    ∃ effective allocation, (c.recompute now s).1 =
      State.refreshDebug { s with lastRecompute := some now, effective, allocation } := by
  by_cases horder : s.order = []
  · rw [recompute_of_order_eq_nil horder]
    exact ⟨s.effective, s.allocation, rfl⟩
  · rw [recompute_of_order_ne_nil horder]
    exact ⟨_, _, rfl⟩

/-- Recomputing answers the demand and does not change it. -/
theorem sameDemand_recompute (c : Controller) (now : Nat) (s : State) :
    s.SameDemand (c.recompute now s).1 := by
  obtain ⟨effective, allocation, hstate⟩ := exists_recompute_eq c now s
  rw [hstate]
  exact ⟨rfl, rfl, rfl, rfl⟩

theorem recompute_subscribers (c : Controller) (now : Nat) (s : State) :
    (c.recompute now s).1.subscribers = s.subscribers := by
  obtain ⟨effective, allocation, hstate⟩ := exists_recompute_eq c now s
  rw [hstate]
  rfl

/-- What is shown after recomputing needs no refreshing. -/
theorem refreshDebug_recompute (c : Controller) (now : Nat) (s : State) :
    (c.recompute now s).1.refreshDebug = (c.recompute now s).1 := by
  obtain ⟨effective, allocation, hstate⟩ := exists_recompute_eq c now s
  rw [hstate]
  rfl

theorem shown_recompute (c : Controller) (now : Nat) (s : State) :
    (c.recompute now s).1.Shown := by
  rw [← refreshDebug_recompute]
  exact ⟨rfl, rfl, rfl⟩

/-- Subscribers are handed nothing but the news. -/
theorem event_mem_news {d : Delivery} (h : d ∈ (c.recompute now s).2.deliveries) :
    d.event ∈ c.news s := by
  rw [recompute_deliveries] at h
  obtain ⟨e, he, hd⟩ := List.mem_flatMap.mp h
  obtain ⟨_, _, rfl⟩ := List.mem_map.mp hd
  exact he

/-- An allocation in the news is the one called for. -/
theorem eq_called_of_mem_news {a : Allocation} (h : .allocationChanged a ∈ c.news s) :
    s.order ≠ [] ∧ a = (s.called c).outcome.allocation := by
  unfold news at h
  split at h
  · cases h
  · rename_i horder
    refine ⟨horder, ?_⟩
    rcases List.mem_append.mp h with h | h
    · split at h
      · cases h
      · exact Event.allocationChanged.inj (List.mem_singleton.mp h)
    · split at h
      · cases h
      · cases List.mem_singleton.mp h

/-! ## One step -/

/-- What a step comes to.  Either a new demand is taken in and answered, or the demand is what it
was but for the conference, and it is not answered. -/
inductive Stepped (c : Controller) (now : Nat) (s : State) : State × Response → Prop
  | recomputed {t : State} (answer : Option Bool) {before : Activity} : s.SameResults t →
      t.conference = s.conference → t.subscribers = s.subscribers → before.IsQuiet →
      Stepped c now s (c.recomputing now answer before t)
  | rested {t : State} {response : Response} : s.SameResults t → t.settings = s.settings →
      t.estimate = s.estimate → t.order = s.order → response.activity.IsQuiet →
      Stepped c now s (t, response)

theorem applySignaling_stepped (c : Controller) (now : Nat) (s : State)
    (signaled : SelectionSignaling × Bool) : Stepped c now s (c.applySignaling now s signaled) := by
  obtain ⟨signaling, changed⟩ := signaled
  cases changed with
  | false => exact .rested ⟨rfl, rfl, rfl, rfl⟩ rfl rfl rfl Activity.isQuiet_empty
  | true =>
    show Stepped c now s (c.recomputing now (some true) {} { s with signaling, settings := _ })
    exact .recomputed _ ⟨rfl, rfl, rfl, rfl⟩ rfl rfl Activity.isQuiet_empty

/-- **The two ways in which a step goes.** -/
theorem step_stepped (c : Controller) (now : Nat) (s : State) (request : Request) :
    Stepped c now s (c.step now s request) := by
  cases request with
  | reportBandwidth bps =>
    rw [step]
    split
    · exact .recomputed (some true) ⟨rfl, rfl, rfl, rfl⟩ rfl rfl ⟨1, 0, rfl⟩
    · exact .rested (.refl s) rfl rfl rfl ⟨0, 1, rfl⟩
  | setOrder order =>
    rw [step]
    exact .recomputed none ⟨rfl, rfl, rfl, rfl⟩ rfl rfl Activity.isQuiet_empty
  | updateSettings settings =>
    rw [step]
    exact .recomputed none ⟨rfl, rfl, rfl, rfl⟩ rfl rfl Activity.isQuiet_empty
  | select listed => exact applySignaling_stepped c now s _
  | capHeight height => exact applySignaling_stepped c now s _
  | recomputeIfStale dispatch =>
    rw [step]
    split
    · exact .recomputed _ (.refl s) rfl rfl Activity.isQuiet_empty
    · exact .rested (.refl s) rfl rfl rfl Activity.isQuiet_empty
  | setMembers members => exact .rested ⟨rfl, rfl, rfl, rfl⟩ rfl rfl rfl Activity.isQuiet_empty
  | setTrust trustsEstimate =>
    exact .rested ⟨rfl, rfl, rfl, rfl⟩ rfl rfl rfl Activity.isQuiet_empty
  | subscribe subscriber => exact .rested ⟨rfl, rfl, rfl, rfl⟩ rfl rfl rfl Activity.isQuiet_empty

/-- Who joins with a request. -/
def newcomers : Request → List Subscriber
  | .subscribe subscriber => [subscriber]
  | _ => []

theorem applySignaling_subscribers (c : Controller) (now : Nat) (s : State)
    (signaled : SelectionSignaling × Bool) :
    (c.applySignaling now s signaled).1.subscribers = s.subscribers := by
  obtain ⟨signaling, changed⟩ := signaled
  cases changed with
  | false => rfl
  | true => exact recompute_subscribers ..

theorem step_subscribers (c : Controller) (now : Nat) (s : State) (request : Request) :
    (c.step now s request).1.subscribers = s.subscribers ++ newcomers request := by
  cases request with
  | reportBandwidth bps =>
    refine Eq.trans ?_ (List.append_nil _).symm
    rw [step]
    split
    · exact recompute_subscribers ..
    · rfl
  | setOrder order => exact (recompute_subscribers ..).trans (List.append_nil _).symm
  | updateSettings settings => exact (recompute_subscribers ..).trans (List.append_nil _).symm
  | select listed => exact (applySignaling_subscribers ..).trans (List.append_nil _).symm
  | capHeight height => exact (applySignaling_subscribers ..).trans (List.append_nil _).symm
  | recomputeIfStale dispatch =>
    refine Eq.trans ?_ (List.append_nil _).symm
    rw [step]
    split
    · exact recompute_subscribers ..
    · rfl
  | setMembers members => exact (List.append_nil _).symm
  | setTrust trustsEstimate => exact (List.append_nil _).symm
  | subscribe subscriber => rfl

theorem shown_step (h : s.Shown) (now : Nat) (request : Request) :
    (c.step now s request).1.Shown := by
  have hstepped := step_stepped c now s request
  generalize c.step now s request = result at hstepped ⊢
  cases hstepped with
  | recomputed => exact shown_recompute ..
  | rested hresults hsettings hestimate _ _ =>
    refine ⟨?_, ?_, ?_⟩
    · rw [hresults.debug, hestimate, h.estimate]
    · rw [hresults.debug, hsettings, h.settings]
    · rw [hresults.debug, hresults.effective, h.effective]

/-! ## Runs -/

theorem run_cons (c : Controller) (s : State) (r : Timed) (rest : List Timed) :
    c.run s (r :: rest) = ((c.run (c.step r.time s r.request).1 rest).1,
      (c.step r.time s r.request).2 :: (c.run (c.step r.time s r.request).1 rest).2) := rfl

theorem run_append (c : Controller) (s : State) (first rest : List Timed) :
    c.run s (first ++ rest) = ((c.run (c.run s first).1 rest).1,
      (c.run s first).2 ++ (c.run (c.run s first).1 rest).2) := by
  induction first generalizing s with
  | nil => rfl
  | cons r first ih => rw [List.cons_append, run_cons, ih, run_cons, List.cons_append]

theorem length_responses (c : Controller) (s : State) (requests : List Timed) :
    (c.run s requests).2.length = requests.length := by
  induction requests generalizing s with
  | nil => rfl
  | cons r requests ih => rw [run_cons, List.length_cons, List.length_cons, ih]

theorem deliveries_activity (responses : List Response) :
    (activity responses).deliveries = responses.flatMap (·.activity.deliveries) := by
  suffices hfold : ∀ (responses : List Response) (sum : Activity),
      (responses.foldl (fun sum r => sum ++ r.activity) sum).deliveries =
        sum.deliveries ++ responses.flatMap (·.activity.deliveries) from hfold responses {}
  intro responses
  induction responses with
  | nil => exact fun sum => (List.append_nil _).symm
  | cons r responses ih =>
    intro sum
    rw [List.foldl_cons, ih, Activity.deliveries_append, List.append_assoc, List.flatMap_cons]

/-- **What every step keeps, every run keeps.** -/
theorem run_invariant {P : State → Prop}
    (hstep : ∀ (s : State) (r : Timed), P s → P (c.step r.time s r.request).1) (hs : P s)
    (requests : List Timed) : P (c.run s requests).1 := by
  induction requests generalizing s with
  | nil => exact hs
  | cons r requests ih => exact ih (hstep s r hs)

theorem shown_start (c : Controller) (conference : Conference) (settings : Settings)
    (subscribers : List Subscriber) : (c.start conference settings subscribers).Shown :=
  ⟨rfl, rfl, rfl⟩

/-- **What is shown is never behind.** -/
theorem shown_run (c : Controller) (conference : Conference) (settings : Settings)
    (subscribers : List Subscriber) (requests : List Timed) :
    (c.run (c.start conference settings subscribers) requests).1.Shown :=
  run_invariant (P := State.Shown) (fun _ r h => shown_step h r.time r.request)
    (shown_start c conference settings subscribers) requests

end Controller

/-! ## A sample history -/

def alice : ParticipantId := ⟨"alice", by decide⟩

def bob : ParticipantId := ⟨"bob", by decide⟩

/-- Two members with a camera each, sent at a low or a high bitrate. -/
def twoMembers : Conference :=
  let camera : MediaSource :=
    ⟨⟨"webcam", by decide⟩, [⟨180, .ofNat 30, 100⟩, ⟨360, .ofNat 30, 300⟩]⟩
  { members := [⟨alice, [camera]⟩, ⟨bob, [camera]⟩] }

def webcam : SourceId := ⟨"webcam", by decide⟩

/-- The slot rule, and a configuration of defaults. -/
def slotController : Controller where
  config := {}
  policy := (SlotPolicy.ofConfig {}).effective

theorem build_slotController : Controller.build {} = .ok slotController := by
  have hvalid : Config.validate {} = .ok () := by decide +kernel
  rw [Controller.build, hvalid]
  rfl

/-- Bob is alone in the order, room is found for more, and Alice comes in before him. -/
def aliceJoins : List Controller.Timed :=
  [⟨0, .setOrder [bob]⟩, ⟨1, .reportBandwidth 1000⟩, ⟨2, .setOrder [alice, bob]⟩]

end Downlink
