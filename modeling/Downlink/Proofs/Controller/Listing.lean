import Downlink.Proofs.Controller.Limits
import Downlink.Proofs.Listing

/-!
# Listing in a run

Two runs in which the same happens, but members and layers are listed in different orders, cannot be
told apart: every step answers and does the same in both, and leaves the same in place.

## Results

* `Controller.compute_eq_of_relisted` — what is called for does not depend on the listing.
* `Controller.step_relisted` — a step answers and does the same under both listings.
* `Controller.run_ignores_listing` — so does every step of a run, from the start on.
-/

set_option autoImplicit false

namespace Downlink

/-- The same conference, its members listed in any order. -/
structure Conference.Relisted (conference conference' : Conference) : Prop where
  members : Downlink.Relisted conference.members conference'.members
  trust_eq : conference'.trustsEstimate = conference.trustsEstimate

namespace Controller

variable {c : Controller} {s t : State}

/-! ## Recomputing -/

theorem units_eq_of_relisted (config : Config) (strategy : Strategy)
    (effective : EffectiveConstraints) {ordered ordered' : List Member}
    (h : List.Forall₂ Member.Relisted ordered ordered') :
    units config strategy effective ordered' = units config strategy effective ordered := by
  unfold units
  induction h with
  | nil => rfl
  | cons hm _ ih => rw [List.flatMap_cons, List.flatMap_cons, ih, hm.map_build_eq, hm.id_eq]

/-- **What is called for does not depend on the listing.** -/
theorem compute_eq_of_relisted (hpolicy : ConstraintsPolicy.IgnoresListing c.policy)
    {conference conference' : Conference} (h : conference.Relisted conference')
    (settings : Settings) (estimate : Estimate) (order : List ParticipantId) :
    c.compute conference' settings estimate order =
      c.compute conference settings estimate order := by
  have hordered := h.members.forall₂_prioritize order settings.selected
  simp only [compute, budget, hpolicy _ _ settings hordered, h.trust_eq,
    units_eq_of_relisted _ _ _ hordered]

/-- The same state, but for the listing of the conference. -/
def State.Relisted (s t : State) : Prop :=
  ∃ conference, s.conference.Relisted conference ∧ t = { s with conference }

namespace State.Relisted

theorem refreshDebug (h : s.Relisted t) : s.refreshDebug.Relisted t.refreshDebug := by
  obtain ⟨conference, hconference, rfl⟩ := h
  refine ⟨conference, hconference, ?_⟩
  simp only [State.refreshDebug, hconference.trust_eq]

theorem called_eq (hpolicy : ConstraintsPolicy.IgnoresListing c.policy) (h : s.Relisted t) :
    t.called c = s.called c := by
  obtain ⟨conference, hconference, rfl⟩ := h
  exact compute_eq_of_relisted hpolicy hconference s.settings s.estimate s.order

end State.Relisted

theorem recompute_relisted (hpolicy : ConstraintsPolicy.IgnoresListing c.policy)
    (h : s.Relisted t) (now : Nat) :
    (c.recompute now s).1.Relisted (c.recompute now t).1 ∧
      (c.recompute now t).2 = (c.recompute now s).2 := by
  have hcalled := h.called_eq hpolicy
  obtain ⟨conference, hconference, rfl⟩ := h
  by_cases horder : s.order = []
  · rw [recompute_of_order_eq_nil horder, recompute_of_order_eq_nil (c := c)
      (s := { s with conference }) horder]
    exact ⟨State.Relisted.refreshDebug ⟨conference, hconference, rfl⟩, rfl⟩
  · rw [recompute_of_order_ne_nil horder, recompute_of_order_ne_nil (c := c)
      (s := { s with conference }) horder, hcalled]
    exact ⟨State.Relisted.refreshDebug ⟨conference, hconference, rfl⟩, rfl⟩

theorem recomputing_relisted (hpolicy : ConstraintsPolicy.IgnoresListing c.policy)
    (h : s.Relisted t) (now : Nat) (answer : Option Bool) (before : Activity) :
    (c.recomputing now answer before s).1.Relisted (c.recomputing now answer before t).1 ∧
      (c.recomputing now answer before t).2 = (c.recomputing now answer before s).2 := by
  obtain ⟨hstate, hactivity⟩ := recompute_relisted hpolicy h now
  refine ⟨hstate, ?_⟩
  simp only [recomputing, hactivity]

/-! ## One step -/

/-- The same request, but for the listing of members that it brings. -/
inductive Request.Relisted : Request → Request → Prop
  | setMembers {members members' : List Member} : Downlink.Relisted members members' →
      Relisted (.setMembers members) (.setMembers members')
  | same {request : Request} : (∀ members, request ≠ .setMembers members) →
      Relisted request request

/-- The same request at the same time, but for the listing of members that it brings. -/
structure Timed.Relisted (r r' : Timed) : Prop where
  time_eq : r'.time = r.time
  request : r.request.Relisted r'.request

theorem applySignaling_relisted (hpolicy : ConstraintsPolicy.IgnoresListing c.policy)
    (h : s.Relisted t) (now : Nat) (signaled : SelectionSignaling × Bool) :
    (c.applySignaling now s signaled).1.Relisted (c.applySignaling now t signaled).1 ∧
      (c.applySignaling now t signaled).2 = (c.applySignaling now s signaled).2 := by
  obtain ⟨conference, hconference, rfl⟩ := h
  obtain ⟨signaling, changed⟩ := signaled
  cases changed with
  | false => exact ⟨⟨conference, hconference, rfl⟩, rfl⟩
  | true =>
    exact recomputing_relisted (s := { s with signaling, settings := signaling.applyTo s.settings })
      hpolicy ⟨conference, hconference, rfl⟩ now (some true) {}

/-- **A step answers and does the same under both listings**, and leaves the same in place. -/
theorem step_relisted (hpolicy : ConstraintsPolicy.IgnoresListing c.policy) (h : s.Relisted t)
    (now : Nat) {request request' : Request} (hrequest : request.Relisted request') :
    (c.step now s request).1.Relisted (c.step now t request').1 ∧
      (c.step now t request').2 = (c.step now s request).2 := by
  obtain ⟨conference, hconference, rfl⟩ := h
  cases hrequest with
  | @setMembers _ members' hmembers =>
    exact ⟨⟨{ conference with members := members' }, ⟨hmembers, hconference.trust_eq⟩, rfl⟩, rfl⟩
  | same hsame =>
    cases request with
    | setMembers members => exact absurd rfl (hsame members)
    | setTrust trustsEstimate =>
      exact ⟨⟨{ conference with trustsEstimate }, ⟨hconference.members, rfl⟩, rfl⟩, rfl⟩
    | subscribe subscriber => exact ⟨⟨conference, hconference, rfl⟩, rfl⟩
    | setOrder order =>
      exact recomputing_relisted (s := { s with order }) hpolicy ⟨conference, hconference, rfl⟩
        now none {}
    | updateSettings settings =>
      exact recomputing_relisted (s := { s with settings }) hpolicy ⟨conference, hconference, rfl⟩
        now none {}
    | select listed =>
      exact applySignaling_relisted hpolicy ⟨conference, hconference, rfl⟩ now _
    | capHeight height =>
      exact applySignaling_relisted hpolicy ⟨conference, hconference, rfl⟩ now _
    | reportBandwidth bps =>
      by_cases hreacts : c.config.gate.reacts s.estimate ⟨bps⟩ = true
      · simp only [step, hreacts, if_true]
        exact recomputing_relisted (s := { s with estimate := ⟨bps⟩ }) hpolicy
          ⟨conference, hconference, rfl⟩ now (some true) { acceptedEstimates := 1 }
      · simp only [step, hreacts]
        exact ⟨⟨conference, hconference, rfl⟩, rfl⟩
    | recomputeIfStale dispatch =>
      by_cases hstale : c.isStale now s = true
      · have hstale' : c.isStale now { s with conference } = true := hstale
        simp only [step, hstale, hstale', if_true]
        exact recomputing_relisted hpolicy ⟨conference, hconference, rfl⟩ now _ _
      · have hstale' : ¬ c.isStale now { s with conference } = true := hstale
        simp only [step, hstale, hstale']
        exact ⟨⟨conference, hconference, rfl⟩, rfl⟩

/-! ## Runs -/

theorem start_relisted {conference conference' : Conference} (h : conference.Relisted conference')
    (settings : Settings) (subscribers : List Subscriber) :
    (c.start conference settings subscribers).Relisted
      (c.start conference' settings subscribers) := by
  refine ⟨conference', h, ?_⟩
  simp only [start, h.trust_eq]

theorem run_relisted (hpolicy : ConstraintsPolicy.IgnoresListing c.policy) (h : s.Relisted t)
    {requests requests' : List Timed} (hrequests : List.Forall₂ Timed.Relisted requests requests') :
    (c.run s requests).1.Relisted (c.run t requests').1 ∧
      (c.run t requests').2 = (c.run s requests).2 := by
  induction hrequests generalizing s t with
  | nil => exact ⟨h, rfl⟩
  | @cons r r' requests requests' hr _ ih =>
    obtain ⟨hstate, hresponse⟩ := step_relisted hpolicy h r.time hr.request
    obtain ⟨hstates, hresponses⟩ := ih hstate
    rw [run_cons, run_cons, hr.time_eq, hresponse, hresponses]
    exact ⟨hstates, rfl⟩

theorem ignoresListing_of_build {config : Config} {policy : Option ConstraintsPolicy}
    (hbuild : build config policy = .ok c)
    (hpolicy : ∀ p ∈ policy, ConstraintsPolicy.IgnoresListing p) :
    ConstraintsPolicy.IgnoresListing c.policy := by
  rw [eq_of_build hbuild]
  cases policy with
  | none => exact SlotPolicy.ignoresListing _
  | some p => exact hpolicy p rfl

/-- **A run does not depend on the listing.**  However members and the layers of their sources are
listed, at first and whenever the members are set anew, as long as members have distinct ids: every
step answers and does the same, and after it the same is shown and allocated.  A policy that is
given must not look at the listing of layers; the slot rule does not.  Members that stay are listed
in another order at any time by setting them anew. -/
theorem run_ignores_listing {config : Config} {policy : Option ConstraintsPolicy}
    (hbuild : build config policy = .ok c)
    (hpolicy : ∀ p ∈ policy, ConstraintsPolicy.IgnoresListing p)
    {conference conference' : Conference} (h : conference.Relisted conference')
    (settings : Settings) (subscribers : List Subscriber) {past past' : List Timed}
    (hpast : List.Forall₂ Timed.Relisted past past') (k : Nat) :
    let run := c.run (c.start conference settings subscribers) (past.take k)
    let run' := c.run (c.start conference' settings subscribers) (past'.take k)
    run'.2 = run.2 ∧ run'.1.debug = run.1.debug ∧ run'.1.allocation = run.1.allocation := by
  intro run run'
  have hignores := ignoresListing_of_build hbuild hpolicy
  obtain ⟨⟨_, _, hstate⟩, hresponses⟩ := run_relisted (c := c) hignores
    (start_relisted h settings subscribers) (List.forall₂_take k hpast)
  refine ⟨hresponses, ?_, ?_⟩
  · rw [hstate]
  · rw [hstate]

/-- Alice publishes a webcam in the given layers, and Bob nothing. -/
def aliceThenBob (layers : List Layer) : List Member :=
  [⟨alice, [⟨webcam, layers⟩]⟩, ⟨bob, []⟩]

/-- Alice's greater layers differ in their frame rates only: one is the negative zero, and one is
not a number.  She and Bob are listed the other way round, and so are her layers.  She is sent the
same, first as a thumbnail and then in any of her layers. -/
theorem run_ignores_listing_tied_layers :
    let small : Layer := ⟨180, .zero false, 100⟩
    let zero : Layer := ⟨360, .zero true, 300⟩
    let odd : Layer := ⟨360, .nan false, 300⟩
    let members := aliceThenBob [small, zero, odd]
    let members' := (aliceThenBob [odd, zero, small]).reverse
    let settings : Settings := { constraints := .ofList [(alice, .ofHeight 360)] }
    let past : List Timed := [⟨0, .setOrder [bob, alice]⟩, ⟨1, .setMembers members⟩,
      ⟨2, .reportBandwidth 450⟩, ⟨3, .updateSettings settings⟩]
    let past' : List Timed := [⟨0, .setOrder [bob, alice]⟩, ⟨1, .setMembers members'⟩,
      ⟨2, .reportBandwidth 450⟩, ⟨3, .updateSettings settings⟩]
    let start := slotController.start ⟨members, true⟩ {} []
    let start' := slotController.start ⟨members', true⟩ {} []
    build {} = .ok slotController ∧ Conference.Relisted ⟨members, true⟩ ⟨members', true⟩ ∧
      List.Forall₂ Timed.Relisted past past' ∧
      (slotController.run start (past.take 3)).1.allocation.sources.map (·.targetLayer) =
        [some small] ∧
      (slotController.run start' past').2 = (slotController.run start past).2 ∧
      (slotController.run start' past').1.debug = (slotController.run start past).1.debug ∧
      (slotController.run start' past').1.allocation =
        (slotController.run start past).1.allocation := by
  intro small zero odd members members' settings past past' start start'
  have hlayers : [small, zero, odd].Perm [odd, zero, small] := (List.reverse_perm _).symm
  have hsources : List.Forall₂ MediaSource.Relisted [⟨webcam, [small, zero, odd]⟩]
      [⟨webcam, [odd, zero, small]⟩] := .cons ⟨rfl, hlayers⟩ .nil
  have hmembers : Downlink.Relisted members members' := by
    refine ⟨by decide, members.reverse, (List.reverse_perm members).symm, ?_⟩
    exact .cons ⟨rfl, .nil⟩ (.cons ⟨rfl, hsources⟩ .nil)
  have hconference : Conference.Relisted ⟨members, true⟩ ⟨members', true⟩ := ⟨hmembers, rfl⟩
  have hpast : List.Forall₂ Timed.Relisted past past' :=
    .cons ⟨rfl, .same (by simp)⟩ (.cons ⟨rfl, .setMembers hmembers⟩
      (.cons ⟨rfl, .same (by simp)⟩ (.cons ⟨rfl, .same (by simp)⟩ .nil)))
  obtain ⟨hresponses, hdebug, hallocation⟩ :=
    run_ignores_listing build_slotController (by simp) hconference {} [] hpast 4
  exact ⟨build_slotController, hconference, hpast, by decide +kernel, hresponses, hdebug,
    hallocation⟩

end Controller

end Downlink
