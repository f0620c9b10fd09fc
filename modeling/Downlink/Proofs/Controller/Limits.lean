import Downlink.Proofs.Controller.Records

/-!
# The receiver's limits

Under the slot rule a published allocation stays within what the receiver takes: it forwards only
members that the order names, in layers that the constraints in force admit, and no more of them
than there are slots.  Forcing the source of the highest priority is no exception, since a source
that is not admitted has no layer to be forced to.

## Results

* `SlotPolicy.length_le_slots` — no more participants have video than there are slots.
* `Controller.withinLimits_recompute` — what is called for stays within the limits.
* `Controller.published_withinLimits` — so does every allocation published in a run.
-/

set_option autoImplicit false

namespace Downlink

/-- **No more participants have video than there are slots.** -/
theorem SlotPolicy.length_le_slots (p : SlotPolicy) (ordered : List Member) {settings : Settings}
    {slots : Nat} (hslots : settings.slots = some slots) {ids : List ParticipantId}
    (hnodup : ids.Nodup) (henabled : ∀ id ∈ ids, ∃ c,
      (p.effective ordered settings).find? id = some c ∧ c.isDisabled = false) :
    ids.length ≤ slots := by
  let granted := (grant (some slots) (p.requests settings (ordered.map (·.id)))).filter
    fun e => !e.2.isDisabled
  have hsubset : ids ⊆ granted.map (·.1) := by
    intro id hid
    obtain ⟨c, hfind, hc⟩ := henabled id hid
    have hentry := SortedMap.mem_entries_ofList (SortedMap.find?_eq_some_iff.mp hfind)
    rw [hslots] at hentry
    exact List.mem_map.mpr ⟨(id, c), List.mem_filter.mpr ⟨hentry, by simp [hc]⟩, rfl⟩
  calc ids.length ≤ (granted.map (·.1)).length := hnodup.length_le_of_subset hsubset
    _ = granted.length := List.length_map _
    _ ≤ slots := length_granted_le slots _

theorem Settings.slots_of_nonneg {s : Settings} (h : 0 ≤ s.lastN) :
    s.slots = some s.lastN.toInt.toNat := by
  rw [slots, if_neg (Int32.not_lt.mpr h)]

namespace Controller

variable {c : Controller} {now : Nat} {s : State}

/-- A layer of a source that a member publishes; the record names both. -/
def Publishes (conference : Conference) (r : SourceAllocation) (l : Layer) : Prop :=
  ∃ m ∈ conference.members, m.id = r.participant ∧
    ∃ source ∈ m.sources, source.id = r.source ∧ l ∈ source.layers

/-- The allocation stays within what the receiver takes, by the constraints shown. -/
structure WithinLimits (s : State) (a : Allocation) : Prop where
  named : ∀ r ∈ a.sources, r.isForwarded = true → r.participant ∈ s.order
  /-- Who is forwarded is not disabled, and is sent in a layer that it publishes and that the
  constraints admit. -/
  admitted : ∀ r ∈ a.sources, r.isForwarded = true → ∃ constraints l,
    s.debug.effective.find? r.participant = some constraints ∧ constraints.maxHeight ≠ 0 ∧
      r.targetLayer = some l ∧ Publishes s.conference r l ∧ l.height ≤ constraints.maxHeight ∧
      ∀ limit ∈ constraints.maxFrameRate, l.frameRate ≤ limit
  slots : 0 ≤ s.settings.lastN →
    (a.forwardedParticipants.length : Int) ≤ s.settings.lastN.toInt

/-- **A forwarded record is of a member that has video, in a layer admitted to it.** -/
theorem forwarded_called {r : SourceAllocation}
    (h : r ∈ (s.called c).outcome.allocation.sources) (hforwarded : r.isForwarded = true) :
    r.participant ∈ s.order ∧ ∃ constraints l,
      (s.called c).effective.find? r.participant = some constraints ∧
        constraints.isDisabled = false ∧ r.targetLayer = some l ∧ Publishes s.conference r l ∧
        Ladder.admits constraints l = true := by
  obtain ⟨m, hm, source, hsource, hof⟩ := exists_source_of_mem_called h
  obtain ⟨hmember, horder⟩ := mem_prioritize hm
  obtain ⟨l, hl⟩ := Option.isSome_iff_exists.mp (hof.layer_isSome hforwarded)
  obtain ⟨hlayer, henabled, hadmits⟩ := hof.layer l hl
  rw [hof.participant_eq]
  refine ⟨horder, ?_⟩
  cases hfind : (s.called c).effective.find? m.id with
  | none =>
    -- without constraints there is no video, so nothing to forward
    rw [hfind] at henabled
    exact absurd henabled (by decide)
  | some constraints =>
    rw [hfind] at henabled hadmits
    refine ⟨constraints, l, rfl, henabled, hl, ?_, hadmits⟩
    exact ⟨m, hmember, hof.participant_eq.symm, source, hsource, hof.source_eq.symm, hlayer⟩

/-- **What is called for stays within the limits.** -/
theorem withinLimits_recompute (hpolicy : c.policy = (SlotPolicy.ofConfig c.config).effective)
    (horder : s.order ≠ []) :
    WithinLimits (c.recompute now s).1 (s.called c).outcome.allocation := by
  have heffective : (s.called c).effective = (SlotPolicy.ofConfig c.config).effective
      (prioritize s.order s.settings.selected s.conference.members) s.settings := by
    rw [← hpolicy]
    rfl
  rw [recompute_of_order_ne_nil horder]
  refine ⟨?_, ?_, ?_⟩
  · intro r hr hforwarded
    exact (forwarded_called hr hforwarded).1
  · intro r hr hforwarded
    obtain ⟨_, constraints, l, hfind, henabled, hl, hpublishes, hadmits⟩ :=
      forwarded_called hr hforwarded
    obtain ⟨hheight, hrate⟩ := Ladder.admits_iff.mp hadmits
    exact ⟨constraints, l, hfind, ne_of_beq_false henabled, hl, hpublishes, hheight, hrate⟩
  · intro hlastN
    have hlastN : 0 ≤ s.settings.lastN := hlastN
    have hnonneg : 0 ≤ s.settings.lastN.toInt := Int32.le_iff_toInt_le.mp hlastN
    have hlength := SlotPolicy.length_le_slots (SlotPolicy.ofConfig c.config)
      (prioritize s.order s.settings.selected s.conference.members)
      (Settings.slots_of_nonneg hlastN) (s.called c).outcome.allocation.nodup_forwardedParticipants
      (by
        intro id hid
        obtain ⟨r, hr, hforwarded, rfl⟩ := Allocation.mem_forwardedParticipants.mp hid
        obtain ⟨_, constraints, _, hfind, henabled, _⟩ := forwarded_called hr hforwarded
        exact ⟨constraints, heffective ▸ hfind, henabled⟩)
    show ((s.called c).outcome.allocation.forwardedParticipants.length : Int) ≤
      s.settings.lastN.toInt
    omega

theorem policy_of_build {config : Config} (h : build config = .ok c) :
    c.policy = (SlotPolicy.ofConfig c.config).effective := by
  rw [eq_of_build h]
  rfl

/-- **Published allocations stay within the receiver's limits.**  Whatever happened before, when a
step hands an allocation to a subscriber, whom it forwards is a member named in the order and not
disabled, its layer is one that it publishes and the constraints shown after the step admit, and if
the number of participants is limited, no more of them are forwarded. -/
theorem published_withinLimits {config : Config} (hbuild : build config = .ok c)
    (conference : Conference) (settings : Settings) (subscribers : List Subscriber)
    (past : List Timed) (r : Timed) :
    let s := (c.run (c.start conference settings subscribers) past).1
    let after := c.step r.time s r.request
    ∀ d ∈ after.2.activity.deliveries, ∀ a, d.event = .allocationChanged a →
      WithinLimits after.1 a := by
  intro s after d hd a ha
  have hstepped : Stepped c r.time s after := step_stepped c r.time s r.request
  generalize after = result at hstepped hd ⊢
  cases hstepped with
  | @recomputed t answer before _ _ _ hquiet =>
    have hd : d ∈ before.deliveries ++ (c.recompute r.time t).2.deliveries := hd
    rw [hquiet.deliveries_eq_nil, List.nil_append] at hd
    have hnews := event_mem_news hd
    rw [ha] at hnews
    obtain ⟨horder, rfl⟩ := eq_called_of_mem_news hnews
    exact withinLimits_recompute (policy_of_build hbuild) horder
  | rested _ _ _ _ hquiet =>
    rw [hquiet.deliveries_eq_nil] at hd
    cases hd

/-- One slot, and the receiver asked for Alice: she is sent her low layer, and Bob is not forced
although he stands at the head of the order. -/
theorem published_withinLimits_one_slot :
    let settings : Settings := { constraints := .ofList [(alice, .ofHeight 180)], lastN := 1 }
    let past : List Timed := [⟨0, .updateSettings settings⟩, ⟨1, .reportBandwidth 150⟩]
    let start := slotController.start twoMembers {} [⟨"main", false⟩]
    let after := slotController.step 2 (slotController.run start past).1 (.setOrder [bob, alice])
    build {} = .ok slotController ∧
      ⟨"main", .allocationChanged after.1.allocation⟩ ∈ after.2.activity.deliveries ∧
      after.1.allocation.forwardedParticipants = [alice] ∧
      WithinLimits after.1 after.1.allocation := by
  intro settings past start after
  have hdelivered :
      ⟨"main", .allocationChanged after.1.allocation⟩ ∈ after.2.activity.deliveries := by
    decide +kernel
  exact ⟨build_slotController, hdelivered, by decide +kernel,
    published_withinLimits build_slotController twoMembers {} [⟨"main", false⟩] past
      ⟨2, .setOrder [bob, alice]⟩ _ hdelivered _ rfl⟩

end Controller

end Downlink
