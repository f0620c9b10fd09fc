import Downlink.Priority
import Downlink.Proofs.SortedMap
import Downlink.Slots

/-!
# The slot rule, participant by participant

What the slot rule gives a participant can be said without following it through the list: everybody
has a request, those whom the receiver asked for claim slots before the others, and whoever wants no
video takes none.  The first ones to claim, as many as there are slots, get what they request, and
whoever else claims is disabled.

## Results

* `SlotPolicy.requests_eq_map` — the requests, in the order in which they claim slots.
* `SlotPolicy.grant_some` — who gets a slot, of so many.
* `SlotPolicy.effective_follows_claims` — what everybody gets.
-/

set_option autoImplicit false

namespace Downlink

/-- The receiver shows the participant on its stage. -/
def Settings.IsOnStage (s : Settings) (id : ParticipantId) : Prop :=
  s.strategy = .stageView ∧ id ∈ s.selected

instance (s : Settings) (id : ParticipantId) : Decidable (s.IsOnStage id) :=
  inferInstanceAs (Decidable (_ ∧ _))

/-- The receiver asked for the participant: it set constraints for it, or has it on stage. -/
def Settings.AsksFor (s : Settings) (id : ParticipantId) : Prop :=
  (s.constraints.find? id).isSome ∨ s.IsOnStage id

instance (s : Settings) (id : ParticipantId) : Decidable (s.AsksFor id) :=
  inferInstanceAs (Decidable (_ ∨ _))

/-- Participants in the order in which they claim slots. -/
def Settings.claimOrder (s : Settings) (ids : List ParticipantId) : List ParticipantId :=
  ids.filter (s.AsksFor ·) ++ ids.filter (¬ s.AsksFor ·)

theorem Settings.perm_claimOrder (s : Settings) (ids : List ParticipantId) :
    (s.claimOrder ids).Perm ids := by
  unfold claimOrder
  simp only [decide_not]
  exact List.filter_append_perm _ ids

namespace SlotPolicy

section

variable (p : SlotPolicy) (settings : Settings)

/-! ## Requests -/

/-- The constraints requested for a participant: those that the receiver set, those of the stage if
it is shown there, or else those of a thumbnail. -/
def requested (id : ParticipantId) : VideoConstraints :=
  (settings.constraints.find? id).getD <|
    if settings.IsOnStage id then .ofHeight p.onstageIdealHeight
    else .ofHeight p.thumbnailMaxHeight

/-- Those who claim slots, in order; whoever wants no video claims none. -/
def claimants (ids : List ParticipantId) : List ParticipantId :=
  (settings.claimOrder ids).filter fun id => (p.requested settings id).maxHeight ≠ 0

/-- Those who get a slot: the first ones to claim, or all if there is no limit. -/
def winners (ids : List ParticipantId) : List ParticipantId :=
  if settings.lastN < 0 then p.claimants settings ids
  else (p.claimants settings ids).take settings.lastN.toInt.toNat

theorem asked?_eq (id : ParticipantId) : p.asked? settings id =
    if settings.AsksFor id then some (p.requested settings id) else none := by
  unfold asked? Settings.AsksFor requested Settings.IsOnStage
  rcases Option.eq_none_or_eq_some (settings.constraints.find? id) with hset | ⟨c, hset⟩
  · by_cases hstage : settings.strategy = .stageView ∧ id ∈ settings.selected <;>
      simp [hset, hstage]
  · simp [hset]

theorem requested_of_not_asksFor {id : ParticipantId} (h : ¬ settings.AsksFor id) :
    p.requested settings id = .ofHeight p.thumbnailMaxHeight := by
  obtain ⟨hset, hstage⟩ := not_or.mp h
  rw [Bool.not_eq_true, Option.isSome_eq_false_iff, Option.isNone_iff_eq_none] at hset
  unfold requested
  rw [hset]
  exact if_neg hstage

/-- **The requests, in the order in which they claim slots.** -/
theorem requests_eq_map (ids : List ParticipantId) : p.requests settings ids =
    (settings.claimOrder ids).map fun id => (id, p.requested settings id) := by
  unfold requests Settings.claimOrder
  rw [List.map_append]
  congr 1
  · rw [← List.filterMap_eq_map, List.filterMap_filter]
    refine List.filterMap_congr ?_
    intro id _
    by_cases hasked : settings.AsksFor id <;> simp [asked?_eq, hasked]
  · have hnone : ∀ id, (p.asked? settings id).isNone = decide (¬ settings.AsksFor id) := by
      intro id
      by_cases hasked : settings.AsksFor id <;> simp [asked?_eq, hasked]
    simp only [hnone]
    refine List.map_congr_left ?_
    intro id hid
    have hunasked : ¬ settings.AsksFor id := of_decide_eq_true (List.mem_filter.mp hid).2
    rw [p.requested_of_not_asksFor settings hunasked]

theorem map_fst_requests (ids : List ParticipantId) :
    (p.requests settings ids).map Prod.fst = settings.claimOrder ids := by
  rw [requests_eq_map, List.map_map]
  exact List.map_id _

end

/-! ## Slots -/

/-- Without a limit every request is granted. -/
theorem grant_none (requests : List (ParticipantId × VideoConstraints)) :
    grant none requests = requests := by
  induction requests with
  | nil => rfl
  | cons e requests ih => simp [grant, ih]

/-- **Who gets a slot, of so many.**  The first ones who want video keep what they request. -/
theorem grant_some (request : ParticipantId → VideoConstraints) {ids : List ParticipantId}
    (hids : ids.Nodup) (slots : Nat) :
    grant (some slots) (ids.map fun id => (id, request id)) =
      ids.map fun id => (id,
        if (request id).maxHeight = 0 ∨
            id ∈ (ids.filter fun id => (request id).maxHeight ≠ 0).take slots then
          request id
        else .disabled) := by
  induction ids generalizing slots with
  | nil => rfl
  | cons id ids ih =>
    obtain ⟨hfresh, hids⟩ := List.nodup_cons.mp hids
    rw [List.map_cons, List.map_cons, grant]
    by_cases hdisabled : (request id).maxHeight = 0
    · rw [if_pos (by simpa [VideoConstraints.isDisabled] using hdisabled), if_pos (.inl hdisabled),
        List.filter_cons_of_neg (by simpa using hdisabled), ih hids]
    · rw [if_neg (by simpa [VideoConstraints.isDisabled] using hdisabled),
        List.filter_cons_of_pos (by simpa using hdisabled)]
      cases slots with
      | zero => simp [ih hids 0, hdisabled]
      | succ slots =>
        have hothers : ∀ other ∈ ids, ∀ winners : List ParticipantId,
            other ∈ id :: winners ↔ other ∈ winners := by
          intro other hother winners
          have hne : other ≠ id := fun h => hfresh (h ▸ hother)
          simp [hne]
        rw [if_neg (by simp), List.take_succ_cons, if_pos (.inr List.mem_cons_self), Option.map_some,
          Nat.add_sub_cancel, ih hids slots]
        congr 1
        refine List.map_congr_left ?_
        intro other hother
        simp only [hothers other hother]

/-- What the slot rule gives, as a list. -/
theorem grant_requests (p : SlotPolicy) (settings : Settings) {ids : List ParticipantId}
    (hids : ids.Nodup) : grant settings.slots (p.requests settings ids) =
      (settings.claimOrder ids).map fun id => (id,
        if (p.requested settings id).maxHeight = 0 ∨ id ∈ p.winners settings ids then
          p.requested settings id
        else .disabled) := by
  have horder : (settings.claimOrder ids).Nodup := (settings.perm_claimOrder ids).nodup_iff.mpr hids
  rw [requests_eq_map, Settings.slots]
  by_cases hlimit : settings.lastN < 0
  · have hwinners : p.winners settings ids = p.claimants settings ids := if_pos hlimit
    rw [if_pos hlimit, grant_none, hwinners]
    refine List.map_congr_left ?_
    intro id hid
    by_cases hdisabled : (p.requested settings id).maxHeight = 0
    · rw [if_pos (.inl hdisabled)]
    · rw [if_pos (.inr (List.mem_filter.mpr ⟨hid, by simpa using hdisabled⟩))]
  · have hwinners : p.winners settings ids =
        (p.claimants settings ids).take settings.lastN.toInt.toNat := if_neg hlimit
    rw [if_neg hlimit, grant_some _ horder, hwinners]
    rfl

/-- **What everybody gets.**  There is one entry for each member to serve, and no other.  Who wants
no video keeps that request, and takes no slot.  Of the others those whom the receiver asked for
come first; as many as there are slots keep what they request, and all behind them are disabled. -/
theorem effective_follows_claims (config : Config) (settings : Settings) {ordered : List Member}
    (hids : (ordered.map (·.id)).Nodup) :
    let p := ofConfig config
    let ids := ordered.map (·.id)
    let effective := p.effective ordered settings
    (effective.entries.map Prod.fst).Perm ids ∧
      ∀ id ∈ ids, effective.find? id = some
        (if (p.requested settings id).maxHeight = 0 ∨ id ∈ p.winners settings ids then
          p.requested settings id
        else .disabled) := by
  intro p ids effective
  let granted := grant settings.slots (p.requests settings ids)
  have hgranted : granted.map Prod.fst = settings.claimOrder ids := by
    rw [show granted = _ from p.grant_requests settings hids, List.map_map]
    exact List.map_id _
  have hkeys : (granted.map Prod.fst).Nodup := by
    rw [hgranted]
    exact (settings.perm_claimOrder ids).nodup_iff.mpr hids
  constructor
  · calc (effective.entries.map Prod.fst)
      List.Perm _ (granted.map Prod.fst) := (SortedMap.perm_ofList hkeys).map _
      List.Perm _ ids := hgranted ▸ settings.perm_claimOrder ids
  · intro id hid
    have hclaims : id ∈ settings.claimOrder ids := (settings.perm_claimOrder ids).mem_iff.mpr hid
    refine (SortedMap.find?_ofList_eq_some_iff hkeys).mpr ?_
    rw [show granted = _ from p.grant_requests settings hids]
    exact List.mem_map_of_mem hclaims

/-- Members are served in an order of priority, and there are two slots.  Ben, whom no video is wanted
of, leaves them to the others; Dora, who is on stage, and Cleo, for whom constraints are set, claim
them before Ann, although Ann comes before Cleo. -/
theorem effective_follows_claims_two_slots :
    let ann : ParticipantId := ⟨"ann", by decide⟩
    let ben : ParticipantId := ⟨"ben", by decide⟩
    let cleo : ParticipantId := ⟨"cleo", by decide⟩
    let dora : ParticipantId := ⟨"dora", by decide⟩
    let unwanted : VideoConstraints := { idealHeight := 90, maxHeight := 0 }
    let settings : Settings :=
      { selected := [dora], constraints := .ofList [(ben, unwanted), (cleo, .ofHeight 360)]
        lastN := 2 }
    let members : List Member := [⟨dora, []⟩, ⟨cleo, []⟩, ⟨ben, []⟩, ⟨ann, []⟩]
    let ordered := prioritize [ann, ben, cleo, dora] settings.selected members
    let effective := (ofConfig {}).effective ordered settings
    (ordered.map (·.id)).Nodup ∧ ordered.map (·.id) = [dora, ann, ben, cleo] ∧
      (effective.entries.map Prod.fst).Perm (ordered.map (·.id)) ∧
      effective.find? ann = some .disabled ∧ effective.find? ben = some unwanted ∧
      effective.find? cleo = some (.ofHeight 360) ∧ effective.find? dora = some (.ofHeight 720) := by
  intro ann ben cleo dora unwanted settings members ordered effective
  have hids : (ordered.map (·.id)).Nodup := nodup_ids_prioritize ..
  obtain ⟨hkeys, hfind⟩ := effective_follows_claims {} settings hids
  refine ⟨hids, by decide +kernel, hkeys, ?_, ?_, ?_, ?_⟩
  · exact (hfind ann (by decide +kernel)).trans (by decide +kernel)
  · exact (hfind ben (by decide +kernel)).trans (by decide +kernel)
  · exact (hfind cleo (by decide +kernel)).trans (by decide +kernel)
  · exact (hfind dora (by decide +kernel)).trans (by decide +kernel)

end SlotPolicy

end Downlink
