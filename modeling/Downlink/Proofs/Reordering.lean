import Downlink.Priority
import Downlink.Proofs.SameRecords
import Downlink.Proofs.Slots

/-!
# Reordering

An order that names the same participants, in another sequence or more than once, puts the same
members into another sequence.  Without a limit on slots all of them get what they asked for, so the
constraints are the same.  And an allocation is compared under the keys of its records, which the
sequence of the members does not matter to, as long as each brings the same records.

## Results

* `perm_prioritize` — who is served depends on whom the order names only.
* `SlotPolicy.effective_perm` — without a limit, constraints do not depend on the sequence.
* `Allocation.isSameAs_perm` — nor does what counts as the same allocation.
-/

set_option autoImplicit false

namespace Downlink

/-! ## Members -/

theorem perm_firstOccurrences {ids ids' : List ParticipantId} (h : ∀ id, id ∈ ids ↔ id ∈ ids') :
    (firstOccurrences ids).Perm (firstOccurrences ids') := by
  rw [List.perm_ext_iff_of_nodup (nodup_firstOccurrences ids) (nodup_firstOccurrences ids')]
  intro id
  rw [mem_firstOccurrences, mem_firstOccurrences, h]

/-- **Who is served depends on whom the order names only.** -/
theorem perm_prioritize {order order' : List ParticipantId} (h : ∀ id, id ∈ order ↔ id ∈ order')
    (selected : List ParticipantId) (members : List Member) :
    (prioritize order selected members).Perm (prioritize order' selected members) := by
  refine (perm_firstOccurrences ?_).filterMap _
  intro id
  simp only [List.mem_append, List.mem_filter, decide_eq_true_eq, h]

/-! ## Constraints -/

namespace SlotPolicy

variable (p : SlotPolicy) (settings : Settings)

/-- Each is requested for once. -/
theorem perm_map_fst_requests (ids : List ParticipantId) :
    ((p.requests settings ids).map Prod.fst).Perm ids := by
  rw [map_fst_requests]
  exact settings.perm_claimOrder ids

theorem perm_requests {ids ids' : List ParticipantId} (h : ids.Perm ids') :
    (p.requests settings ids).Perm (p.requests settings ids') :=
  (h.filterMap _).append ((h.filter _).map _)

/-- **Without a limit, constraints do not depend on the sequence of the members.** -/
theorem effective_perm {settings : Settings} (hslots : settings.slots = none)
    {ordered ordered' : List Member} (h : ordered.Perm ordered')
    (hids : (ordered.map (·.id)).Nodup) :
    p.effective ordered settings = p.effective ordered' settings := by
  rw [effective, effective, hslots, grant_none, grant_none]
  refine SortedMap.ofList_eq_of_perm (p.perm_requests settings (h.map _)) ?_
  exact (p.perm_map_fst_requests settings _).nodup_iff.mpr hids

end SlotPolicy

/-! ## Records -/

namespace Allocation

variable {records : Member → List SourceAllocation} {ordered ordered' : List Member}

/-- Records under a key are brought by the member that the key names. -/
theorem filter_key_flatMap (hrecords : ∀ m, ∀ r ∈ records m, r.participant = m.id)
    (ordered : List Member) (k : SourceAllocation.Key) :
    (ordered.flatMap records).filter (·.key = k) =
      (ordered.filter (·.id = k.participant)).flatMap fun m => (records m).filter (·.key = k) := by
  induction ordered with
  | nil => rfl
  | cons m ordered ih =>
    rw [List.flatMap_cons, List.filter_append, ih]
    by_cases hm : m.id = k.participant
    · rw [List.filter_cons_of_pos (by simpa using hm), List.flatMap_cons]
    · have hnone : (records m).filter (·.key = k) = [] := by
        rw [List.filter_eq_nil_iff]
        intro r hr hkey
        have hkey : r.key = k := of_decide_eq_true hkey
        exact hm ((hrecords m r hr).symm.trans (congrArg SourceAllocation.Key.participant hkey))
      rw [List.filter_cons_of_neg (by simpa using hm), hnone, List.nil_append]

theorem byKey_perm (hrecords : ∀ m, ∀ r ∈ records m, r.participant = m.id)
    (h : ordered.Perm ordered') (hids : (ordered.map (·.id)).Nodup) :
    (⟨ordered.flatMap records⟩ : Allocation).byKey =
      (⟨ordered'.flatMap records⟩ : Allocation).byKey := by
  refine SortedMap.ofList_eq_of_filter_eq fun k => ?_
  rw [List.filter_map, List.filter_map]
  refine congrArg _ ?_
  show (ordered.flatMap records).filter (·.key = k) = (ordered'.flatMap records).filter (·.key = k)
  rw [filter_key_flatMap hrecords, filter_key_flatMap hrecords,
    SortedMap.filter_key_eq_of_perm Member.id h hids]

/-- **What counts as the same allocation does not depend on the sequence of the members.** -/
theorem isSameAs_perm (hrecords : ∀ m, ∀ r ∈ records m, r.participant = m.id)
    (h : ordered.Perm ordered') (hids : (ordered.map (·.id)).Nodup)
    (hrates : ∀ r ∈ ordered.flatMap records, r.RateIsNumber) :
    (⟨ordered.flatMap records⟩ : Allocation).isSameAs ⟨ordered'.flatMap records⟩ = true := by
  obtain ⟨_, hself⟩ := isSameAs_iff.mp (isSameAs_self (a := ⟨ordered.flatMap records⟩) hrates)
  refine isSameAs_iff.mpr ⟨(h.flatMap_right records).length_eq, ?_⟩
  rw [← byKey_perm hrecords h hids]
  exact hself

end Allocation

end Downlink
