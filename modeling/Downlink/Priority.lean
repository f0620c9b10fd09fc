import Downlink.Media
import Downlink.SortedMap

/-!
# Priority

The order in which members are served: the selected ones first, as they were selected, then the
others in speaker order.  Whoever is missing from the speaker order, or has left, is not served.

## Results

* `mem_prioritize` — who is served is a member that the speaker order names.
* `nodup_ids_prioritize` — nobody is served twice.
-/

set_option autoImplicit false

namespace Downlink

/-- Each id once, at its first place. -/
def firstOccurrences : List ParticipantId → List ParticipantId
  | [] => []
  | id :: rest => id :: (firstOccurrences rest).filter (· != id)

theorem mem_firstOccurrences {id : ParticipantId} {ids : List ParticipantId} :
    id ∈ firstOccurrences ids ↔ id ∈ ids := by
  induction ids with
  | nil => exact Iff.rfl
  | cons head rest ih =>
    rw [firstOccurrences, List.mem_cons, List.mem_cons, List.mem_filter, ih, bne_iff_ne]
    by_cases h : id = head <;> simp [h]

theorem nodup_firstOccurrences (ids : List ParticipantId) : (firstOccurrences ids).Nodup := by
  induction ids with
  | nil => exact .nil
  | cons head rest ih =>
    rw [firstOccurrences, List.nodup_cons]
    exact ⟨by simp, List.Pairwise.filter _ ih⟩

/-- Members by id; of several with one id the last one counts. -/
def Member.directory (members : List Member) : SortedMap ParticipantId Member :=
  .ofList (members.map fun m => (m.id, m))

theorem mem_of_find?_directory {members : List Member} {id : ParticipantId} {m : Member}
    (h : (Member.directory members).find? id = some m) : m ∈ members ∧ m.id = id := by
  obtain ⟨m', hm, heq⟩ := List.mem_map.mp
    (SortedMap.mem_entries_ofList (SortedMap.find?_eq_some_iff.mp h))
  cases heq
  exact ⟨hm, rfl⟩

/-- The members to serve, highest priority first. -/
def prioritize (order selected : List ParticipantId) (members : List Member) : List Member :=
  let directory := Member.directory members
  (firstOccurrences (selected.filter (· ∈ order) ++ order)).filterMap directory.find?

theorem mem_prioritize {order selected : List ParticipantId} {members : List Member} {m : Member}
    (h : m ∈ prioritize order selected members) : m ∈ members ∧ m.id ∈ order := by
  obtain ⟨id, hid, hfind⟩ := List.mem_filterMap.mp h
  obtain ⟨hm, rfl⟩ := mem_of_find?_directory hfind
  refine ⟨hm, ?_⟩
  rcases List.mem_append.mp (mem_firstOccurrences.mp hid) with hselected | horder
  · exact of_decide_eq_true (List.mem_filter.mp hselected).2
  · exact horder

theorem nodup_ids_prioritize (order selected : List ParticipantId) (members : List Member) :
    ((prioritize order selected members).map (·.id)).Nodup := by
  unfold prioritize
  rw [List.Nodup, List.pairwise_map, List.pairwise_filterMap]
  refine (nodup_firstOccurrences _).imp ?_
  intro id id' hne m hm m' hm' heq
  rw [(mem_of_find?_directory hm).2, (mem_of_find?_directory hm').2] at heq
  exact hne heq

end Downlink
