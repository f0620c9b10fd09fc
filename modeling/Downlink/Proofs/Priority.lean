import Downlink.Proofs.Listing

/-!
# Who is served, and in which order

An order, a selection and a list of members may repeat ids, and each may name ids that the others
do not know.  Who is served is settled all the same: everybody whom the order names and who is a
member, once, by the latest of its records.  The selected ones come first, each at the place where
it is selected first, and the others follow at the place where the order names them first.

## Results

* `firstOccurrences_append`, `firstOccurrences_filter` — first places, list by list.
* `find?_directory` — of several members with one id the last one counts.
* `prioritize_characterized` — nobody else is served, and in no other order.
-/

set_option autoImplicit false

namespace Downlink

/-! ## First places -/

theorem firstOccurrences_filter (keep : ParticipantId → Bool) (ids : List ParticipantId) :
    firstOccurrences (ids.filter keep) = (firstOccurrences ids).filter keep := by
  induction ids with
  | nil => rfl
  | cons id ids ih =>
    cases hid : keep id with
    | true =>
      rw [List.filter_cons_of_pos hid, firstOccurrences, firstOccurrences,
        List.filter_cons_of_pos hid, ih, List.filter_filter, List.filter_filter]
      simp only [Bool.and_comm]
    | false =>
      have hdropped : ¬ keep id = true := by simp [hid]
      rw [List.filter_cons_of_neg hdropped, firstOccurrences, List.filter_cons_of_neg hdropped, ih,
        List.filter_filter]
      refine List.filter_congr ?_
      intro other _
      by_cases hother : other = id
      · simp [hother, hid]
      · simp [hother]

/-- What comes second adds the ids that did not come first. -/
theorem firstOccurrences_append (first rest : List ParticipantId) :
    firstOccurrences (first ++ rest) =
      firstOccurrences first ++ (firstOccurrences rest).filter (· ∉ first) := by
  induction first with
  | nil => simp [firstOccurrences]
  | cons id first ih =>
    rw [List.cons_append, firstOccurrences, ih, List.filter_append, List.filter_filter,
      firstOccurrences, List.cons_append]
    congr 2
    refine List.filter_congr ?_
    intro other _
    by_cases hother : other = id <;> simp [hother]

/-- Each id stands at its first place. -/
theorem pairwise_idxOf_firstOccurrences (ids : List ParticipantId) :
    (firstOccurrences ids).Pairwise fun a b => ids.idxOf a < ids.idxOf b := by
  induction ids with
  | nil => exact .nil
  | cons id ids ih =>
    have hbehind : ∀ other ∈ (firstOccurrences ids).filter (· != id),
        (id :: ids).idxOf other = ids.idxOf other + 1 := by
      intro other hother
      have hne : other ≠ id := by simpa using (List.mem_filter.mp hother).2
      exact List.idxOf_cons_ne ids hne.symm
    rw [firstOccurrences, List.pairwise_cons]
    constructor
    · intro other hother
      rw [List.idxOf_cons_self, hbehind other hother]
      omega
    · refine (ih.filter _).imp_of_mem ?_
      intro a b ha hb hlt
      rw [hbehind a ha, hbehind b hb]
      omega

/-! ## Rank -/

/-- The first one is served before the second one, if both are. -/
inductive Outranks (order selected : List ParticipantId) : ParticipantId → ParticipantId → Prop
  | selectedFirst {a b : ParticipantId} : a ∈ selected → b ∉ selected → Outranks order selected a b
  | asSelected {a b : ParticipantId} : a ∈ selected → b ∈ selected →
      selected.idxOf a < selected.idxOf b → Outranks order selected a b
  | asOrdered {a b : ParticipantId} : a ∉ selected → b ∉ selected →
      order.idxOf a < order.idxOf b → Outranks order selected a b

theorem Outranks.asymm {order selected : List ParticipantId} {a b : ParticipantId}
    (h : Outranks order selected a b) : ¬ Outranks order selected b a := by
  intro h'
  cases h with
  | selectedFirst ha hb => cases h' <;> contradiction
  | asSelected ha hb hlt =>
    cases h' with
    | selectedFirst _ ha' => contradiction
    | asSelected _ _ hlt' => omega
    | asOrdered hb' _ _ => contradiction
  | asOrdered ha hb hlt =>
    cases h' with
    | selectedFirst hb' _ => contradiction
    | asSelected hb' _ _ => contradiction
    | asOrdered _ _ hlt' => omega

theorem pairwise_outranks (order selected : List ParticipantId) :
    (firstOccurrences (selected.filter (· ∈ order) ++ order)).Pairwise
      (Outranks order selected) := by
  rw [firstOccurrences_append, firstOccurrences_filter, List.pairwise_append]
  have hselected : ∀ id ∈ (firstOccurrences selected).filter (· ∈ order), id ∈ selected :=
    fun id hid => mem_firstOccurrences.mp (List.mem_of_mem_filter hid)
  have hothers : ∀ id ∈ (firstOccurrences order).filter (· ∉ selected.filter (· ∈ order)),
      id ∉ selected := by
    intro id hid hmem
    obtain ⟨horder, hnot⟩ := List.mem_filter.mp hid
    have horder : id ∈ order := mem_firstOccurrences.mp horder
    simp [hmem, horder] at hnot
  refine ⟨?_, ?_, ?_⟩
  · refine ((pairwise_idxOf_firstOccurrences selected).filter _).imp_of_mem ?_
    intro a b ha hb hlt
    exact .asSelected (hselected a ha) (hselected b hb) hlt
  · refine ((pairwise_idxOf_firstOccurrences order).filter _).imp_of_mem ?_
    intro a b ha hb hlt
    exact .asOrdered (hothers a ha) (hothers b hb) hlt
  · intro a ha b hb
    exact .selectedFirst (hselected a ha) (hothers b hb)

/-! ## Members served -/

/-- **Of several members with one id the last one counts.** -/
theorem find?_directory (members : List Member) (id : ParticipantId) :
    (Member.directory members).find? id = (members.filter (·.id = id)).getLast? := by
  rw [Member.directory, SortedMap.find?_ofList, List.filter_map, List.getLast?_map, Option.map_map]
  exact Option.map_id'

/-- The members to serve: who they are, which of their records counts, and how they are ranked. -/
structure IsPrioritized (order selected : List ParticipantId) (members served : List Member) :
    Prop where
  /-- Nobody is served twice. -/
  nodup : (served.map (·.id)).Nodup
  /-- Everybody is served whom the order names and who is a member, and nobody else. -/
  mem_iff : ∀ id, id ∈ served.map (·.id) ↔ id ∈ order ∧ id ∈ members.map (·.id)
  /-- Of several records of a member the last one is served. -/
  latest : ∀ m ∈ served, (members.filter (·.id = m.id)).getLast? = some m
  ranked : served.Pairwise fun m m' => Outranks order selected m.id m'.id

theorem isPrioritized_prioritize (order selected : List ParticipantId) (members : List Member) :
    IsPrioritized order selected members (prioritize order selected members) where
  nodup := nodup_ids_prioritize order selected members
  mem_iff id := by
    constructor
    · intro hid
      obtain ⟨m, hm, rfl⟩ := List.mem_map.mp hid
      obtain ⟨hmember, horder⟩ := mem_prioritize hm
      exact ⟨horder, List.mem_map_of_mem hmember⟩
    · rintro ⟨horder, hid⟩
      obtain ⟨m, hm, rfl⟩ := List.mem_map.mp hid
      have hsome : ((members.filter (·.id = m.id)).getLast?).isSome = true := by
        rw [List.getLast?_isSome]
        exact List.ne_nil_of_mem (List.mem_filter.mpr ⟨hm, by simp⟩)
      obtain ⟨latest, hlatest⟩ := Option.isSome_iff_exists.mp hsome
      rw [← find?_directory] at hlatest
      refine List.mem_map.mpr ⟨latest, ?_, (mem_of_find?_directory hlatest).2⟩
      exact List.mem_filterMap.mpr
        ⟨m.id, mem_firstOccurrences.mpr (List.mem_append_right _ horder), hlatest⟩
  latest m hm := by
    obtain ⟨id, _, hfind⟩ := List.mem_filterMap.mp hm
    rw [(mem_of_find?_directory hfind).2, ← find?_directory]
    exact hfind
  ranked := by
    unfold prioritize
    rw [List.pairwise_filterMap]
    refine (pairwise_outranks order selected).imp ?_
    intro id id' hranks m hm m' hm'
    rw [(mem_of_find?_directory hm).2, (mem_of_find?_directory hm').2]
    exact hranks

namespace IsPrioritized

variable {order selected : List ParticipantId} {members served served' : List Member}

theorem mem_of_mem (h : IsPrioritized order selected members served)
    (h' : IsPrioritized order selected members served') {m : Member} (hm : m ∈ served) :
    m ∈ served' := by
  have hid : m.id ∈ served'.map (·.id) :=
    (h'.mem_iff m.id).mpr ((h.mem_iff m.id).mp (List.mem_map_of_mem hm))
  obtain ⟨m', hm', heq⟩ := List.mem_map.mp hid
  have hlatest := h'.latest m' hm'
  rw [heq, h.latest m hm, Option.some.injEq] at hlatest
  rw [hlatest]
  exact hm'

/-- There is but one such list. -/
theorem unique (h : IsPrioritized order selected members served)
    (h' : IsPrioritized order selected members served') : served = served' := by
  have hperm : served.Perm served' :=
    (List.perm_ext_iff_of_nodup (h.nodup.of_map _) (h'.nodup.of_map _)).mpr
      fun _ => ⟨h.mem_of_mem h', h'.mem_of_mem h⟩
  refine hperm.eq_of_pairwise ?_ h.ranked h'.ranked
  intro m m' _ _ hranks hranks'
  exact absurd hranks' hranks.asymm

/-- Those served are served again, as they are. -/
theorem again (h : IsPrioritized order selected members served) :
    IsPrioritized order selected served served where
  nodup := h.nodup
  mem_iff id := ⟨fun hid => ⟨((h.mem_iff id).mp hid).1, hid⟩, And.right⟩
  latest m hm := by
    rw [← find?_directory]
    exact (find?_directory_eq_some_iff h.nodup).mpr ⟨hm, rfl⟩
  ranked := h.ranked

end IsPrioritized

/-- **The members to serve are those whom the order names**, each once and by its latest record, the
selected ones first; and there is no other such list.  So to prioritize them again by the same order
and selection changes nothing. -/
theorem prioritize_characterized (order selected : List ParticipantId) (members : List Member) :
    (∀ served, IsPrioritized order selected members served ↔
      served = prioritize order selected members) ∧
      prioritize order selected (prioritize order selected members) =
        prioritize order selected members := by
  have hserved := isPrioritized_prioritize order selected members
  refine ⟨?_, ?_⟩
  · intro served
    constructor
    · intro h
      exact h.unique hserved
    · rintro rfl
      exact hserved
  · exact (isPrioritized_prioritize order selected _).unique hserved.again

/-- Whom the order does not name, and who has left, is passed over wherever else it is named. -/
example :
    let ann : ParticipantId := ⟨"ann", by decide⟩
    let ben : ParticipantId := ⟨"ben", by decide⟩
    let cleo : ParticipantId := ⟨"cleo", by decide⟩
    let camera : MediaSource := ⟨⟨"webcam", by decide⟩, []⟩
    prioritize [ann, ben, ann, cleo] [cleo, ben, ben] [⟨ben, []⟩, ⟨ann, []⟩, ⟨ben, [camera]⟩] =
      [⟨ben, [camera]⟩, ⟨ann, []⟩] := by decide +kernel

end Downlink
