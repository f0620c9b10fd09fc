import Downlink.Priority
import Downlink.Proofs.Ladder
import Downlink.Proofs.SortedMap
import Downlink.Slots

/-!
# Listing

Members are looked up by id, and layers are sorted by a total order.  So it makes no difference in
which order members are listed, as long as each has an id of its own, nor in which order a source
lists its layers, be they tied or not.

## Results

* `Ladder.of?_perm` — a ladder does not depend on the listing of the layers.
* `forall₂_prioritize` — who is served, and in which order, does not depend on the listing.
* `SlotPolicy.ignoresListing` — neither do the constraints that the slot rule gives.
-/

set_option autoImplicit false

namespace Downlink

/-! ## Layers -/

namespace Ladder

variable (config : Config) (strategy : Strategy) (c : VideoConstraints)
  {layers layers' : List Layer}

theorem admitted_perm (h : layers.Perm layers') :
    admitted config strategy c layers = admitted config strategy c layers' := by
  have hperm : (admitted config strategy c layers).Perm (admitted config strategy c layers') :=
    (perm_admitted layers).trans ((h.filter _).trans (perm_admitted layers').symm)
  exact hperm.eq_of_pairwise (fun _ _ _ _ => Layer.le_antisymm) (admitted_sorted ..)
    (admitted_sorted ..)

/-- **A ladder does not depend on the listing of the layers.** -/
theorem of?_perm (h : layers.Perm layers') :
    of? config strategy c layers = of? config strategy c layers' := by
  simp only [of?, admitted_perm config strategy c h]

end Ladder

/-! ## Members -/

theorem exists_right_of_mem {α β : Type} {R : α → β → Prop} {l : List α} {l' : List β}
    (h : List.Forall₂ R l l') {a : α} (ha : a ∈ l) : ∃ b ∈ l', R a b := by
  induction h with
  | nil => cases ha
  | cons hhead _ ih =>
    rcases List.mem_cons.mp ha with rfl | ha
    · exact ⟨_, List.mem_cons_self, hhead⟩
    · obtain ⟨b, hb, hR⟩ := ih ha
      exact ⟨b, List.mem_cons_of_mem _ hb, hR⟩

/-- Where ids are distinct, the member of an id is the one that has it. -/
theorem find?_directory_eq_some_iff {members : List Member} (h : (members.map (·.id)).Nodup)
    {id : ParticipantId} {m : Member} :
    (Member.directory members).find? id = some m ↔ m ∈ members ∧ m.id = id := by
  have hkeys : ((members.map fun m => (m.id, m)).map Prod.fst).Nodup := by
    rw [List.map_map]
    exact h
  rw [Member.directory, SortedMap.find?_ofList_eq_some_iff hkeys]
  constructor
  · intro hmem
    obtain ⟨_, hm, heq⟩ := List.mem_map.mp hmem
    cases heq
    exact ⟨hm, rfl⟩
  · rintro ⟨hm, rfl⟩
    exact List.mem_map.mpr ⟨m, hm, rfl⟩

/-- The same source, its layers listed in any order. -/
structure MediaSource.Relisted (source source' : MediaSource) : Prop where
  id_eq : source'.id = source.id
  layers_perm : source.layers.Perm source'.layers

/-- The same member, its sources in the same order, and the layers of each in any order. -/
structure Member.Relisted (m m' : Member) : Prop where
  id_eq : m'.id = m.id
  sources : List.Forall₂ MediaSource.Relisted m.sources m'.sources

/-- The same members, each under an id of its own, listed in any order. -/
structure Relisted (members members' : List Member) : Prop where
  distinct : (members.map (·.id)).Nodup
  exists_perm : ∃ l, members.Perm l ∧ List.Forall₂ Member.Relisted l members'

theorem SourceUnit.build_eq_of_relisted (config : Config) (strategy : Strategy)
    (participant : ParticipantId) (c : VideoConstraints) {source source' : MediaSource}
    (h : source.Relisted source') :
    build config strategy participant c source' = build config strategy participant c source := by
  simp only [build, h.id_eq, Ladder.of?_perm config strategy c h.layers_perm]

namespace Member.Relisted

theorem map_build_eq {m m' : Member} (h : m.Relisted m') (config : Config) (strategy : Strategy)
    (c : VideoConstraints) : m'.sources.map (SourceUnit.build config strategy m'.id c) =
      m.sources.map (SourceUnit.build config strategy m.id c) := by
  rw [h.id_eq, eq_comm, ← List.forall₂_eq_eq_eq, List.forall₂_map_left_iff,
    List.forall₂_map_right_iff]
  exact h.sources.imp fun _ _ hsource => (SourceUnit.build_eq_of_relisted _ _ _ _ hsource).symm

theorem map_id_eq {ordered ordered' : List Member}
    (h : List.Forall₂ Member.Relisted ordered ordered') :
    ordered'.map (·.id) = ordered.map (·.id) := by
  rw [eq_comm, ← List.forall₂_eq_eq_eq, List.forall₂_map_left_iff, List.forall₂_map_right_iff]
  exact h.imp fun _ _ hm => hm.id_eq.symm

end Member.Relisted

namespace Relisted

variable {members members' : List Member}

theorem distinct' (h : Relisted members members') : (members'.map (·.id)).Nodup := by
  obtain ⟨l, hperm, hpairs⟩ := h.exists_perm
  rw [Member.Relisted.map_id_eq hpairs]
  exact (hperm.map _).nodup_iff.mp h.distinct

theorem exists_relisted (h : Relisted members members') {m : Member} (hm : m ∈ members) :
    ∃ m' ∈ members', m.Relisted m' := by
  obtain ⟨l, hperm, hpairs⟩ := h.exists_perm
  exact exists_right_of_mem hpairs (hperm.mem_iff.mp hm)

theorem exists_original (h : Relisted members members') {m' : Member} (hm' : m' ∈ members') :
    ∃ m ∈ members, m.Relisted m' := by
  obtain ⟨l, hperm, hpairs⟩ := h.exists_perm
  obtain ⟨m, hm, hrelisted⟩ := exists_right_of_mem hpairs.flip hm'
  exact ⟨m, hperm.mem_iff.mpr hm, hrelisted⟩

/-- Under an id both listings have the same member, or neither has any. -/
theorem rel_find?_directory (h : Relisted members members') (id : ParticipantId) :
    Option.Rel Member.Relisted ((Member.directory members).find? id)
      ((Member.directory members').find? id) := by
  cases hfind : (Member.directory members).find? id with
  | some m =>
    obtain ⟨hm, hid⟩ := mem_of_find?_directory hfind
    obtain ⟨m', hm', hrelisted⟩ := h.exists_relisted hm
    have hfind' : (Member.directory members').find? id = some m' :=
      (find?_directory_eq_some_iff h.distinct').mpr ⟨hm', hrelisted.id_eq.trans hid⟩
    rw [hfind']
    exact .some hrelisted
  | none =>
    cases hfind' : (Member.directory members').find? id with
    | none => exact .none
    | some m' =>
      obtain ⟨hm', hid⟩ := mem_of_find?_directory hfind'
      obtain ⟨m, hm, hrelisted⟩ := h.exists_original hm'
      have hfound : (Member.directory members).find? id = some m :=
        (find?_directory_eq_some_iff h.distinct).mpr ⟨hm, hrelisted.id_eq.symm.trans hid⟩
      rw [hfind] at hfound
      cases hfound

/-- **Who is served, and in which order, does not depend on the listing.** -/
theorem forall₂_prioritize (h : Relisted members members') (order selected : List ParticipantId) :
    List.Forall₂ Member.Relisted (prioritize order selected members)
      (prioritize order selected members') := by
  let ids := firstOccurrences (selected.filter (· ∈ order) ++ order)
  have hids : List.Forall₂ (· = ·) ids ids := by rw [List.forall₂_eq_eq_eq]
  refine List.rel_filterMap ?_ hids
  rintro id _ rfl
  exact h.rel_find?_directory id

end Relisted

/-! ## Policies -/

/-- The policy does not look at how members list their layers. -/
def ConstraintsPolicy.IgnoresListing (policy : ConstraintsPolicy) : Prop :=
  ∀ (ordered ordered' : List Member) (settings : Settings),
    List.Forall₂ Member.Relisted ordered ordered' →
      policy ordered' settings = policy ordered settings

/-- **The slot rule looks at ids only.** -/
theorem SlotPolicy.ignoresListing (p : SlotPolicy) :
    ConstraintsPolicy.IgnoresListing p.effective := by
  intro ordered ordered' settings h
  rw [effective, effective, Member.Relisted.map_id_eq h]

end Downlink
