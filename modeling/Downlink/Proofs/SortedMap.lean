import Mathlib
import Downlink.SortedMap

/-!
# Maps made of lists

A map made of a list keeps one entry for each key.  So it holds the whole list exactly when no key
occurs twice, and then the order of the list does not matter to it.

## Results

* `SortedMap.perm_ofList` — a map made of entries with distinct keys holds just these.
* `SortedMap.nodup_keys_of_length_le` — a map that is as long as its list was made of such entries.
* `SortedMap.ext_find?` — a map is its answers.
* `SortedMap.find?_ofList` — of a list, a map finds the last entry under a key.
* `SortedMap.ofList_eq_of_perm` — the order of entries with distinct keys makes no difference.
* `SortedMap.ofList_entries` — a map is made of its own entries.
* `SortedMap.forall₂_entries_ofList` — lists with the same keys make maps with the same keys.
-/

set_option autoImplicit false

namespace Downlink.SortedMap

universe u v

/-- Where keys are distinct, at most one element is under a key, whatever the order. -/
theorem filter_key_eq_of_perm {κ : Type u} {α : Type v} [DecidableEq κ] (key : α → κ)
    {l l' : List α} (h : l.Perm l') (hkeys : (l.map key).Nodup) (k : κ) :
    l.filter (key · = k) = l'.filter (key · = k) := by
  have hkeys' : (l'.map key).Nodup := (h.map key).nodup_iff.mp hkeys
  refine (h.filter _).eq_of_pairwise ?_ ((List.pairwise_map.mp hkeys).filter _)
    ((List.pairwise_map.mp hkeys').filter _)
  intro a b ha hb hne _
  have ha : key a = k := of_decide_eq_true (List.mem_filter.mp ha).2
  have hb : key b = k := of_decide_eq_true (List.mem_filter.mp hb).2
  exact absurd (ha.trans hb.symm) hne

variable {κ : Type u} {α : Type v} [Ord κ]

@[simp] theorem ofList_concat [Std.TransOrd κ] (l : List (κ × α)) (e : κ × α) :
    ofList (l ++ [e]) = (ofList l).insert e.1 e.2 := List.foldl_concat ..

variable [Std.LawfulEqOrd κ]

/-- No key occurs twice in a map. -/
theorem nodup_keys (m : SortedMap κ α) : (m.entries.map Prod.fst).Nodup := by
  rw [List.Nodup, List.pairwise_map]
  refine m.ascending.imp ?_
  intro a b hlt heq
  have hself : compare b.1 b.1 = .eq := Std.ReflCmp.compare_self
  rw [heq, hself] at hlt
  cases hlt

theorem perm_insertEntry {k : κ} {a : α} {l : List (κ × α)} (h : k ∉ l.map Prod.fst) :
    (insertEntry k a l).Perm ((k, a) :: l) := by
  induction l with
  | nil => exact .refl _
  | cons e rest ih =>
    rw [List.map_cons, List.mem_cons, not_or] at h
    rw [insertEntry]
    split
    · exact .refl _
    · rename_i heq
      exact absurd (Std.LawfulEqCmp.eq_of_compare heq) h.1
    · exact ((ih h.2).cons e).trans (.swap ..)

variable [Std.TransOrd κ]

/-- **A map made of entries with distinct keys holds just these.** -/
theorem perm_ofList {l : List (κ × α)} (h : (l.map Prod.fst).Nodup) :
    (ofList l).entries.Perm l := by
  induction l using List.reverseRecOn with
  | nil => exact .refl _
  | append_singleton l e ih =>
    rw [List.map_append, List.nodup_append'] at h
    obtain ⟨hl, _, hdisjoint⟩ := h
    have hfresh : e.1 ∉ (ofList l).entries.map Prod.fst := by
      intro hmem
      obtain ⟨e', he', heq⟩ := List.mem_map.mp hmem
      have hkey : e.1 ∈ l.map Prod.fst := heq ▸ List.mem_map_of_mem (mem_entries_ofList he')
      exact hdisjoint hkey (List.mem_singleton_self _)
    calc (ofList (l ++ [e])).entries = insertEntry e.1 e.2 (ofList l).entries :=
          congrArg entries (ofList_concat l e)
      List.Perm _ (e :: (ofList l).entries) := perm_insertEntry hfresh
      List.Perm _ (e :: l) := (ih hl).cons e
      List.Perm _ (l ++ [e]) := (List.perm_append_singleton e l).symm

/-- **A map that is as long as its list was made of entries with distinct keys.** -/
theorem nodup_keys_of_length_le {l : List (κ × α)} (h : l.length ≤ (ofList l).entries.length) :
    (l.map Prod.fst).Nodup := by
  have hsubset : (ofList l).entries ⊆ l := fun _ => mem_entries_ofList
  have hnodup : (ofList l).entries.Nodup := (nodup_keys _).of_map _
  have hperm : (ofList l).entries.Perm l :=
    (List.subperm_of_subset hnodup hsubset).perm_of_length_le h
  exact (hperm.map Prod.fst).nodup_iff.mp (nodup_keys _)

/-- The map finds the entries of such a list. -/
theorem find?_ofList_eq_some_iff {l : List (κ × α)} (h : (l.map Prod.fst).Nodup) {k : κ} {a : α} :
    (ofList l).find? k = some a ↔ (k, a) ∈ l := by
  rw [find?_eq_some_iff, (perm_ofList h).mem_iff]

/-! ## Maps by their answers -/

/-- **A map is its answers.** -/
theorem ext_find? {m m' : SortedMap κ α} (h : ∀ k, m.find? k = m'.find? k) : m = m' := by
  have hmem : ∀ e, e ∈ m.entries ↔ e ∈ m'.entries := by
    rintro ⟨k, a⟩
    rw [← find?_eq_some_iff, ← find?_eq_some_iff, h]
  have hperm : m.entries.Perm m'.entries :=
    (List.perm_ext_iff_of_nodup (m.nodup_keys.of_map _) (m'.nodup_keys.of_map _)).mpr hmem
  refine eq_of_entries_eq (hperm.eq_of_pairwise ?_ m.ascending m'.ascending)
  intro a b _ _ hab hba
  exact absurd hba (Std.OrientedCmp.not_lt_of_lt hab)

/-- **Of a list, a map finds the last entry under a key.** -/
theorem find?_ofList [DecidableEq κ] (l : List (κ × α)) (k : κ) :
    (ofList l).find? k = ((l.filter (·.1 = k)).getLast?).map Prod.snd := by
  -- from the end, where the entry stands that counts
  induction l using List.reverseRecOn with
  | nil => rfl
  | append_singleton l e ih =>
    rw [ofList_concat, find?_insert, ih, List.filter_append]
    by_cases hk : e.1 = k
    · rw [if_pos (hk ▸ Std.ReflCmp.compare_self), List.filter_cons_of_pos (by simpa using hk)]
      simp
    · have hne : ¬ compare k e.1 = .eq := fun h => hk (Std.LawfulEqCmp.eq_of_compare h).symm
      rw [if_neg hne, List.filter_cons_of_neg (by simpa using hk)]
      simp

/-- Lists that agree under each key make the same map. -/
theorem ofList_eq_of_filter_eq [DecidableEq κ] {l l' : List (κ × α)}
    (h : ∀ k, l.filter (·.1 = k) = l'.filter (·.1 = k)) : ofList l = ofList l' :=
  ext_find? fun k => by rw [find?_ofList, find?_ofList, h]

/-- **The order of entries with distinct keys makes no difference.** -/
theorem ofList_eq_of_perm [DecidableEq κ] {l l' : List (κ × α)} (h : l.Perm l')
    (hkeys : (l.map Prod.fst).Nodup) : ofList l = ofList l' :=
  ofList_eq_of_filter_eq (filter_key_eq_of_perm Prod.fst h hkeys)

/-- **A map is made of its own entries.** -/
theorem ofList_entries (m : SortedMap κ α) : ofList m.entries = m := by
  refine ext_find? fun k => Option.ext fun a => ?_
  rw [find?_ofList_eq_some_iff m.nodup_keys, find?_eq_some_iff]

/-! ## Maps with the same keys -/

section SameKeys

variable {β : Type v} {R : α → β → Prop}

omit [Std.LawfulEqOrd κ] [Std.TransOrd κ] in
theorem forall₂_insertEntry {k : κ} {a : α} {b : β} (hab : R a b) {l : List (κ × α)}
    {l' : List (κ × β)} (h : List.Forall₂ (fun e e' => e.1 = e'.1 ∧ R e.2 e'.2) l l') :
    List.Forall₂ (fun e e' => e.1 = e'.1 ∧ R e.2 e'.2)
      (insertEntry k a l) (insertEntry k b l') := by
  induction h with
  | nil => exact .cons ⟨rfl, hab⟩ .nil
  | @cons e e' rest rest' he hrest ih =>
    rw [insertEntry, insertEntry, ← he.1]
    cases compare k e.1 with
    | lt => exact .cons ⟨rfl, hab⟩ (.cons he hrest)
    | eq => exact .cons ⟨rfl, hab⟩ hrest
    | gt => exact .cons he ih

omit [Std.LawfulEqOrd κ] in
/-- **Lists with the same keys make maps with the same keys**, and related values stay related. -/
theorem forall₂_entries_ofList {l : List (κ × α)} {l' : List (κ × β)}
    (h : List.Forall₂ (fun e e' => e.1 = e'.1 ∧ R e.2 e'.2) l l') :
    List.Forall₂ (fun e e' => e.1 = e'.1 ∧ R e.2 e'.2) (ofList l).entries (ofList l').entries := by
  suffices hfold : ∀ (m : SortedMap κ α) (m' : SortedMap κ β),
      List.Forall₂ (fun e e' => e.1 = e'.1 ∧ R e.2 e'.2) m.entries m'.entries →
        List.Forall₂ (fun e e' => e.1 = e'.1 ∧ R e.2 e'.2)
          (l.foldl (fun m e => m.insert e.1 e.2) m).entries
          (l'.foldl (fun m e => m.insert e.1 e.2) m').entries by
    exact hfold empty empty .nil
  induction h with
  | nil => exact fun _ _ hm => hm
  | @cons e e' l l' he _ ih =>
    intro m m' hm
    refine ih (m.insert e.1 e.2) (m'.insert e'.1 e'.2) ?_
    rw [insert, insert, ← he.1]
    exact forall₂_insertEntry he.2 hm

end SameKeys

end Downlink.SortedMap
