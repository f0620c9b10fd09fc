import Downlink.Proofs.Sameness
import Downlink.Proofs.SortedMap

/-!
# The same records

Allocations are compared by their records under each key, and of several records with one key only
the last one is looked at.  Where every record has a key of its own, none is overlooked: allocations
that are the same then hold records that are the same one by one, in some order, and so agree on
everything that is counted or summed up.

## Results

* `Allocation.exists_perm_of_isSameAs` — records that pair up, each with one that is the same.
* `Allocation.sameTotals_of_isSameAs` — the totals of allocations that are the same.
-/

set_option autoImplicit false

namespace Downlink

namespace SourceAllocation

instance : Std.LawfulEqOrd Key where
  compare_self := Std.ReflCmp.compare_self
  eq_of_compare {a b} h := by
    have hthen : (compare a.participant b.participant).then (compare a.source b.source) = .eq := h
    obtain ⟨hparticipant, hsource⟩ := Ordering.then_eq_eq.mp hthen
    cases a
    cases b
    congr
    · exact Std.LawfulEqCmp.eq_of_compare hparticipant
    · exact Std.LawfulEqCmp.eq_of_compare hsource

/-- What a record says apart from the layer sent, whose rate is compared by value. -/
def withoutLayer (s : SourceAllocation) : SourceAllocation := { s with targetLayer := none }

@[simp] theorem participant_withoutLayer (s : SourceAllocation) :
    s.withoutLayer.participant = s.participant := rfl

@[simp] theorem isForwarded_withoutLayer (s : SourceAllocation) :
    s.withoutLayer.isForwarded = s.isForwarded := rfl

@[simp] theorem bitrate_withoutLayer (s : SourceAllocation) :
    s.withoutLayer.bitrate = s.bitrate := rfl

@[simp] theorem idealBitrate_withoutLayer (s : SourceAllocation) :
    s.withoutLayer.idealBitrate = s.idealBitrate := rfl

@[simp] theorem oversending_withoutLayer (s : SourceAllocation) :
    s.withoutLayer.oversending = s.oversending := rfl

theorem withoutLayer_eq_of_beq {s t : SourceAllocation} (h : (s == t) = true) :
    s.withoutLayer = t.withoutLayer := by
  have hview : (s == t) = (s.participant == t.participant && (s.source == t.source
    && (s.targetIndex == t.targetIndex && (s.idealIndex == t.idealIndex
    && (s.targetLayer == t.targetLayer && (s.bitrate == t.bitrate
    && (s.idealBitrate == t.idealBitrate && s.oversending == t.oversending))))))) := rfl
  rw [hview] at h
  simp only [Bool.and_eq_true, beq_iff_eq] at h
  simp [withoutLayer, h]

end SourceAllocation

namespace Allocation

variable {a b : Allocation}

/-- Every record has a key of its own. -/
def KeysAreDistinct (a : Allocation) : Prop := (a.sources.map (·.key)).Nodup

/-- The keys with which the records are put into the map. -/
theorem map_fst_keyed (a : Allocation) :
    (a.sources.map fun s => (s.key, s)).map Prod.fst = a.sources.map (·.key) := by
  simp

/-- None of such records is missing from the map. -/
theorem perm_entries_byKey (h : a.KeysAreDistinct) :
    a.byKey.entries.Perm (a.sources.map fun s => (s.key, s)) := by
  refine SortedMap.perm_ofList ?_
  rw [map_fst_keyed]
  exact h

theorem perm_values_byKey (h : a.KeysAreDistinct) :
    (a.byKey.entries.map Prod.snd).Perm a.sources := by
  simpa [Function.comp_def] using (perm_entries_byKey h).map Prod.snd

theorem forall₂_entries_of_isSameAs (h : a.isSameAs b = true) :
    List.Forall₂ (fun e e' => (e == e') = true) a.byKey.entries b.byKey.entries :=
  forall₂_of_list_beq (isSameAs_iff.mp h).2

/-- Where one allocation has records with keys of their own, the other has as many entries in its
map as it has records, so none of its keys occurs twice either. -/
theorem keysAreDistinct_of_isSameAs (h : a.isSameAs b = true) (hb : b.KeysAreDistinct) :
    a.KeysAreDistinct := by
  have hrecords : a.sources.length = b.sources.length := (isSameAs_iff.mp h).1
  have hentries : a.byKey.entries.length = b.byKey.entries.length :=
    (forall₂_entries_of_isSameAs h).length_eq
  have hall : b.byKey.entries.length = b.sources.length := by
    rw [(perm_entries_byKey hb).length_eq, List.length_map]
  rw [KeysAreDistinct, ← map_fst_keyed]
  refine SortedMap.nodup_keys_of_length_le ?_
  rw [List.length_map, hrecords, ← hall, ← hentries]
  exact Nat.le_refl _

/-- **Records with keys of their own pair up with those of an allocation that is the same.** -/
theorem exists_perm_of_isSameAs (h : a.isSameAs b = true) (hb : b.KeysAreDistinct) :
    ∃ l, l.Perm a.sources ∧ List.Forall₂ (fun s t => (s == t) = true) l b.sources := by
  have ha := keysAreDistinct_of_isSameAs h hb
  have hvalues : List.Forall₂ (fun t s => (s == t) = true)
      (b.byKey.entries.map Prod.snd) (a.byKey.entries.map Prod.snd) := by
    rw [List.forall₂_map_left_iff, List.forall₂_map_right_iff]
    have hpairs := (forall₂_entries_of_isSameAs h).imp fun _ _ h => (Bool.and_eq_true_iff.mp h).2
    exact hpairs.flip
  -- the order of `b` is carried over to the values of `a`
  obtain ⟨l, hpairs, hperm⟩ := List.perm_comp_forall₂ (perm_values_byKey hb).symm hvalues
  exact ⟨l, hperm.trans (perm_values_byKey ha), hpairs.flip⟩

/-! ## Totals -/

/-- The same counts and sums, and the same participants forwarded. -/
structure SameTotals (a b : Allocation) : Prop where
  forwardedCount : a.forwardedCount = b.forwardedCount
  targetBitrate : a.targetBitrate = b.targetBitrate
  idealBitrate : a.idealBitrate = b.idealBitrate
  isOversending : a.isOversending = b.isOversending
  forwarded : ∀ id, id ∈ a.forwardedParticipants ↔ id ∈ b.forwardedParticipants

theorem SameTotals.refl (a : Allocation) : a.SameTotals a :=
  ⟨rfl, rfl, rfl, rfl, fun _ => Iff.rfl⟩

theorem forwardedParticipants_subset (h : a.sources.map SourceAllocation.withoutLayer ⊆
    b.sources.map SourceAllocation.withoutLayer) :
    a.forwardedParticipants ⊆ b.forwardedParticipants := by
  intro id hid
  obtain ⟨s, hs, hforwarded, rfl⟩ := mem_forwardedParticipants.mp hid
  obtain ⟨t, ht, heq⟩ := List.mem_map.mp (h (List.mem_map_of_mem hs))
  refine mem_forwardedParticipants.mpr ⟨t, ht, ?_, ?_⟩
  · rw [← t.isForwarded_withoutLayer, heq]
    exact hforwarded
  · rw [← t.participant_withoutLayer, heq]
    rfl

/-- The totals depend neither on the order of the records nor on the layers sent. -/
theorem sameTotals_of_perm (h : (a.sources.map SourceAllocation.withoutLayer).Perm
    (b.sources.map SourceAllocation.withoutLayer)) : a.SameTotals b where
  forwardedCount := by
    have hcount := h.countP_eq (·.isForwarded)
    rwa [List.countP_map, List.countP_map] at hcount
  targetBitrate := by
    have hsum := (h.map fun s => s.bitrate.toNat).foldr_eq (f := (· + ·)) 0
    simpa [List.foldr_map, targetBitrate] using hsum
  idealBitrate := by
    have hsum := (h.map fun s => s.idealBitrate.toNat).foldr_eq (f := (· + ·)) 0
    simpa [List.foldr_map, Allocation.idealBitrate] using hsum
  isOversending := by
    have hany := h.any_eq (f := (·.oversending))
    rwa [List.any_map, List.any_map] at hany
  forwarded _ :=
    ⟨fun hid => forwardedParticipants_subset h.subset hid,
      fun hid => forwardedParticipants_subset h.symm.subset hid⟩

/-- **Allocations that are the same have the same totals**, if each record has a key of its own. -/
theorem sameTotals_of_isSameAs (h : a.isSameAs b = true) (hb : b.KeysAreDistinct) :
    a.SameTotals b := by
  obtain ⟨l, hperm, hpairs⟩ := exists_perm_of_isSameAs h hb
  have hequal : l.map SourceAllocation.withoutLayer =
      b.sources.map SourceAllocation.withoutLayer := by
    rw [← List.forall₂_eq_eq_eq, List.forall₂_map_left_iff, List.forall₂_map_right_iff]
    exact hpairs.imp fun _ _ => SourceAllocation.withoutLayer_eq_of_beq
  refine sameTotals_of_perm ?_
  rw [← hequal]
  exact (hperm.map _).symm

end Allocation

end Downlink
