import Downlink.Proofs.SameRecords

/-!
# Rearrangement

What it means for two allocations to be the same, said of their lists of records and without the
maps that are compared: the one lists the records of the other in another order.

The comparison looks at one record per key, and `==` holds of nothing that is not a number.  So the
two are one and the same for allocations in which each record has a key of its own and every rate is
a number.  On these, to be the same is an equivalence, and priority does not enter into it.

## Results

* `Allocation.isSameAs_iff_rearranges` — the comparison of maps, as one of lists.
* `Allocation.isSameAs_eq_of_perm` — the order of the records makes no difference.
* `Allocation.isSameAs_characterized` — both of them, with what follows for the totals.
-/

set_option autoImplicit false

namespace Downlink

namespace SourceAllocation

theorem key_eq_of_beq {s t : SourceAllocation} (h : (s == t) = true) : s.key = t.key := by
  have hkey : s.withoutLayer.key = t.withoutLayer.key := congrArg key (withoutLayer_eq_of_beq h)
  exact hkey

instance (s : SourceAllocation) : Decidable s.RateIsNumber :=
  inferInstanceAs (Decidable (∀ l ∈ s.targetLayer, _))

end SourceAllocation

namespace Allocation

variable {a b : Allocation}

/-- The records of `b` are those of `a` in some order, compared one by one with `==`. -/
def Rearranges (a b : Allocation) : Prop :=
  ∃ l, l.Perm a.sources ∧ List.Forall₂ (fun s t => (s == t) = true) l b.sources

/-- Each record has a key of its own, and every rate is a number. -/
structure IsProper (a : Allocation) : Prop where
  keys : a.KeysAreDistinct
  rates : ∀ s ∈ a.sources, s.RateIsNumber

instance (a : Allocation) : Decidable a.IsProper :=
  decidable_of_iff ((a.sources.map SourceAllocation.key).Nodup ∧ ∀ s ∈ a.sources, s.RateIsNumber)
    ⟨fun ⟨hkeys, hrates⟩ => ⟨hkeys, hrates⟩, fun ⟨hkeys, hrates⟩ => ⟨hkeys, hrates⟩⟩

theorem byKey_eq_of_perm (h : a.sources.Perm b.sources) (hkeys : a.KeysAreDistinct) :
    a.byKey = b.byKey := by
  refine SortedMap.ofList_eq_of_perm (h.map _) ?_
  rw [map_fst_keyed]
  exact hkeys

/-- Records that are the same one by one are put into maps that are the same. -/
theorem byKey_beq (h : List.Forall₂ (fun s t => (s == t) = true) a.sources b.sources) :
    (a.byKey == b.byKey) = true := by
  have hkeyed : List.Forall₂ (fun e e' => e.1 = e'.1 ∧ (e.2 == e'.2) = true)
      (a.sources.map fun s => (s.key, s)) (b.sources.map fun s => (s.key, s)) := by
    rw [List.forall₂_map_left_iff, List.forall₂_map_right_iff]
    exact h.imp fun s t hst => ⟨SourceAllocation.key_eq_of_beq hst, hst⟩
  have hentries := SortedMap.forall₂_entries_ofList (R := fun s t => (s == t) = true) hkeyed
  refine list_beq_of_forall₂ (hentries.imp ?_)
  rintro e e' ⟨hkey, hrecord⟩
  exact Bool.and_eq_true_iff.mpr ⟨beq_iff_eq.mpr hkey, hrecord⟩

/-- **The comparison of maps, as one of lists.** -/
theorem isSameAs_iff_rearranges (ha : a.KeysAreDistinct) (hb : b.KeysAreDistinct) :
    a.isSameAs b = true ↔ a.Rearranges b := by
  constructor
  · intro h
    exact exists_perm_of_isSameAs h hb
  · rintro ⟨l, hperm, hpairs⟩
    have hkeys : a.byKey = (⟨l⟩ : Allocation).byKey := byKey_eq_of_perm hperm.symm ha
    refine isSameAs_iff.mpr ⟨hperm.symm.length_eq.trans hpairs.length_eq, ?_⟩
    rw [hkeys]
    exact byKey_beq hpairs

/-- **The order of the records makes no difference.** -/
theorem isSameAs_eq_of_perm {a' b' : Allocation} (ha : a.KeysAreDistinct) (hb : b.KeysAreDistinct)
    (hperm : a.sources.Perm a'.sources) (hperm' : b.sources.Perm b'.sources) :
    a'.isSameAs b' = a.isSameAs b := by
  rw [isSameAs, isSameAs, ← hperm.length_eq, ← hperm'.length_eq, ← byKey_eq_of_perm hperm ha,
    ← byKey_eq_of_perm hperm' hb]

theorem equivalence_isSameAs :
    Equivalence fun a b : { a : Allocation // a.IsProper } => a.1.isSameAs b.1 = true where
  refl a := isSameAs_self a.2.rates
  symm := isSameAs_symm
  trans := isSameAs_trans

/-- **Two allocations are the same exactly if they rearrange one another's records**, where each
record has a key of its own and every rate is a number.  On these it is an equivalence, the totals
of allocations that are the same agree, and the order of priority plays no part. -/
theorem isSameAs_characterized :
    (Equivalence fun a b : { a : Allocation // a.IsProper } => a.1.isSameAs b.1 = true) ∧
      ∀ a b : Allocation, a.IsProper → b.IsProper →
        (a.isSameAs b = true ↔ a.Rearranges b) ∧
        (a.isSameAs b = true → a.SameTotals b) ∧
        ∀ a' b' : Allocation, a.sources.Perm a'.sources → b.sources.Perm b'.sources →
          a'.isSameAs b' = a.isSameAs b := by
  refine ⟨equivalence_isSameAs, fun a b ha hb => ⟨?_, ?_, ?_⟩⟩
  · exact isSameAs_iff_rearranges ha.keys hb.keys
  · intro h
    exact sameTotals_of_isSameAs h hb.keys
  · intro a' b' hperm hperm'
    exact isSameAs_eq_of_perm ha.keys hb.keys hperm hperm'

/-! ## A zero of either sign -/

/-- A camera at a rate of zero, the sign of which is given, and a screen that is not sent. -/
def frozenCamera (negative : Bool) : List SourceAllocation :=
  [{ participant := ⟨"gwen", by decide⟩, source := ⟨"tripod", by decide⟩, targetIndex := some 0
     idealIndex := some 1, targetLayer := some ⟨180, .zero negative, 100⟩, bitrate := 100
     idealBitrate := 300, oversending := false },
   { participant := ⟨"gwen", by decide⟩, source := ⟨"slides", by decide⟩, targetIndex := none
     idealIndex := some 0, targetLayer := none, bitrate := 0, idealBitrate := 1000
     oversending := false }]

/-- The records in another order, and the zero with another sign: the two are the same, and so are
both in the same order. -/
theorem isSameAs_characterized_signed_zeros :
    let a : Allocation := ⟨frozenCamera false⟩
    let b : Allocation := ⟨(frozenCamera true).reverse⟩
    a.IsProper ∧ b.IsProper ∧ a ≠ b ∧ ¬ a.sources.Perm b.sources ∧ a.Rearranges b ∧
      a.isSameAs b = true ∧ b.isSameAs a = true ∧ a.SameTotals b ∧
      a.isSameAs ⟨frozenCamera true⟩ = true := by
  intro a b
  have ha : a.IsProper := by decide +kernel
  have hb : b.IsProper := by decide +kernel
  have hrearranges : a.Rearranges b :=
    ⟨(frozenCamera false).reverse, List.reverse_perm _, .cons (by decide +kernel)
      (.cons (by decide +kernel) .nil)⟩
  obtain ⟨hequivalence, hpairs⟩ := isSameAs_characterized
  obtain ⟨hiff, htotals, hperm⟩ := hpairs a b ha hb
  have hsame := hiff.mpr hrearranges
  have hreordered := hperm a ⟨frozenCamera true⟩ (.refl _) (List.reverse_perm _)
  exact ⟨ha, hb, by decide +kernel, by decide +kernel, hrearranges, hsame,
    hequivalence.symm (x := ⟨a, ha⟩) (y := ⟨b, hb⟩) hsame, htotals hsame, hreordered.trans hsame⟩

end Allocation

end Downlink
