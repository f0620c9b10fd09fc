import Mathlib
import Downlink.Allocation
import Downlink.Constraints

/-!
# Sameness by value

Rates are compared by value: the zeros are the same, and what is not a number is the same as
nothing.  So `==` on whatever holds rates is symmetric and transitive, and something is the same as
itself exactly when its rates are numbers.

## Results

* `Allocation.isSameAs_symm`, `Allocation.isSameAs_trans` — the same records, in any order.
* `Allocation.isSameAs_self` — an allocation whose layers have numbers for rates is the same as
  itself.
* `EffectiveConstraints.beq_self_iff` — so are constraints whose rates are numbers, and no others.
-/

set_option autoImplicit false

namespace Downlink

universe u v

/-! ## Containers -/

section Containers

variable {α : Type u} {β : Type v} [BEq α] [BEq β]

/-- What is compared through a view is compared as the view is. -/
theorem partialEquivBEq_comap [PartialEquivBEq β] (view : α → β)
    (h : ∀ a b : α, (a == b) = (view a == view b)) : PartialEquivBEq α where
  symm {a b} hab := by
    rw [h] at hab ⊢
    exact PartialEquivBEq.symm hab
  trans {a b c} hab hbc := by
    rw [h] at hab hbc ⊢
    exact PartialEquivBEq.trans hab hbc

instance partialEquivBEqProd [PartialEquivBEq α] [PartialEquivBEq β] : PartialEquivBEq (α × β) where
  symm {a b} h := by
    obtain ⟨h₁, h₂⟩ := Bool.and_eq_true_iff.mp h
    exact Bool.and_eq_true_iff.mpr ⟨PartialEquivBEq.symm h₁, PartialEquivBEq.symm h₂⟩
  trans {a b c} h h' := by
    obtain ⟨h₁, h₂⟩ := Bool.and_eq_true_iff.mp h
    obtain ⟨h₁', h₂'⟩ := Bool.and_eq_true_iff.mp h'
    exact Bool.and_eq_true_iff.mpr
      ⟨PartialEquivBEq.trans h₁ h₁', PartialEquivBEq.trans h₂ h₂'⟩

instance partialEquivBEqOption [PartialEquivBEq α] : PartialEquivBEq (Option α) where
  symm {a b} h := by
    cases a <;> cases b <;> simp_all [PartialEquivBEq.symm]
  trans {a b c} h h' := by
    cases a <;> cases b <;> cases c <;> simp_all
    exact PartialEquivBEq.trans h h'

instance partialEquivBEqList [PartialEquivBEq α] : PartialEquivBEq (List α) where
  symm {a b} h := by
    induction a generalizing b with
    | nil =>
      cases b with
      | nil => exact h
      | cons => cases h
    | cons x a ih =>
      cases b with
      | nil => cases h
      | cons y b =>
        obtain ⟨hx, ha⟩ := Bool.and_eq_true_iff.mp h
        exact Bool.and_eq_true_iff.mpr ⟨PartialEquivBEq.symm hx, ih ha⟩
  trans {a b c} h h' := by
    induction a generalizing b c with
    | nil =>
      cases b with
      | nil => exact h'
      | cons => cases h
    | cons x a ih =>
      cases b with
      | nil => cases h
      | cons y b =>
        cases c with
        | nil => cases h'
        | cons z c =>
          obtain ⟨hx, ha⟩ := Bool.and_eq_true_iff.mp h
          obtain ⟨hx', ha'⟩ := Bool.and_eq_true_iff.mp h'
          exact Bool.and_eq_true_iff.mpr ⟨PartialEquivBEq.trans hx hx', ih ha ha'⟩

theorem option_beq_self_iff {o : Option α} : (o == o) = true ↔ ∀ a ∈ o, (a == a) = true := by
  cases o <;> simp

theorem list_beq_self_iff {l : List α} : (l == l) = true ↔ ∀ a ∈ l, (a == a) = true := by
  induction l with
  | nil => simp
  | cons a l ih =>
    rw [List.forall_mem_cons, ← ih]
    exact Bool.and_eq_true_iff

theorem forall₂_of_list_beq {l l' : List α} (h : (l == l') = true) :
    List.Forall₂ (fun a b => (a == b) = true) l l' := by
  induction l generalizing l' with
  | nil =>
    cases l' with
    | nil => exact .nil
    | cons => cases h
  | cons a l ih =>
    cases l' with
    | nil => cases h
    | cons b l' =>
      obtain ⟨hhead, htail⟩ := Bool.and_eq_true_iff.mp h
      exact .cons hhead (ih htail)

theorem list_beq_of_forall₂ {l l' : List α} (h : List.Forall₂ (fun a b => (a == b) = true) l l') :
    (l == l') = true := by
  induction h with
  | nil => rfl
  | cons hhead _ ih => exact Bool.and_eq_true_iff.mpr ⟨hhead, ih⟩

/-- Where `==` tells the elements of a list apart from all others, it tells the list apart. -/
theorem eq_of_list_beq {l l' : List α} (hl : ∀ a ∈ l, ∀ b, (a == b) = true → a = b)
    (h : (l == l') = true) : l = l' := by
  have hpairs := forall₂_of_list_beq h
  induction hpairs with
  | nil => rfl
  | cons hhead htail ih =>
    rw [List.forall_mem_cons] at hl
    rw [hl.1 _ hhead, ih hl.2 (Bool.and_eq_true_iff.mp h).2]

instance [Ord α] [PartialEquivBEq α] [PartialEquivBEq β] : PartialEquivBEq (SortedMap α β) :=
  partialEquivBEq_comap SortedMap.entries fun _ _ => rfl

end Containers

/-! ## What holds rates -/

namespace Binary64

theorem beq_iff {x y : Binary64} :
    (x == y) = true ↔ x.isNaN = false ∧ y.isNaN = false ∧ x.rank = y.rank := by
  show sameValue x y = true ↔ _
  simp [sameValue, and_assoc]

instance : PartialEquivBEq Binary64 where
  symm {x y} h := by
    obtain ⟨hx, hy, hrank⟩ := beq_iff.mp h
    exact beq_iff.mpr ⟨hy, hx, hrank.symm⟩
  trans {x y z} h h' := by
    obtain ⟨hx, _, hrank⟩ := beq_iff.mp h
    obtain ⟨_, hz, hrank'⟩ := beq_iff.mp h'
    exact beq_iff.mpr ⟨hx, hz, hrank.trans hrank'⟩

theorem beq_self_iff {x : Binary64} : (x == x) = true ↔ x.isNaN = false := by
  rw [beq_iff]
  exact ⟨And.left, fun h => ⟨h, h, rfl⟩⟩

end Binary64

namespace Layer

instance : PartialEquivBEq Layer :=
  partialEquivBEq_comap (fun l => (l.height, l.frameRate, l.bitrate)) fun _ _ => rfl

theorem beq_self_iff {l : Layer} : (l == l) = true ↔ l.frameRate.isNaN = false := by
  have hview : (l == l) = (l.height == l.height && (l.frameRate == l.frameRate
    && l.bitrate == l.bitrate)) := rfl
  rw [hview, ← Binary64.beq_self_iff]
  simp

end Layer

namespace VideoConstraints

instance : PartialEquivBEq VideoConstraints :=
  partialEquivBEq_comap
    (fun c => (c.idealHeight, c.idealFrameRate, c.maxHeight, c.maxFrameRate)) fun _ _ => rfl

/-- The rates that are set are numbers. -/
structure RatesAreNumbers (c : VideoConstraints) : Prop where
  ideal : ∀ rate ∈ c.idealFrameRate, rate.isNaN = false
  max : ∀ rate ∈ c.maxFrameRate, rate.isNaN = false

theorem beq_self_iff {c : VideoConstraints} : (c == c) = true ↔ c.RatesAreNumbers := by
  have hview : (c == c) = (c.idealHeight == c.idealHeight && (c.idealFrameRate == c.idealFrameRate
    && (c.maxHeight == c.maxHeight && c.maxFrameRate == c.maxFrameRate))) := rfl
  rw [hview]
  simp only [beq_self_eq_true, Bool.true_and, Bool.and_eq_true, option_beq_self_iff,
    Binary64.beq_self_iff]
  exact ⟨fun h => ⟨h.1, h.2⟩, fun h => ⟨h.ideal, h.max⟩⟩

/-- Constraints without rates are compared exactly. -/
theorem eq_of_ofHeight_beq {height : UInt32} {c : VideoConstraints}
    (h : (ofHeight height == c) = true) : ofHeight height = c := by
  have hview : (ofHeight height == c) = (height == c.idealHeight && (none == c.idealFrameRate
    && (height == c.maxHeight && none == c.maxFrameRate))) := rfl
  obtain ⟨idealHeight, idealRate, maxHeight, maxRate⟩ := c
  simp only [hview, Bool.and_eq_true, beq_iff_eq] at h
  obtain ⟨rfl, hideal, rfl, hmax⟩ := h
  cases idealRate <;> cases maxRate <;> simp_all [ofHeight]

theorem ratesAreNumbers_ofHeight (height : UInt32) : (ofHeight height).RatesAreNumbers :=
  ⟨fun _ h => (nomatch h), fun _ h => (nomatch h)⟩

end VideoConstraints

/-- Every rate in the constraints is a number. -/
def EffectiveConstraints.RatesAreNumbers (m : EffectiveConstraints) : Prop :=
  ∀ e ∈ m.entries, e.2.RatesAreNumbers

theorem EffectiveConstraints.beq_self_iff {m : EffectiveConstraints} :
    (m == m) = true ↔ m.RatesAreNumbers := by
  show (m.entries == m.entries) = true ↔ _
  rw [list_beq_self_iff]
  refine forall₂_congr fun e _ => ?_
  rw [← VideoConstraints.beq_self_iff]
  show (e.1 == e.1 && e.2 == e.2) = true ↔ _
  simp

instance (m : EffectiveConstraints) : Decidable m.RatesAreNumbers :=
  decidable_of_iff _ EffectiveConstraints.beq_self_iff

namespace SourceAllocation

instance : PartialEquivBEq SourceAllocation :=
  partialEquivBEq_comap (fun s => (s.participant, s.source, s.targetIndex, s.idealIndex,
    s.targetLayer, s.bitrate, s.idealBitrate, s.oversending)) fun _ _ => rfl

/-- The rate of the layer sent, if there is one, is a number. -/
def RateIsNumber (s : SourceAllocation) : Prop := ∀ l ∈ s.targetLayer, l.frameRate.isNaN = false

theorem beq_self {s : SourceAllocation} (h : s.RateIsNumber) : (s == s) = true := by
  have hlayer : (s.targetLayer == s.targetLayer) = true :=
    option_beq_self_iff.mpr fun l hl => Layer.beq_self_iff.mpr (h l hl)
  have hview : (s == s) = (s.participant == s.participant && (s.source == s.source
    && (s.targetIndex == s.targetIndex && (s.idealIndex == s.idealIndex
    && (s.targetLayer == s.targetLayer && (s.bitrate == s.bitrate
    && (s.idealBitrate == s.idealBitrate && s.oversending == s.oversending))))))) := rfl
  rw [hview, hlayer]
  simp

end SourceAllocation

/-! ## Allocations -/

namespace Allocation

variable {a b c : Allocation}

theorem isSameAs_iff : a.isSameAs b = true ↔
    a.sources.length = b.sources.length ∧ (a.byKey == b.byKey) = true := by
  rw [isSameAs, Bool.and_eq_true, beq_iff_eq]

theorem isSameAs_symm (h : a.isSameAs b = true) : b.isSameAs a = true := by
  obtain ⟨hlength, hkeys⟩ := isSameAs_iff.mp h
  exact isSameAs_iff.mpr ⟨hlength.symm, PartialEquivBEq.symm hkeys⟩

theorem isSameAs_trans (hab : a.isSameAs b = true) (hbc : b.isSameAs c = true) :
    a.isSameAs c = true := by
  obtain ⟨hlength, hkeys⟩ := isSameAs_iff.mp hab
  obtain ⟨hlength', hkeys'⟩ := isSameAs_iff.mp hbc
  exact isSameAs_iff.mpr ⟨hlength.trans hlength', PartialEquivBEq.trans hkeys hkeys'⟩

theorem isSameAs_self (h : ∀ s ∈ a.sources, s.RateIsNumber) : a.isSameAs a = true := by
  refine isSameAs_iff.mpr ⟨rfl, ?_⟩
  show (a.byKey.entries == a.byKey.entries) = true
  rw [list_beq_self_iff]
  intro e he
  obtain ⟨s, hs, rfl⟩ := List.mem_map.mp (SortedMap.mem_entries_ofList he)
  exact Bool.and_eq_true_iff.mpr ⟨beq_self_eq_true _, SourceAllocation.beq_self (h s hs)⟩

end Allocation

end Downlink
