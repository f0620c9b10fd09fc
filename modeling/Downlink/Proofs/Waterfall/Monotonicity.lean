import Downlink.Proofs.Waterfall.Settling

/-!
# Monotonicity

More budget never makes an allocation worse as a whole, although it may cost a single unit its
layer: a unit that moves up takes a layer that costs more than all that the smaller budget had left
for it and the units behind it.

## Results

* `SourceUnit.Share.target_eq_or_lt` — out of a larger room a unit takes the same layer, or one that
  outweighs the smaller room.
* `Waterfall.mono` — the larger room has the greater targets and the greater load.
* `allocate_mono` — so has the larger budget.
-/

set_option autoImplicit false

namespace Downlink

open Allocator

variable {force : Bool} {r₁ r₂ : Int} {units : List SourceUnit} {states₁ states₂ : List UnitState}

/-- **Out of a larger room a unit takes the same layer, or a higher one** that costs at least what
it took out of the smaller room and all that was left there. -/
theorem SourceUnit.Share.target_eq_or_lt {u : SourceUnit} {s₁ s₂ : UnitState}
    (h₁ : u.Share force r₁ s₁) (h₂ : u.Share force r₂ s₂) (hle : r₁ ≤ r₂) (hlt : r₂ < 2 ^ 63) :
    s₁.target = s₂.target ∨ rung s₁.target < rung s₂.target ∧
      ((u.layerBitrate s₁.target).toNat : Int) + max 0 (r₁ - (u.bitrate s₁).toInt) ≤
        (u.layerBitrate s₂.target).toNat := by
  have hmono : ∀ i, u.Fits r₁ i → u.Fits r₂ i :=
    fun i hi => ⟨hi.useful, Int.le_trans hi.affordable hle⟩
  cases h₁ with
  | @fitting i hi =>
    cases h₂ with
    | @fitting j hj =>
      rcases Nat.lt_or_eq_of_le (hj.2 (hmono i hi.1)) with hij | rfl
      · right
        have hcost := hj.1.lt_of_not_fits fun hfits => Nat.not_le_of_lt hij (hi.2 hfits)
        have htaken : (u.bitrate { target := some i }).toInt = (u.layerBitrate (some i)).toNat :=
          hi.1.toInt_bitrate (by omega) rfl
        have hfits := hi.1.affordable
        refine ⟨Nat.succ_lt_succ hij, ?_⟩
        rw [htaken]
        dsimp only
        omega
      · exact .inl rfl
    | forced hnone _ _ => exact absurd (hmono i hi.1) (hnone i)
    | nothing hnone _ => exact absurd (hmono i hi.1) (hnone i)
  | forced hnone hforce hlayers =>
    cases h₂ with
    | @fitting j hj =>
      rcases Nat.eq_zero_or_pos j with rfl | hpos
      · exact .inl rfl
      · right
        have hcost := (hj.1.of_le (Nat.zero_le j)).lt_of_not_fits (hnone 0)
        have htaken : (u.bitrate ⟨some 0, true⟩).toInt =
            min ((u.layerBitrate (some 0)).toNat : Int) (2 ^ 63 - 1) := u.toInt_bitrate _
        have hstep := UInt64.le_iff_toNat_le.mp (SourceUnit.layerBitrate_mono hpos.le hj.1.useful)
        refine ⟨Nat.succ_lt_succ hpos, ?_⟩
        rw [htaken]
        dsimp only
        omega
    | forced _ _ _ => exact .inl rfl
    | nothing _ hfree => exact absurd ⟨hforce, hlayers⟩ hfree
  | nothing hnone hfree =>
    cases h₂ with
    | @fitting j hj =>
      have hcost := hj.1.lt_of_not_fits (hnone j)
      refine .inr ⟨Nat.succ_pos j, ?_⟩
      rw [SourceUnit.layerBitrate_none, SourceUnit.bitrate_idle, UInt64.toNat_zero,
        Int64.toInt_zero]
      dsimp only
      omega
    | forced _ hforce hlayers => exact absurd ⟨hforce, hlayers⟩ hfree
    | nothing _ _ => exact .inl rfl

theorem SourceUnit.bitrate_congr (u : SourceUnit) {s₁ s₂ : UnitState}
    (h : s₁.target = s₂.target) : u.bitrate s₁ = u.bitrate s₂ := by
  rw [bitrate, bitrate, h]

/-- **The larger room has the greater targets and the greater load.** -/
theorem Waterfall.mono (h₁ : Waterfall force r₁ units states₁)
    (h₂ : Waterfall force r₂ units states₂) (hle : r₁ ≤ r₂) (hlt : r₂ < 2 ^ 63) :
    LexLE (targets states₁) (targets states₂) ∧
      load units (targets states₁) ≤ load units (targets states₂) := by
  induction units generalizing force r₁ r₂ states₁ states₂ with
  | nil =>
    cases h₁
    cases h₂
    exact ⟨LexLE.refl _, Nat.le_refl _⟩
  | cons u units ih =>
    obtain ⟨s₁, rest₁, rfl, hs₁, hload₁, _, hflow₁, hcut₁⟩ := h₁.exists_cons (by omega)
    obtain ⟨s₂, rest₂, rfl, hs₂, _, _, hflow₂, hcut₂⟩ := h₂.exists_cons hlt
    rw [targets_cons, targets_cons, load_cons, load_cons]
    rcases hs₁.target_eq_or_lt hs₂ hle hlt with heq | ⟨hrung, hcost⟩
    · -- the same layer: the units behind are cut off in both, or run down from rooms in order
      have hbitrate := u.bitrate_congr heq
      have hnonneg := u.toInt_bitrate_nonneg s₂
      rw [heq] at hflow₁ hcut₁ ⊢
      by_cases hw : u.IsWanting s₂.target
      · rw [hcut₁ hw, hcut₂ hw]
        exact ⟨.inr ⟨rfl, LexLE.refl _⟩, Nat.le_refl _⟩
      · obtain ⟨hlex, hload⟩ := ih (hflow₁ hw) (hflow₂ hw) (by rw [hbitrate]; omega) (by omega)
        exact ⟨.inr ⟨rfl, hlex⟩, Nat.add_le_add_left hload _⟩
    · exact ⟨.inl hrung, by omega⟩

/-- The target bitrate of an allocation is the load of its targets. -/
theorem targetBitrate_allocation (outcome : Outcome SourceUnit) :
    outcome.allocation.targetBitrate = load outcome.units (targets outcome.states) := by
  have hsum : outcome.allocation.targetBitrate =
      (outcome.allocation.sources.map (·.bitrate.toNat)).sum := List.foldr_map.symm
  rw [hsum, Outcome.allocation, load, targets, List.map_zipWith, List.zipWith_map_right]
  rfl

/-- **More budget never makes an allocation worse.**  The total target bitrate does not fall, and
neither do the targets in their lexicographic order. -/
theorem allocate_mono (force : Bool) (units : List SourceUnit) {budget₁ budget₂ : Int64}
    (h : budget₁ ≤ budget₂) :
    let outcome₁ := allocate force budget₁ units
    let outcome₂ := allocate force budget₂ units
    outcome₁.allocation.targetBitrate ≤ outcome₂.allocation.targetBitrate ∧
      LexLE (targets outcome₁.states) (targets outcome₂.states) := by
  obtain ⟨states₁, _, h₁⟩ := exists_firstPass force budget₁ units
  obtain ⟨states₂, _, h₂⟩ := exists_firstPass force budget₂ units
  obtain ⟨hlex, hload⟩ := h₁.waterfall.mono h₂.waterfall (Int64.le_iff_toInt_le.mp h)
    budget₂.toInt_lt
  rw [h₁.allocate_eq, h₂.allocate_eq]
  intro outcome₁ outcome₂
  rw [targetBitrate_allocation, targetBitrate_allocation]
  exact ⟨hload, hlex⟩

/-- The first camera moves up, and the second one loses its layer. -/
theorem allocate_mono_two_cameras :
    let units := [twoLayerCamera 100 300 (by decide), twoLayerCamera 100 300 (by decide)]
    let outcome₁ := allocate false 250 units
    let outcome₂ := allocate false 350 units
    (250 : Int64) ≤ 350 ∧ targets outcome₁.states = [some 0, some 0] ∧
      targets outcome₂.states = [some 1, none] ∧
      outcome₁.allocation.targetBitrate ≤ outcome₂.allocation.targetBitrate ∧
      LexLE (targets outcome₁.states) (targets outcome₂.states) := by
  intro units outcome₁ outcome₂
  exact ⟨by decide, by decide, by decide, allocate_mono false units (by decide)⟩

end Downlink
