import Downlink.Proofs.Waterfall.Settling

/-!
# Accounting

Every bit of a budget that is not negative is accounted for: what remains is the budget less the
bitrates of the states, and no sum or difference on the way is clamped.  The budget is overdrawn by
the head of the list alone, where it is forced although not even its lowest layer fits.

## Results

* `FirstPass.exact` — no pass of the run clamps anything.
* `Waterfall.forced_or_within` — the head is forced and the others send nothing, or the states cost
  no more than the budget.
* `allocate_accounts` — the account of an allocation.
-/

set_option autoImplicit false

namespace Downlink

open Allocator LayerSelection

variable {force : Bool} {room : Int} {units : List SourceUnit} {states : List UnitState}

/-! ## Passes that clamp nothing -/

/-- Taking a share out of a room stays above the lower bound, unless the unit is forced although the
room is negative. -/
theorem SourceUnit.Share.neg_two_pow_le {u : SourceUnit} {s : UnitState} (h : u.Share force room s)
    (hroom : -2 ^ 63 ≤ room) (hforced : force = true → 0 ≤ room) :
    -2 ^ 63 ≤ room - (u.bitrate s).toInt := by
  have hmax := u.toInt_bitrate s
  cases h with
  | @fitting i hi =>
    have hfits := hi.1.affordable
    have hle : (u.bitrate { target := some i }).toInt ≤ (u.layerBitrate (some i)).toNat :=
      u.toInt_bitrate_le _
    have hnonneg := hi.1.room_nonneg
    omega
  | forced _ hforce _ =>
    have hnonneg := hforced hforce
    omega
  | nothing _ _ =>
    rw [SourceUnit.bitrate_idle, Int64.toInt_zero]
    omega

theorem exactPass_idle (units : List SourceUnit) : ∀ (force : Bool) (room : Int), room < 2 ^ 63 →
    -2 ^ 63 ≤ room → (force = true → 0 ≤ room) →
    ExactPass force (.ofIntClamp room) (units.map (⟨·, {}⟩)) := by
  induction units with
  | nil => exact fun _ _ _ _ _ => trivial
  | cons u units ih =>
    intro force room hlt hle hforced
    rw [List.map_cons]
    by_cases hdisabled : u.constraints.isDisabled = true
    · rw [exactPass_cons_suppressed hdisabled]
      exact ih false room hlt hle (fun h => nomatch h)
    · obtain ⟨s, hshare, hserve⟩ := u.serve_idle force hlt
      have hlow := hshare.neg_two_pow_le hle hforced
      have hbitrate := u.toInt_bitrate_nonneg s
      rw [exactPass_cons_served (Bool.eq_false_of_not_eq_true hdisabled) hserve]
      refine ⟨⟨?_, ?_⟩, fun _ => ih false _ (by omega) hlow (fun h => nomatch h)⟩
      · show (addClamped (.ofIntClamp room) 0).toInt = (Int64.ofIntClamp room).toInt + 0
        rw [addClamped_zero, Int.add_zero]
      · rw [hserve]
        show (Int64.ofIntClamp (room - (u.bitrate s).toInt)).toInt =
          (Int64.ofIntClamp room).toInt + 0 - (u.bitrate s).toInt
        rw [toInt_ofIntClamp_eq, toInt_ofIntClamp_eq]
        omega

namespace FirstPass

variable {budget left : Int64}

/-- Settling comes through the start and the progress of the first pass, however often. -/
theorem reached (h : FirstPass force budget units states left) {p : Progress SourceUnit}
    (hp : Progress.Reached force (Progress.start budget units) p) :
    p = Progress.start budget units ∨
      p.slots = List.zipWith Slot.mk units states ∧ p.remaining = left := by
  induction hp with
  | start => exact .inl rfl
  | @advance p _ _ _ ih =>
    right
    rcases ih with rfl | ⟨hslots, hremaining⟩
    · rw [h.advance_eq]
      exact ⟨rfl, rfl⟩
    · rw [Progress.advance, hslots, hremaining, h.again.1]
      exact ⟨rfl, rfl⟩

/-- **No pass of the run clamps anything.** -/
theorem exact (h : FirstPass force budget units states left) (hbudget : 0 ≤ budget.toInt)
    {p : Progress SourceUnit} (hp : Progress.Reached force (Progress.start budget units) p) :
    ExactPass force p.remaining p.slots := by
  rcases h.reached hp with rfl | ⟨hslots, hremaining⟩
  · have := exactPass_idle units force budget.toInt budget.toInt_lt (by omega) fun _ => hbudget
    rwa [Int64.ofIntClamp_toInt] at this
  · rw [hslots, hremaining]
    exact h.again.2

end FirstPass

/-! ## Within the budget, or forced -/

/-- Forcing is on, and not even the lowest layer of the head's ladder fits. -/
def ForcesHead (force : Bool) (room : Int) (units : List SourceUnit) : Prop :=
  force = true ∧ ∃ u ∈ units.head?, u.layers ≠ [] ∧ room < (u.layerBitrate (some 0)).toNat

/-- The head is sent its lowest layer although it does not fit, and nobody else sends a bit. -/
def OnlyHeadOversends (units : List SourceUnit) (states : List UnitState) : Prop :=
  ∃ rest, states = { target := some 0, oversending := true } :: rest ∧
    (∀ s ∈ rest, s.oversending = false) ∧
    ∀ p ∈ units.tail.zip (targets rest), p.1.layerBitrate p.2 = 0

theorem Waterfall.forced_or_within (h : Waterfall force room units states) (hnonneg : 0 ≤ room)
    (hroom : room < 2 ^ 63) :
    (¬ ForcesHead force room units ∧ (∀ s ∈ states, s.oversending = false) ∧
        spending units states ≤ room) ∨
      (ForcesHead force room units ∧ OnlyHeadOversends units states ∧
        spending units states < 2 ^ 63) := by
  cases units with
  | nil =>
    cases h
    exact .inl ⟨by simp [ForcesHead], by simp, hnonneg⟩
  | cons u units =>
    obtain ⟨s, rest, rfl, hshare, hload, hrest, _⟩ := h.exists_cons hroom
    have hspending := spending_le_load units rest
    have hmax := u.toInt_bitrate s
    rw [spending_cons, List.forall_mem_cons]
    cases hshare with
    | @fitting i hi =>
      left
      have hfits := hi.1.affordable
      have hlowest := (hi.1.of_le (Nat.zero_le i)).affordable
      have hle : (u.bitrate { target := some i }).toInt ≤ (u.layerBitrate (some i)).toNat :=
        u.toInt_bitrate_le _
      refine ⟨?_, ⟨rfl, hrest⟩, by omega⟩
      rintro ⟨_, v, hv, _, hlt⟩
      cases hv
      omega
    | forced hnone hforce hlayers =>
      right
      have hlt : room < (u.layerBitrate (some 0)).toNat :=
        Int.lt_of_not_ge (mt (SourceUnit.fits_zero_iff hlayers).mpr (hnone 0))
      have hmax' : (u.bitrate ⟨some 0, true⟩).toInt =
          min ((u.layerBitrate (some 0)).toNat : Int) (2 ^ 63 - 1) := hmax
      have hzero : load units (targets rest) = 0 := by omega
      refine ⟨⟨hforce, u, rfl, hlayers, hlt⟩, ⟨rest, rfl, hrest, load_eq_zero_iff.mp hzero⟩, ?_⟩
      omega
    | nothing hnone hfree =>
      left
      rw [SourceUnit.bitrate_idle, Int64.toInt_zero] at hload ⊢
      refine ⟨?_, ⟨rfl, hrest⟩, by omega⟩
      rintro ⟨hforce, v, hv, hlayers, _⟩
      cases hv
      exact hfree ⟨hforce, hlayers⟩

/-- **Every bit is accounted for.**  Of a budget that is not negative there remains exactly what the
states do not spend, and no pass clamps a sum or a difference.  Either nobody is oversending and the
states cost no more than the budget, or the head alone is: it is forced onto its lowest layer, which
costs more than the budget, and nobody else sends a bit.  So a head with a ladder is always
forwarded where forcing is on. -/
theorem allocate_accounts (force : Bool) (units : List SourceUnit) (budget : Int64)
    (hbudget : 0 ≤ budget) :
    let outcome := allocate force budget units
    (∀ p, Progress.Reached force (Progress.start budget units) p →
        ExactPass force p.remaining p.slots) ∧
      outcome.remaining.toInt = budget.toInt - spending units outcome.states ∧
      ((¬ ForcesHead force budget.toInt units ∧ (∀ s ∈ outcome.states, s.oversending = false) ∧
          spending units outcome.states ≤ budget.toInt) ∨
        (ForcesHead force budget.toInt units ∧ OnlyHeadOversends units outcome.states)) ∧
      (force = true → ∀ u ∈ units.head?, u.layers ≠ [] →
        ∃ s ∈ outcome.states.head?, s.isForwarded = true) := by
  obtain ⟨states, left, h⟩ := exists_firstPass force budget units
  have hnonneg : 0 ≤ budget.toInt := by simpa [Int64.le_iff_toInt_le] using hbudget
  have hcases := h.waterfall.forced_or_within hnonneg budget.toInt_lt
  intro outcome
  rw [show outcome = _ from h.allocate_eq]
  refine ⟨fun p hp => h.exact hnonneg hp, ?_, ?_, ?_⟩
  · show left.toInt = budget.toInt - spending units states
    have hspent := spending_nonneg units states
    have hlt := budget.toInt_lt
    rw [h.left_eq, toInt_ofIntClamp_eq]
    omega
  · rcases hcases with hwithin | ⟨hforces, hhead, _⟩
    · exact .inl hwithin
    · exact .inr ⟨hforces, hhead⟩
  · rintro rfl u hu hlayers
    cases units with
    | nil => cases hu
    | cons v units =>
      cases hu
      obtain ⟨s, rest, rfl, hshare, _⟩ := h.waterfall.exists_cons budget.toInt_lt
      exact ⟨s, rfl, hshare.isForwarded hlayers⟩

/-- The head costs more than the greatest budget, and is accounted for by as much as a word holds;
what costs nothing is still sent behind it. -/
theorem allocate_accounts_forced :
    let high := 9223372036854775808
    let units := [twoLayerCamera high high (by decide), twoLayerCamera 0 100 (by decide)]
    let outcome := allocate true Int64.maxValue units
    0 ≤ Int64.maxValue ∧ targets outcome.states = [some 0, some 0] ∧ outcome.remaining = 0 ∧
      outcome.remaining.toInt = Int64.maxValue.toInt - spending units outcome.states ∧
      OnlyHeadOversends units outcome.states := by
  intro high units outcome
  obtain ⟨_, hremaining, hcases, _⟩ := allocate_accounts true units Int64.maxValue (by decide)
  refine ⟨by decide, by decide, by decide, hremaining, ?_⟩
  rcases hcases with ⟨_, hfree, _⟩ | ⟨_, honly⟩
  · exact absurd hfree (by decide)
  · exact honly

end Downlink
