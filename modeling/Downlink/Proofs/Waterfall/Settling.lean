import Downlink.Proofs.Passes
import Downlink.Proofs.Waterfall.Basic

/-!
# Settling of source units

Passes over source units settle at once: the first pass is the waterfall, and a second one changes
nothing.

The first pass computes with clamped 64-bit words, the waterfall with integers.  The two agree
since a word is the clamped integer throughout, and nothing fits into a negative room, clamped or
not.  The second pass offers every unit what the whole first pass left over, and the unit's own
bitrate: never more than the room the unit had in the first pass.

## Results

* `exists_pass_idle` — a pass over units that hold nothing is a waterfall.
* `Waterfall.pass_eq_self` — a pass over a waterfall changes nothing.
* `allocate_eq_waterfall` — allocating comes to the waterfall, within two passes and without a
  rollback.
-/

set_option autoImplicit false

namespace Downlink

open Allocator LayerSelection

variable {force : Bool} {room : Int} {units : List SourceUnit} {states : List UnitState}

/-! ## Clamped and exact room -/

theorem addClamped_zero (a : Int64) : addClamped a 0 = a := by
  rw [← Int64.toInt_inj, toInt_addClamped]
  have := a.le_toInt
  have := a.toInt_lt
  simp
  omega

/-- Below the upper bound, clamping once is clamping at every step. -/
theorem subClamped_ofIntClamp (hroom : room < 2 ^ 63) {b : Int64} (hb : 0 ≤ b.toInt) :
    subClamped (.ofIntClamp room) b = .ofIntClamp (room - b.toInt) := by
  rw [← Int64.toInt_inj, toInt_subClamped, toInt_ofIntClamp_eq, toInt_ofIntClamp_eq]
  have := b.toInt_lt
  omega

namespace SourceUnit

variable {u : SourceUnit} {s : UnitState}

theorem Share.congr {room' : Int} (hfits : ∀ i, u.Fits room i ↔ u.Fits room' i)
    (h : u.Share force room s) : u.Share force room' s := by
  have hset : {i | u.Fits room i} = {i | u.Fits room' i} := Set.ext hfits
  cases h with
  | fitting hi => exact .fitting (hset ▸ hi)
  | forced hnone hforce hlayers =>
    exact .forced (fun i hi => hnone i ((hfits i).mpr hi)) hforce hlayers
  | nothing hnone h => exact .nothing (fun i hi => hnone i ((hfits i).mpr hi)) h

/-- Nothing fits into a negative room, so the lower clamp takes nothing away. -/
theorem fits_ofIntClamp_iff (hroom : room < 2 ^ 63) (i : Nat) :
    u.Fits (Int64.ofIntClamp room).toInt i ↔ u.Fits room i := by
  rw [toInt_ofIntClamp_eq]
  constructor
  · intro h
    exact ⟨h.useful, by have := h.affordable; omega⟩
  · intro h
    exact ⟨h.useful, by have := h.affordable; omega⟩

theorem isWanting_slot_iff : (⟨u, s⟩ : Slot SourceUnit).isWanting = true ↔ u.IsWanting s.target :=
  decide_eq_true_iff

theorem not_isWanting_of_disabled (h : u.constraints.isDisabled = true) :
    ¬ u.IsWanting s.target := by
  simp [IsWanting, preferredIndex, u.ladder_of_disabled h, rung]

/-- The unit is served its share when it holds nothing. -/
theorem serve_idle (u : SourceUnit) (force : Bool) (hroom : room < 2 ^ 63) :
    ∃ s, u.Share force room s ∧ Slot.serve force (.ofIntClamp room) ⟨u, {}⟩ =
      (⟨u, s⟩, .ofIntClamp (room - (u.bitrate s).toInt)) := by
  refine ⟨u.answer force {} (.ofIntClamp room), ?_, ?_⟩
  · exact (share_answer u force _).congr (fits_ofIntClamp_iff hroom)
  · rw [serve_eq, bitrate_idle, addClamped_zero,
      subClamped_ofIntClamp hroom (u.toInt_bitrate_nonneg _)]

end SourceUnit

/-! ## The first pass -/

theorem zipWith_idle (units : List SourceUnit) :
    List.zipWith Slot.mk units (units.map fun _ => {}) = units.map (⟨·, {}⟩) := by
  rw [List.zipWith_map_right, List.zipWith_self]

/-- **A pass over units that hold nothing is a waterfall.** -/
theorem exists_pass_idle (units : List SourceUnit) : ∀ (force : Bool) (room : Int),
    room < 2 ^ 63 → ∃ states, Waterfall force room units states ∧
      pass force (.ofIntClamp room) (units.map (⟨·, {}⟩)) =
        (List.zipWith Slot.mk units states, .ofIntClamp (room - spending units states)) := by
  induction units with
  | nil =>
    intro force room _
    refine ⟨[], .dry force room, ?_⟩
    rw [show spending [] [] = 0 from rfl, Int.sub_zero]
    rfl
  | cons u units ih =>
    intro force room hroom
    obtain ⟨s, hshare, hserve⟩ := u.serve_idle force hroom
    have hbitrate := u.toInt_bitrate_nonneg s
    obtain ⟨states, hrest, hpass⟩ := ih false (room - (u.bitrate s).toInt) (by omega)
    by_cases hdisabled : u.constraints.isDisabled = true
    · cases hshare.eq_idle_of_disabled hdisabled
      refine ⟨{} :: states, .flow hshare (SourceUnit.not_isWanting_of_disabled hdisabled) hrest, ?_⟩
      rw [SourceUnit.bitrate_idle, Int64.toInt_zero, Int.sub_zero] at hpass
      rw [List.map_cons, pass_cons_suppressed hdisabled, hpass, List.zipWith_cons_cons,
        spending_cons, SourceUnit.bitrate_idle, Int64.toInt_zero, Int.zero_add]
    · rw [List.map_cons, pass_cons_served (Bool.eq_false_of_not_eq_true hdisabled) hserve]
      by_cases hwanting : u.IsWanting s.target
      · refine ⟨s :: units.map fun _ => {}, .cutoff units hshare hwanting, ?_⟩
        rw [if_pos (SourceUnit.isWanting_slot_iff.mpr hwanting), List.zipWith_cons_cons,
          zipWith_idle, spending_cons, spending_idle, Int.add_zero]
      · refine ⟨s :: states, .flow hshare hwanting hrest, ?_⟩
        rw [if_neg (mt SourceUnit.isWanting_slot_iff.mp hwanting), hpass, List.zipWith_cons_cons,
          spending_cons, Int.sub_sub]

/-! ## Later passes -/

/-- The unit keeps its share of a room when it is offered no more than that. -/
theorem SourceUnit.Share.serve_eq_self {u : SourceUnit} {s : UnitState}
    (h : u.Share force room s) (hroom : room < 2 ^ 63) (left : Int64)
    (hleft : left.toInt + (u.bitrate s).toInt ≤ room ∨ left.toInt + (u.bitrate s).toInt < 0) :
    Slot.serve force left ⟨u, s⟩ = (⟨u, s⟩, left) ∧
      (⟨u, s⟩ : Slot SourceUnit).ServedExactly force left := by
  have hbitrate := u.toInt_bitrate_nonneg s
  have hlow := left.le_toInt
  have hgiven : (addClamped left (u.bitrate s)).toInt = left.toInt + (u.bitrate s).toInt := by
    rw [toInt_addClamped]
    omega
  have hserve : Slot.serve force left ⟨u, s⟩ = (⟨u, s⟩, left) := by
    rw [SourceUnit.serve_eq, h.answer_eq_self (by omega)]
    congr 1
    rw [← Int64.toInt_inj, toInt_subClamped, hgiven]
    omega
  refine ⟨hserve, hgiven, ?_⟩
  rw [hserve]
  show left.toInt = left.toInt + (u.bitrate s).toInt - (u.bitrate s).toInt
  omega

/-- **A pass over a waterfall changes nothing**, and clamps nothing, when it starts from no more
than what was left. -/
theorem Waterfall.pass_eq_self (h : Waterfall force room units states) (hroom : room < 2 ^ 63)
    (left : Int64)
    (hleft : left.toInt ≤ room - spending units states ∨ left.toInt = -2 ^ 63) :
    pass force left (List.zipWith Slot.mk units states) =
        (List.zipWith Slot.mk units states, left) ∧
      ExactPass force left (List.zipWith Slot.mk units states) := by
  induction h with
  | dry => exact ⟨rfl, trivial⟩
  | @flow force room u s units states hs hw hrest ih =>
    have hbitrate := u.toInt_bitrate_nonneg s
    have hmax := u.toInt_bitrate s
    have hspending := spending_nonneg units states
    rw [spending_cons] at hleft
    obtain ⟨hpass, hexact⟩ := ih (by omega) (by omega)
    rw [List.zipWith_cons_cons]
    by_cases hdisabled : u.constraints.isDisabled = true
    · rw [pass_cons_suppressed hdisabled, hpass]
      exact ⟨rfl, (exactPass_cons_suppressed hdisabled).mpr hexact⟩
    · obtain ⟨hserve, hserved⟩ := hs.serve_eq_self hroom left (by omega)
      have henabled := Bool.eq_false_of_not_eq_true hdisabled
      rw [pass_cons_served henabled hserve, if_neg (mt SourceUnit.isWanting_slot_iff.mp hw), hpass]
      exact ⟨rfl, (exactPass_cons_served henabled hserve).mpr ⟨hserved, fun _ => hexact⟩⟩
  | @cutoff force room u s units hs hw =>
    have hbitrate := u.toInt_bitrate_nonneg s
    have hmax := u.toInt_bitrate s
    rw [spending_cons, spending_idle] at hleft
    have hdisabled : ¬ u.constraints.isDisabled = true :=
      fun h => SourceUnit.not_isWanting_of_disabled h hw
    have henabled := Bool.eq_false_of_not_eq_true hdisabled
    have hstop := SourceUnit.isWanting_slot_iff.mpr hw
    obtain ⟨hserve, hserved⟩ := hs.serve_eq_self hroom left (by omega)
    rw [List.zipWith_cons_cons, pass_cons_served henabled hserve, if_pos hstop]
    refine ⟨rfl, (exactPass_cons_served henabled hserve).mpr ⟨hserved, fun hgo => ?_⟩⟩
    rw [hstop] at hgo
    cases hgo

/-! ## Settling -/

/-- The progress that the first pass leads to. -/
structure FirstPass (force : Bool) (budget : Int64) (units : List SourceUnit)
    (states : List UnitState) (left : Int64) : Prop where
  waterfall : Waterfall force budget.toInt units states
  left_eq : left = .ofIntClamp (budget.toInt - spending units states)
  advance_eq : (Progress.start budget units).advance force =
    ⟨List.zipWith Slot.mk units states, left, some budget, 1⟩

theorem exists_firstPass (force : Bool) (budget : Int64) (units : List SourceUnit) :
    ∃ states left, FirstPass force budget units states left := by
  obtain ⟨states, hwaterfall, hpass⟩ := exists_pass_idle units force budget.toInt budget.toInt_lt
  rw [Int64.ofIntClamp_toInt] at hpass
  refine ⟨states, _, hwaterfall, rfl, ?_⟩
  rw [Progress.advance, Progress.start, hpass]

theorem map_unit_zipWith (h : states.length = units.length) :
    (List.zipWith Slot.mk units states).map (·.unit) = units := by
  induction units generalizing states with
  | nil => rfl
  | cons u units ih =>
    obtain ⟨s, states, rfl⟩ := List.exists_cons_of_length_eq_add_one h
    rw [List.zipWith_cons_cons, List.map_cons, ih (Nat.succ.inj h)]

theorem map_state_zipWith (h : states.length = units.length) :
    (List.zipWith Slot.mk units states).map (·.state) = states := by
  induction units generalizing states with
  | nil => exact (List.length_eq_zero_iff.mp h).symm
  | cons u units ih =>
    obtain ⟨s, states, rfl⟩ := List.exists_cons_of_length_eq_add_one h
    rw [List.zipWith_cons_cons, List.map_cons, ih (Nat.succ.inj h)]

theorem not_drops_start (force : Bool) (budget : Int64) (units : List SourceUnit) :
    ¬ (Progress.start budget units).Drops force := by
  have hzero : forwardedCount (Progress.start budget units).slots = 0 := by
    simp [forwardedCount, Progress.start, UnitState.isForwarded]
  rw [Progress.Drops, hzero]
  exact Nat.not_lt_zero _

namespace FirstPass

variable {budget left : Int64}

theorem left_le (h : FirstPass force budget units states left) :
    left.toInt ≤ budget.toInt - spending units states ∨ left.toInt = -2 ^ 63 := by
  rw [h.left_eq, toInt_ofIntClamp_eq]
  have := spending_nonneg units states
  have := budget.toInt_lt
  omega

theorem again (h : FirstPass force budget units states left) :
    pass force left (List.zipWith Slot.mk units states) =
        (List.zipWith Slot.mk units states, left) ∧
      ExactPass force left (List.zipWith Slot.mk units states) :=
  h.waterfall.pass_eq_self budget.toInt_lt left h.left_le

/-- **Settling ends after the second pass at the latest.** -/
theorem settle_eq (h : FirstPass force budget units states left) (limit : Nat) :
    settle force (limit + 2) (Progress.start budget units) =
      some ⟨units, states, if left = budget then 1 else 2, false, left⟩ := by
  have hlength := h.waterfall.length_eq
  rw [settle_succ rfl, if_neg (not_drops_start force budget units), h.advance_eq,
    settle_of_pass_eq_self h.again.1, Progress.outcome, map_unit_zipWith hlength,
    map_state_zipWith hlength]
  by_cases hleft : left = budget
  · simp [Progress.isUnsettled, hleft]
  · simp [Progress.isUnsettled, hleft, Ne.symm hleft]

/-- **Allocating comes to the states of the first pass and what it leaves.** -/
theorem allocate_eq (h : FirstPass force budget units states left) :
    allocate force budget units =
      ⟨units, states, if units.isEmpty then 0 else if left = budget then 1 else 2, false,
        left⟩ := by
  unfold allocate allocateWithin
  cases units with
  | nil =>
    cases h.waterfall
    have hleft : left = budget := by rw [h.left_eq]; simp [spending]
    rw [hleft]
    rfl
  | cons u units =>
    exact congrArg (fun outcome => outcome.getD (Progress.start budget (u :: units)).outcome)
      (h.settle_eq 0)

end FirstPass

/-- The units of an outcome are the ones to share among, and each of them has a state. -/
theorem units_allocate (force : Bool) (budget : Int64) (units : List SourceUnit) :
    (allocate force budget units).units = units ∧
      (allocate force budget units).states.length = units.length := by
  obtain ⟨states, left, h⟩ := exists_firstPass force budget units
  rw [h.allocate_eq]
  exact ⟨rfl, h.waterfall.length_eq⟩

/-- **Allocating is one waterfall.**  Whatever the ladders, the budget and the forcing: the states
are the one waterfall that runs down from the budget; they are the states of the first pass, and so
is the remaining budget; settling ends after two passes at most, and none is rolled back. -/
theorem allocate_eq_waterfall (force : Bool) (budget : Int64) (units : List SourceUnit) :
    let outcome := allocate force budget units
    let firstPass := pass force budget (units.map (⟨·, {}⟩))
    (∀ states, Waterfall force budget.toInt units states ↔ states = outcome.states) ∧
      outcome.states = firstPass.1.map (·.state) ∧ outcome.remaining = firstPass.2 ∧
      outcome.passes ≤ 2 ∧ outcome.rolledBack = false ∧
      (units ≠ [] → settle force 2 (Progress.start budget units) = some outcome) := by
  obtain ⟨states, left, h⟩ := exists_firstPass force budget units
  have hpass : pass force budget (units.map (⟨·, {}⟩)) =
      (List.zipWith Slot.mk units states, left) :=
    Prod.ext (congrArg Progress.slots h.advance_eq) (congrArg Progress.remaining h.advance_eq)
  intro outcome firstPass
  rw [show outcome = _ from h.allocate_eq, show firstPass = _ from hpass,
    map_state_zipWith h.waterfall.length_eq]
  refine ⟨?_, rfl, rfl, ?_, rfl, ?_⟩
  · intro states'
    constructor
    · intro h'
      exact h'.unique h.waterfall
    · rintro rfl
      exact h.waterfall
  · show (if units.isEmpty then 0 else if left = budget then 1 else 2) ≤ 2
    split
    · exact Nat.zero_le _
    · split <;> decide
  · intro hne
    rw [h.settle_eq 0, List.isEmpty_eq_false_iff.mpr hne]
    rfl

end Downlink
