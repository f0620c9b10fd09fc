import Downlink.Allocator.SourceUnit
import Downlink.Proofs.Passes

/-!
# The share of one unit

What one unit takes out of a room of so many bits per second, said without the search that finds it:
the greatest layer that fits, or the lowest one if the unit is forced, or nothing.

## Results

* `SourceUnit.share_answer` — a unit that holds nothing answers an offer with its share of it.
* `SourceUnit.Share.answer_eq_self` — a unit that holds its share keeps it against every smaller
  offer.  This is what makes a second pass change nothing.
* `SourceUnit.Share.unique` — there is one share.
-/

set_option autoImplicit false

namespace Downlink

namespace SourceUnit

variable {u : SourceUnit} {force : Bool} {room : Int} {index : Nat} {s : UnitState}

/-! ## Layers that fit -/

/-- The layer at `index` is no higher than the ideal one and costs no more than `room`. -/
structure Fits (u : SourceUnit) (room : Int) (index : Nat) : Prop where
  useful : rung (some index) ≤ rung u.idealIndex
  affordable : ((u.layerBitrate (some index)).toNat : Int) ≤ room

theorem Fits.room_nonneg (h : u.Fits room index) : 0 ≤ room := by
  have := h.affordable
  omega

theorem Fits.layers_ne_nil (h : u.Fits room index) : u.layers ≠ [] := by
  intro hempty
  have huseful := h.useful
  simp [idealIndex_eq_none_iff.mpr hempty, rung] at huseful

theorem fits_iff : u.Fits room index ↔ ∃ ladder, u.ladder = some ladder ∧
    ∃ layer, ladder.useful[index]? = some layer ∧ (layer.bitrate.toNat : Int) ≤ room := by
  cases hladder : u.ladder with
  | none =>
    constructor
    · intro h
      have := h.useful
      simp [idealIndex, hladder, rung] at this
    · rintro ⟨_, h, _⟩
      cases h
  | some ladder =>
    have hlt := ladder.ideal_lt
    constructor
    · rintro ⟨huseful, haffordable⟩
      simp only [idealIndex, hladder, Option.map_some, rung] at huseful
      have hi : index < ladder.layers.length := by omega
      refine ⟨ladder, rfl, ladder.layers[index], ?_, ?_⟩
      · rw [Ladder.useful, List.getElem?_take_of_lt (by omega), List.getElem?_eq_getElem hi]
      · simpa [layerBitrate, layer?, layers, hladder, hi] using haffordable
    · rintro ⟨_, ⟨⟩, layer, hlayer, haffordable⟩
      rw [Ladder.useful, List.getElem?_take] at hlayer
      split at hlayer
      · rename_i hi
        refine ⟨?_, ?_⟩
        · simp only [idealIndex, hladder, Option.map_some, rung]; omega
        · simpa [layerBitrate, layer?, layers, hladder, hlayer] using haffordable
      · cases hlayer

theorem layerBitrate_mono {i j : Nat} (hij : i ≤ j) (hj : rung (some j) ≤ rung u.idealIndex) :
    u.layerBitrate (some i) ≤ u.layerBitrate (some j) := by
  cases hladder : u.ladder with
  | none => simp [layerBitrate, layer?, layers, hladder]
  | some ladder =>
    simp only [idealIndex, hladder, Option.map_some, rung] at hj
    have hlt := ladder.ideal_lt
    have hjl : j < ladder.layers.length := by omega
    have hil : i < ladder.layers.length := by omega
    simp only [layerBitrate, layer?, layers, hladder, Option.map_some, Option.getD_some,
      Option.bind_some, List.getElem?_eq_getElem hil, List.getElem?_eq_getElem hjl]
    rcases Nat.lt_or_eq_of_le hij with hlt' | rfl
    · exact List.pairwise_iff_getElem.mp ladder.ascending i j hil hjl hlt'
    · exact UInt64.le_refl _

/-- Below a layer that fits, every layer fits. -/
theorem Fits.of_le (h : u.Fits room index) {i : Nat} (hi : i ≤ index) : u.Fits room i := by
  have huseful := h.useful
  have haffordable := h.affordable
  have hle := UInt64.le_iff_toNat_le.mp (layerBitrate_mono hi huseful)
  exact ⟨by simp only [rung] at *; omega, by omega⟩

/-- A layer that fits into one room and not into another costs more than the other has. -/
theorem Fits.lt_of_not_fits (h : u.Fits room index) {room' : Int} (h' : ¬ u.Fits room' index) :
    room' < (u.layerBitrate (some index)).toNat :=
  Int.lt_of_not_ge fun hle => h' ⟨h.useful, hle⟩

theorem rung_zero_le (h : u.layers ≠ []) : rung (some 0) ≤ rung u.idealIndex := by
  cases hladder : u.ladder with
  | none => simp [layers, hladder] at h
  | some ladder => simp [idealIndex, hladder, rung]

/-- Of a ladder, the lowest layer is the first to fit. -/
theorem fits_zero_iff (h : u.layers ≠ []) :
    u.Fits room 0 ↔ ((u.layerBitrate (some 0)).toNat : Int) ≤ room :=
  ⟨Fits.affordable, fun haffordable => ⟨rung_zero_le h, haffordable⟩⟩

/-- The last affordable layer is the greatest one that fits. -/
theorem affordable?_eq_some_iff {budget : Int64} :
    u.ladder.bind (·.affordable? budget) = some index ↔
      IsGreatest {i | u.Fits budget.toInt i} index := by
  cases hladder : u.ladder with
  | none => simp [IsGreatest, fits_iff, hladder]
  | some ladder =>
    simp only [Option.bind_some, Ladder.affordable?, lastIndex?_eq_some_iff, IsGreatest,
      upperBounds, Set.mem_ofPred_eq, fits_iff, hladder, Option.some.injEq, exists_eq_left',
      decide_eq_true_eq]
    constructor
    · rintro ⟨hfits, hlast⟩
      refine ⟨hfits, ?_⟩
      rintro j ⟨layer, hlayer, hle⟩
      exact hlast j layer hlayer hle
    · rintro ⟨hfits, hlast⟩
      refine ⟨hfits, ?_⟩
      intro j layer hlayer hle
      exact hlast ⟨layer, hlayer, hle⟩

theorem affordable?_eq_none_iff {budget : Int64} :
    u.ladder.bind (·.affordable? budget) = none ↔ ∀ i, ¬ u.Fits budget.toInt i := by
  cases hladder : u.ladder with
  | none => simp [fits_iff, hladder]
  | some ladder =>
    simp only [Option.bind_some, Ladder.affordable?, lastIndex?_eq_none_iff, fits_iff, hladder,
      Option.some.injEq, exists_eq_left', decide_eq_false_iff_not]
    constructor
    · rintro hnone i ⟨layer, hlayer, hle⟩
      exact hnone layer (List.mem_of_getElem? hlayer) hle
    · intro hnone layer hmem hle
      obtain ⟨i, hi⟩ := List.getElem?_of_mem hmem
      exact hnone i ⟨layer, hi, hle⟩

/-! ## Bitrates -/

theorem toInt_bitrate (u : SourceUnit) (s : UnitState) :
    (u.bitrate s).toInt = min ((u.layerBitrate s.target).toNat : Int) (2 ^ 63 - 1) := by
  rw [bitrate, toInt_ofIntClamp_eq]
  omega

theorem toInt_bitrate_nonneg (u : SourceUnit) (s : UnitState) : 0 ≤ (u.bitrate s).toInt := by
  rw [toInt_bitrate]
  omega

theorem toInt_bitrate_le (u : SourceUnit) (s : UnitState) :
    (u.bitrate s).toInt ≤ (u.layerBitrate s.target).toNat := by
  rw [toInt_bitrate]
  omega

@[simp] theorem layerBitrate_none (u : SourceUnit) : u.layerBitrate none = 0 := rfl

@[simp] theorem bitrate_idle (u : SourceUnit) : u.bitrate {} = 0 := rfl

/-- A layer that fits into a signed 64-bit room is accounted for in full. -/
theorem Fits.toInt_bitrate (h : u.Fits room index) (hroom : room < 2 ^ 63)
    (hs : s.target = some index) : (u.bitrate s).toInt = (u.layerBitrate s.target).toNat := by
  have := h.affordable
  rw [SourceUnit.toInt_bitrate, hs]
  omega

/-! ## Shares -/

/-- What a unit gets out of a room; `force` is on for the unit that may be forced. -/
inductive Share (force : Bool) (room : Int) (u : SourceUnit) : UnitState → Prop
  | fitting {index : Nat} : IsGreatest {i | u.Fits room i} index →
      Share force room u { target := some index }
  | forced : (∀ i, ¬ u.Fits room i) → force = true → u.layers ≠ [] →
      Share force room u { target := some 0, oversending := true }
  | nothing : (∀ i, ¬ u.Fits room i) → ¬ (force = true ∧ u.layers ≠ []) → Share force room u {}

theorem Share.unique {s₁ s₂ : UnitState} (h₁ : u.Share force room s₁)
    (h₂ : u.Share force room s₂) : s₁ = s₂ := by
  cases h₁ with
  | fitting hi =>
    cases h₂ with
    | fitting hj => rw [hi.unique hj]
    | forced hnone _ _ => exact absurd hi.1 (hnone _)
    | nothing hnone _ => exact absurd hi.1 (hnone _)
  | forced hnone hforce hlayers =>
    cases h₂ with
    | fitting hj => exact absurd hj.1 (hnone _)
    | forced _ _ _ => rfl
    | nothing _ hfree => exact absurd ⟨hforce, hlayers⟩ hfree
  | nothing hnone hfree =>
    cases h₂ with
    | fitting hj => exact absurd hj.1 (hnone _)
    | forced _ hforce hlayers => exact absurd ⟨hforce, hlayers⟩ hfree
    | nothing _ _ => rfl

/-- A unit without layers has nothing for its share. -/
theorem share_of_layers_eq_nil (h : u.layers = []) : u.Share force room {} :=
  .nothing (fun _ hi => hi.layers_ne_nil h) (fun hforced => hforced.2 h)

theorem Share.eq_idle_of_disabled (h : u.Share force room s)
    (hdisabled : u.constraints.isDisabled = true) : s = {} := by
  have hempty : u.layers = [] := layers_eq_nil_iff.mpr (u.ladder_of_disabled hdisabled)
  exact h.unique (share_of_layers_eq_nil hempty)

/-- The share of a unit that is not forced costs no more than the room. -/
theorem Share.layerBitrate_le (h : u.Share false room s) :
    ((u.layerBitrate s.target).toNat : Int) ≤ max 0 room := by
  cases h with
  | fitting hi => exact Int.le_trans hi.1.affordable (Int.le_max_right 0 room)
  | forced _ hforce _ => cases hforce
  | nothing _ _ => exact Int.le_max_left 0 room

theorem Share.not_oversending (h : u.Share false room s) : s.oversending = false := by
  cases h with
  | fitting _ => rfl
  | forced _ hforce _ => cases hforce
  | nothing _ _ => rfl

/-- A unit that may be forced and has a ladder is forwarded. -/
theorem Share.isForwarded (h : u.Share true room s) (hlayers : u.layers ≠ []) :
    s.isForwarded = true := by
  cases h with
  | fitting _ => rfl
  | forced _ _ _ => rfl
  | nothing _ hfree => exact absurd ⟨rfl, hlayers⟩ hfree

theorem Share.useful (h : u.Share force room s) : rung s.target ≤ rung u.idealIndex := by
  cases h with
  | fitting hi => exact hi.1.useful
  | forced _ _ hlayers => exact rung_zero_le hlayers
  | nothing _ _ => exact Nat.zero_le _

/-- A share that is not forced is accounted for in full, and lies within a room that is not
negative. -/
theorem Share.toInt_bitrate_eq (h : u.Share force room s) (hroom : room < 2 ^ 63)
    (hfree : s.oversending = false) :
    (u.bitrate s).toInt = (u.layerBitrate s.target).toNat ∧ (u.bitrate s).toInt ≤ max 0 room := by
  cases h with
  | @fitting i hi =>
    have heq : (u.bitrate { target := some i }).toInt = (u.layerBitrate (some i)).toNat :=
      hi.1.toInt_bitrate hroom rfl
    have hle := hi.1.affordable
    exact ⟨heq, by rw [heq]; exact Int.le_trans hle (Int.le_max_right 0 room)⟩
  | forced _ _ _ => cases hfree
  | nothing _ _ => exact ⟨rfl, Int.le_max_left 0 room⟩

/-- A target that fits is below the share, or it is the share. -/
theorem Share.lt_or_eq (h : u.Share force room s) (hroom : room < 2 ^ 63) {t : Option Nat}
    (huseful : rung t ≤ rung u.idealIndex) (haffordable : ((u.layerBitrate t).toNat : Int) ≤ room) :
    rung t < rung s.target ∨
      t = s.target ∧ (u.bitrate s).toInt = (u.layerBitrate t).toNat := by
  cases t with
  | none =>
    cases h with
    | fitting _ => exact .inl (Nat.succ_pos _)
    | forced _ _ _ => exact .inl (Nat.succ_pos _)
    | nothing _ _ => exact .inr ⟨rfl, rfl⟩
  | some j =>
    have hfits : u.Fits room j := ⟨huseful, haffordable⟩
    cases h with
    | fitting hi =>
      rcases Nat.lt_or_eq_of_le (hi.2 hfits) with hlt | rfl
      · exact .inl (Nat.succ_lt_succ hlt)
      · exact .inr ⟨rfl, hfits.toInt_bitrate hroom rfl⟩
    | forced hnone _ _ => exact absurd hfits (hnone j)
    | nothing hnone _ => exact absurd hfits (hnone j)

/-- A target below the unit's preferred layer. -/
def IsWanting (u : SourceUnit) (target : Option Nat) : Prop := rung target < rung u.preferredIndex

/-! ## Answering an offer -/

theorem forceLowest_eq_none_iff : u.forceLowest = none ↔ u.layers = [] := by
  rw [forceLowest, Option.map_eq_none_iff, layers_eq_nil_iff]

theorem forceLowest_of_layers_ne_nil (h : u.layers ≠ []) :
    u.forceLowest = some { target := some 0, oversending := true } := by
  cases hladder : u.ladder with
  | none => simp [layers, hladder] at h
  | some ladder => simp [forceLowest, hladder]

/-- The state that the unit comes to when it is offered a budget. -/
def answer (u : SourceUnit) (force : Bool) (s : UnitState) (budget : Int64) : UnitState :=
  let chosen := u.improve s budget
  ((⟨u, chosen⟩ : Slot SourceUnit).forced? force).getD chosen

/-- Serving a unit offers it the remaining budget and the bitrate it holds. -/
theorem serve_eq (force : Bool) (remaining : Int64) (u : SourceUnit) (s : UnitState) :
    Slot.serve force remaining ⟨u, s⟩ =
      (⟨u, u.answer force s (addClamped remaining (u.bitrate s))⟩,
        subClamped (addClamped remaining (u.bitrate s))
          (u.bitrate (u.answer force s (addClamped remaining (u.bitrate s))))) := rfl

theorem improve_idle (u : SourceUnit) (budget : Int64) :
    u.improve {} budget = { target := u.ladder.bind (·.affordable? budget) } := by
  unfold improve
  cases u.ladder.bind (·.affordable? budget) <;> simp [rung]

theorem answer_of_improve_forwarded {budget : Int64} (h : (u.improve s budget).isForwarded = true) :
    u.answer force s budget = u.improve s budget := by
  simp [answer, Slot.forced?, h]

theorem answer_of_improve_idle {budget : Int64} (h : u.improve s budget = {}) :
    u.answer force s budget = if force then u.forceLowest.getD {} else {} := by
  unfold answer Slot.forced?
  rw [h]
  cases force <;> rfl

/-- **A unit that holds nothing answers an offer with its share of it.** -/
theorem share_answer (u : SourceUnit) (force : Bool) (budget : Int64) :
    u.Share force budget.toInt (u.answer force {} budget) := by
  have himprove := improve_idle u budget
  cases hfound : u.ladder.bind (·.affordable? budget) with
  | some i =>
    rw [hfound] at himprove
    rw [answer_of_improve_forwarded (by rw [himprove]; rfl), himprove]
    exact .fitting (affordable?_eq_some_iff.mp hfound)
  | none =>
    rw [hfound] at himprove
    rw [answer_of_improve_idle himprove]
    have hnone := affordable?_eq_none_iff.mp hfound
    cases force with
    | false => exact .nothing hnone fun hforced => nomatch hforced.1
    | true =>
      by_cases hlayers : u.layers = []
      · rw [if_pos rfl, forceLowest_eq_none_iff.mpr hlayers]
        exact .nothing hnone fun hforced => hforced.2 hlayers
      · rw [if_pos rfl, forceLowest_of_layers_ne_nil hlayers]
        exact .forced hnone rfl hlayers

theorem improve_eq_self_of_not_fits {budget : Int64} (h : ∀ i, ¬ u.Fits budget.toInt i)
    (s : UnitState) : u.improve s budget = s := by
  unfold improve
  rw [affordable?_eq_none_iff.mpr h]

theorem improve_eq_self_of_le {budget : Int64} (h : ∀ i, u.Fits budget.toInt i → i ≤ index) :
    u.improve { target := some index } budget = { target := some index } := by
  unfold improve
  cases hfound : u.ladder.bind (·.affordable? budget) with
  | none => rfl
  | some i =>
    have hle := h i (affordable?_eq_some_iff.mp hfound).1
    rcases Nat.lt_or_eq_of_le hle with hlt | rfl
    · simp [rung, hlt]
    · simp

/-- **A unit that holds its share keeps it against every smaller offer.** -/
theorem Share.answer_eq_self {budget : Int64} (h : u.Share force room s)
    (hbudget : budget.toInt ≤ room ∨ budget.toInt < 0) : u.answer force s budget = s := by
  have hfits : ∀ i, u.Fits budget.toInt i → u.Fits room i := by
    intro i hi
    have := hi.room_nonneg
    exact ⟨hi.useful, by have := hi.affordable; omega⟩
  cases h with
  | fitting hi =>
    have hkeep := improve_eq_self_of_le fun j hj => hi.2 (hfits j hj)
    rw [answer_of_improve_forwarded (by rw [hkeep]; rfl), hkeep]
  | forced hnone _ _ =>
    have hkeep := improve_eq_self_of_not_fits (fun i hi => hnone i (hfits i hi))
      { target := some 0, oversending := true }
    rw [answer_of_improve_forwarded (by rw [hkeep]; rfl), hkeep]
  | nothing hnone hfree =>
    rw [answer_of_improve_idle (improve_eq_self_of_not_fits (fun i hi => hnone i (hfits i hi)) {})]
    cases force with
    | false => rfl
    | true =>
      have hlayers : u.layers = [] := by
        by_contra hne
        exact hfree ⟨rfl, hne⟩
      rw [forceLowest_eq_none_iff.mpr hlayers]
      rfl

end SourceUnit

end Downlink
