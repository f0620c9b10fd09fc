import Downlink.Proofs.Waterfall.Basic

/-!
# Improvement

What a unit makes of the state it is in when it is offered a room, said without the search that
finds it: the greatest layer that fits, if that is no lower than what it sends, and else the same
state.  The state may be any, also one that is forced or that names no layer of the ladder.

What a smaller room led to is forgotten once a greater one is offered, and what a greater room led
to is kept when a smaller one is.  So several offers lead to where the greatest of them leads at
once.

## Results

* `SourceUnit.improved_improve` — this is what a unit does.
* `SourceUnit.Improved.unique` — the rule determines the state.
* `SourceUnit.Improved.le`, `SourceUnit.Improved.mono`, `SourceUnit.Improved.absorb`,
  `SourceUnit.Improved.keep` — the laws of the rule.
* `SourceUnit.improve_absorbs`, `SourceUnit.improve_keeps` — hence those of a unit, for all budgets.
-/

set_option autoImplicit false

namespace Downlink.SourceUnit

variable {u : SourceUnit} {room room' : Int} {s s₁ s₂ : UnitState}

theorem Fits.of_room_le {i : Nat} (h : u.Fits room i) (hroom : room ≤ room') : u.Fits room' i :=
  ⟨h.useful, h.affordable.trans hroom⟩

/-- What a unit in the state `s` makes of a room. -/
inductive Improved (room : Int) (u : SourceUnit) (s : UnitState) : UnitState → Prop
  | moved {index : Nat} : IsGreatest {i | u.Fits room i} index →
      rung s.target ≤ rung (some index) → Improved room u s { target := some index }
  | kept : (∀ i, u.Fits room i → rung (some i) < rung s.target) → Improved room u s s

namespace Improved

/-- **No target is lowered.** -/
theorem le (h : u.Improved room s s₁) : rung s.target ≤ rung s₁.target := by
  cases h with
  | moved _ hle => exact hle
  | kept _ => exact Nat.le_refl _

/-- No layer that fits is above the one sent in the end. -/
theorem le_of_fits (h : u.Improved room s s₁) {i : Nat} (hi : u.Fits room i) :
    rung (some i) ≤ rung s₁.target := by
  cases h with
  | moved hgreatest _ => exact Nat.succ_le_succ (hgreatest.2 hi)
  | kept hbelow => exact Nat.le_of_lt (hbelow i hi)

/-- A new state sends the greatest layer that fits, and does not oversend. -/
theorem eq_of_ne (h : u.Improved room s s₁) (hne : s₁ ≠ s) :
    ∃ i, IsGreatest {i | u.Fits room i} i ∧ s₁ = { target := some i, oversending := false } := by
  cases h with
  | moved hgreatest _ => exact ⟨_, hgreatest, rfl⟩
  | kept _ => exact absurd rfl hne

theorem unique (h₁ : u.Improved room s s₁) (h₂ : u.Improved room s s₂) : s₁ = s₂ := by
  cases h₁ with
  | moved hi hle =>
    cases h₂ with
    | moved hj _ => rw [hi.unique hj]
    | kept hbelow => exact absurd (hbelow _ hi.1) (Nat.not_lt.mpr hle)
  | kept hbelow =>
    cases h₂ with
    | moved hj hle => exact absurd (hbelow _ hj.1) (Nat.not_lt.mpr hle)
    | kept _ => rfl

/-- **The greater room leads to the greater target.** -/
theorem mono (hroom : room ≤ room') (h₁ : u.Improved room s s₁) (h₂ : u.Improved room' s s₂) :
    rung s₁.target ≤ rung s₂.target := by
  cases h₁ with
  | moved hi _ => exact h₂.le_of_fits (hi.1.of_room_le hroom)
  | kept _ => exact h₂.le

/-- **What a smaller room led to is forgotten.** -/
theorem absorb (hroom : room ≤ room') (h₁ : u.Improved room s s₁) (h₂ : u.Improved room' s₁ s₂) :
    u.Improved room' s s₂ := by
  cases h₁ with
  | moved hi hle =>
    cases h₂ with
    | moved hj hij => exact .moved hj (hle.trans hij)
    | kept hbelow => exact absurd (hbelow _ (hi.1.of_room_le hroom)) (Nat.lt_irrefl _)
  | kept _ => exact h₂

/-- **What a greater room led to is kept.** -/
theorem keep (hroom : room ≤ room') (h₁ : u.Improved room' s s₁) (h₂ : u.Improved room s₁ s₂) :
    s₂ = s₁ := by
  cases h₂ with
  | moved hj hij =>
    have hfits := hj.1.of_room_le hroom
    cases h₁ with
    | moved hi _ => rw [Nat.le_antisymm (hi.2 hfits) (Nat.le_of_succ_le_succ hij)]
    | kept hbelow => exact absurd (hbelow _ hfits) (Nat.not_lt.mpr hij)
  | kept _ => rfl

end Improved

/-- **A unit follows the rule.** -/
theorem improved_improve (u : SourceUnit) (s : UnitState) (budget : Int64) :
    u.Improved budget.toInt s (u.improve s budget) := by
  unfold improve
  cases hfound : u.ladder.bind (·.affordable? budget) with
  | none => exact .kept fun i hi => absurd hi (affordable?_eq_none_iff.mp hfound i)
  | some i =>
    have hgreatest := affordable?_eq_some_iff.mp hfound
    dsimp only
    split
    · rename_i hlt
      exact .kept fun j hj => (Nat.succ_le_succ (hgreatest.2 hj)).trans_lt hlt
    · rename_i hle
      exact .moved hgreatest (Nat.not_lt.mp hle)

/-- A smaller budget changes nothing afterwards. -/
theorem improve_keeps (u : SourceUnit) (s : UnitState) {b₁ b₂ : Int64} (h : b₁ ≤ b₂) :
    u.improve (u.improve s b₂) b₁ = u.improve s b₂ :=
  (improved_improve u s b₂).keep (Int64.le_iff_toInt_le.mp h) (improved_improve u _ b₁)

/-- **Improving absorbs.**  Whatever the state: the target is never lowered, what a smaller budget
led to is forgotten when a greater one is offered, and the greater budget leads to the greater
target.  A state that is changed sends the greatest layer within the budget, no higher than ideal,
and does not oversend. -/
theorem improve_absorbs (u : SourceUnit) (s : UnitState) {b₁ b₂ : Int64} (h : b₁ ≤ b₂) :
    rung s.target ≤ rung (u.improve s b₁).target ∧
      u.improve (u.improve s b₁) b₂ = u.improve s b₂ ∧
      (u.improve s b₁ ≠ s → ∃ i, IsGreatest {i | u.Fits b₁.toInt i} i ∧
        u.improve s b₁ = { target := some i, oversending := false }) ∧
      rung (u.improve s b₁).target ≤ rung (u.improve s b₂).target := by
  have hroom := Int64.le_iff_toInt_le.mp h
  have hsmaller := improved_improve u s b₁
  have hgreater := improved_improve u s b₂
  have hagain := improved_improve u (u.improve s b₁) b₂
  exact ⟨hsmaller.le, (hsmaller.absorb hroom hagain).unique hgreater, hsmaller.eq_of_ne,
    hsmaller.mono hroom hgreater⟩

/-- A camera that is forced stays so until its lowest layer fits, and then takes the higher one as
if it had never been forced. -/
theorem improve_absorbs_forced :
    let camera := twoLayerCamera 100 300 (by decide)
    let forced : UnitState := { target := some 0, oversending := true }
    (150 : Int64) ≤ 400 ∧ camera.improve forced 50 = forced ∧
      camera.improve forced 150 = { target := some 0 } ∧
      (∃ i, IsGreatest {i | camera.Fits 150 i} i ∧ camera.improve forced 150 = ⟨some i, false⟩) ∧
      camera.improve forced 400 = { target := some 1 } ∧
      camera.improve (camera.improve forced 150) 400 = camera.improve forced 400 := by
  intro camera forced
  have hle : (150 : Int64) ≤ 400 := by decide
  obtain ⟨_, habsorbed, hchanged, _⟩ := improve_absorbs camera forced hle
  have hfreed : camera.improve forced 150 = { target := some 0 } := by decide
  have hne : camera.improve forced 150 ≠ forced := by decide
  exact ⟨hle, by decide, hfreed, hchanged hne, by decide, habsorbed⟩

/-- A target above the ladder is kept, whatever the budget. -/
example :
    let camera := twoLayerCamera 100 300 (by decide)
    camera.improve ⟨some 7, true⟩ Int64.maxValue = ⟨some 7, true⟩ := by
  decide

end Downlink.SourceUnit
