import Downlink.Allocator.Scripted
import Downlink.Proofs.Passes

/-!
# Rollbacks

Units may choose what they like from pass to pass: they may lower a target, drop it, or follow a
script whatever the budget.  Whenever settling ends, it has kept passes that forward more and more
units, and at most one pass more was run, which forwarded fewer and was discarded.  Along the passes
kept, whatever is taken out of the budget is held by some unit, also where a pass stops midway.

## Results

* `Allocator.exists_kept_of_settle` — settling is some passes kept, and then perhaps one discarded.
* `Allocator.pass_balanced` — what a pass leaves, and what the units hold after it.
* `Allocator.allocateWithin_steady` — what comes of an allocation, for units of any kind.
-/

set_option autoImplicit false

namespace Downlink.Allocator

universe u

open LayerSelection

variable {υ : Type u} [LayerSelection υ] {force : Bool} {limit : Nat} {p : Progress υ}
  {o : Outcome υ}

/-! ## Passes kept -/

/-- Where so many passes lead if each is kept. -/
def Progress.after (force : Bool) (p : Progress υ) (k : Nat) : Progress υ :=
  (Progress.advance force)^[k] p

theorem Progress.after_succ (k : Nat) :
    p.after force (k + 1) = (p.after force k).advance force :=
  Function.iterate_succ_apply' ..

theorem Progress.after_advance (k : Nat) :
    (p.advance force).after force k = p.after force (k + 1) :=
  (Function.iterate_succ_apply ..).symm

theorem Progress.passes_after (k : Nat) : (p.after force k).passes = p.passes + k := by
  induction k with
  | zero => rfl
  | succ k ih => rw [after_succ, Progress.advance, ih, Nat.add_assoc]

theorem drops_after_iff {k : Nat} : (p.after force k).Drops force ↔
    forwardedCount (p.after force (k + 1)).slots < forwardedCount (p.after force k).slots := by
  rw [Progress.Drops, Progress.after_succ]

theorem settle_zero (h : p.isUnsettled = true) : settle force 0 p = none := by
  rw [settle, if_pos h]

/-- Settling that ends has settled, or goes on by a pass that is discarded or kept. -/
theorem settle_cases (h : settle force limit p = some o) :
    (p.isUnsettled = false ∧ o = p.outcome) ∨
      (p.isUnsettled = true ∧ ∃ rest, limit = rest + 1 ∧
        (p.Drops force ∧ o = p.rollBack (p.advance force).slots ∨
          ¬ p.Drops force ∧ settle force rest (p.advance force) = some o)) := by
  cases hp : p.isUnsettled with
  | false =>
    rw [settle_of_settled hp, Option.some.injEq] at h
    exact .inl ⟨rfl, h.symm⟩
  | true =>
    right
    cases limit with
    | zero =>
      rw [settle_zero hp] at h
      cases h
    | succ rest =>
      rw [settle_succ hp] at h
      refine ⟨rfl, rest, rfl, ?_⟩
      by_cases hdrops : p.Drops force
      · rw [if_pos hdrops, Option.some.injEq] at h
        exact .inl ⟨hdrops, h.symm⟩
      · rw [if_neg hdrops] at h
        exact .inr ⟨hdrops, h⟩

/-- More passes allowed for make no difference to settling that ends. -/
theorem settle_mono {limit' : Nat} (h : settle force limit p = some o) (hle : limit ≤ limit') :
    settle force limit' p = some o := by
  induction limit using Nat.strong_induction_on generalizing p limit' with
  | _ limit ih =>
    rcases settle_cases h with ⟨hp, rfl⟩ | ⟨hp, rest, rfl, hend⟩
    · exact settle_of_settled hp
    · obtain ⟨rest', rfl⟩ := Nat.exists_eq_add_of_le' hle
      rw [← Nat.add_assoc, settle_succ hp]
      rcases hend with ⟨hdrops, rfl⟩ | ⟨hkept, hend⟩
      · rw [if_pos hdrops]
      · rw [if_neg hkept]
        exact ih rest (Nat.lt_succ_self rest) hend (Nat.le_add_left ..)

/-- **Settling is some passes kept, and then perhaps one discarded.** -/
theorem exists_kept_of_settle (h : settle force limit p = some o) :
    ∃ k, (∀ i < k, ¬ (p.after force i).Drops force) ∧
      (o = (p.after force k).outcome ∨ (p.after force k).Drops force ∧
        o = (p.after force k).rollBack (p.after force (k + 1)).slots) := by
  induction limit using Nat.strong_induction_on generalizing p with
  | _ limit ih =>
    rcases settle_cases h with ⟨_, rfl⟩ | ⟨_, rest, rfl, ⟨hdrops, rfl⟩ | ⟨hkept, hend⟩⟩
    · exact ⟨0, fun i hi => absurd hi i.not_lt_zero, .inl rfl⟩
    · exact ⟨0, fun i hi => absurd hi i.not_lt_zero, .inr ⟨hdrops, rfl⟩⟩
    · obtain ⟨k, hbefore, hlast⟩ := ih rest (Nat.lt_succ_self rest) hend
      simp only [Progress.after_advance] at hbefore hlast
      refine ⟨k + 1, ?_, hlast⟩
      intro i hi
      cases i with
      | zero => exact hkept
      | succ i => exact hbefore i (Nat.lt_of_succ_lt_succ hi)

/-! ## What units hold -/

/-- The bitrates that units hold, taken together. -/
def held (slots : List (Slot υ)) : Int := (slots.map (·.bitrate.toInt)).sum

@[simp] theorem held_cons (s : Slot υ) (slots : List (Slot υ)) :
    held (s :: slots) = s.bitrate.toInt + held slots := by
  simp [held]

/-- **What a pass takes out of the budget is held by the units.**  Where it stops midway, the units
behind hold what they held before. -/
theorem pass_balanced {slots : List (Slot υ)} {remaining : Int64}
    (h : ExactPass force remaining slots) :
    (pass force remaining slots).2.toInt + held (pass force remaining slots).1 =
      remaining.toInt + held slots := by
  induction slots generalizing force remaining with
  | nil => rfl
  | cons s rest ih =>
    cases hsuppressed : isSuppressed s.unit with
    | true =>
      rw [exactPass_cons_suppressed hsuppressed] at h
      have hrest := ih h
      simp only [pass_cons_suppressed hsuppressed, held_cons]
      omega
    | false =>
      rcases hserve : s.serve force remaining with ⟨t, left⟩
      obtain ⟨hexact, hrest⟩ := (exactPass_cons_served hsuppressed hserve).mp h
      have htaken : left.toInt = remaining.toInt + s.bitrate.toInt - t.bitrate.toInt := by
        simpa only [hserve] using hexact.taken
      rw [pass_cons_served hsuppressed hserve]
      by_cases hwanting : t.isWanting = true
      · simp only [if_pos hwanting, held_cons]
        omega
      · have hrest := ih (hrest (Bool.eq_false_of_not_eq_true hwanting))
        simp only [if_neg hwanting, held_cons]
        omega

theorem after_balanced {k : Nat}
    (h : ∀ i < k, ExactPass force (p.after force i).remaining (p.after force i).slots) :
    (p.after force k).remaining.toInt + held (p.after force k).slots =
      p.remaining.toInt + held p.slots := by
  induction k with
  | zero => rfl
  | succ k ih =>
    have hpass := pass_balanced (h k (Nat.lt_succ_self k))
    rw [← ih fun i hi => h i (Nat.lt_succ_of_lt hi), ← hpass, Progress.after_succ]
    rfl

/-! ## Bitrates by state -/

variable (υ) in
/-- A unit has one bitrate for each state, whatever it has chosen since, and 0 if not forwarded. -/
structure BitrateByState : Prop where
  improve : ∀ (u : υ) (s : UnitState) (budget : Int64) (t : UnitState),
    bitrate (LayerSelection.improve u s budget).2 t = bitrate u t
  idle : ∀ (u : υ) (s : UnitState), s.isForwarded = false → bitrate u s = 0

/-- The bitrates of units in their states, taken together. -/
def spent (units : List υ) (states : List UnitState) : Int :=
  (List.zipWith (fun u s => (bitrate u s).toInt) units states).sum

@[simp] theorem spent_cons (u : υ) (s : UnitState) (units : List υ) (states : List UnitState) :
    spent (u :: units) (s :: states) = (bitrate u s).toInt + spent units states := by
  simp [spent]

/-- The bitrates that the units of some slots have for each state. -/
def bitrates (slots : List (Slot υ)) : List (UnitState → Int64) :=
  slots.map fun s => LayerSelection.bitrate s.unit

theorem pass_bitrates (h : BitrateByState υ) (slots : List (Slot υ)) (remaining : Int64) :
    bitrates (pass force remaining slots).1 = bitrates slots := by
  induction slots generalizing force remaining with
  | nil => rfl
  | cons s rest ih =>
    cases hsuppressed : isSuppressed s.unit with
    | true =>
      rw [pass_cons_suppressed hsuppressed]
      simp only [bitrates, List.map_cons] at ih ⊢
      rw [ih]
    | false =>
      rcases hserve : s.serve force remaining with ⟨t, left⟩
      have hunit : LayerSelection.bitrate t.unit = LayerSelection.bitrate s.unit := by
        have hchosen := congrArg (·.1.unit) hserve
        funext state
        rw [← hchosen]
        exact h.improve ..
      rw [pass_cons_served hsuppressed hserve]
      split <;> simp only [bitrates, List.map_cons, hunit] at ih ⊢
      rw [ih]

theorem after_bitrates (h : BitrateByState υ) (k : Nat) :
    bitrates (p.after force k).slots = bitrates p.slots := by
  induction k with
  | zero => rfl
  | succ k ih =>
    rw [Progress.after_succ, ← ih]
    exact pass_bitrates h ..

/-- What units hold is what they have been given to spend, in bitrates from the start. -/
theorem held_eq_spent {slots : List (Slot υ)} {units : List υ}
    (h : bitrates slots = units.map LayerSelection.bitrate) :
    held slots = spent units (slots.map (·.state)) := by
  induction slots generalizing units with
  | nil =>
    cases units with
    | nil => rfl
    | cons => cases h
  | cons s slots ih =>
    cases units with
    | nil => cases h
    | cons u units =>
      simp only [bitrates, List.map_cons, List.cons.injEq] at h
      rw [held_cons, List.map_cons, spent_cons, ih h.2, Slot.bitrate, h.1]

theorem held_start (h : BitrateByState υ) (budget : Int64) (units : List υ) :
    held (Progress.start budget units).slots = 0 := by
  have hidle : ∀ u : υ, (⟨u, {}⟩ : Slot υ).bitrate = 0 := fun u => h.idle u {} rfl
  simp [held, Progress.start, Function.comp_def, hidle]

/-! ## Allocations -/

/-- The number of passes that were kept. -/
def Outcome.kept (o : Outcome υ) : Nat := if o.rolledBack then o.passes - 1 else o.passes

theorem allocateWithin_mono {budget : Int64} {units : List υ} {limit' : Nat}
    (h : allocateWithin limit force budget units = some o) (hle : limit ≤ limit') :
    allocateWithin limit' force budget units = some o := by
  simp only [allocateWithin] at h ⊢
  split at h
  · rename_i hempty
    rwa [if_pos hempty]
  · rename_i hempty
    rw [if_neg hempty]
    exact settle_mono h hle

/-- Within the passes that units of the kind take at most, this is what allocating comes to. -/
theorem allocate_eq_of_allocateWithin [PassLimit υ] {budget : Int64} {units : List υ}
    (h : allocateWithin limit force budget units = some o) (hlimit : limit ≤ passLimit units) :
    allocate force budget units = o := by
  rw [allocate, allocateWithin_mono h hlimit]
  rfl

theorem exists_kept_of_allocateWithin {budget : Int64} {units : List υ}
    (h : allocateWithin limit force budget units = some o) :
    let after := (Progress.start budget units).after force
    ∃ k, (∀ i < k, ¬ (after i).Drops force) ∧
      (o = (after k).outcome ∨
        (after k).Drops force ∧ o = (after k).rollBack (after (k + 1)).slots) := by
  simp only [allocateWithin] at h
  split at h
  · exact ⟨0, fun i hi => absurd hi i.not_lt_zero, .inl (Option.some.inj h).symm⟩
  · exact exists_kept_of_settle h

/-- **Allocation does not flap.**  Whatever the units do, when an allocation is arrived at: no pass
that was kept forwards fewer units than the one before it; a pass was discarded exactly if the last
one forwards fewer than the one before it, and then states and remaining budget are those that the
one before has left.  And if bitrates depend on nothing but states, and no sum has left the signed
64-bit range, then what remains and what the units spend make up the budget. -/
theorem allocateWithin_steady {budget : Int64} {units : List υ}
    (h : allocateWithin limit force budget units = some o) :
    let after := (Progress.start budget units).after force
    (∀ [PassLimit υ], limit ≤ passLimit units → allocate force budget units = o) ∧
      (∀ i < o.kept, forwardedCount (after i).slots ≤ forwardedCount (after (i + 1)).slots) ∧
      (o.rolledBack = true ↔
        forwardedCount (after o.passes).slots < forwardedCount (after (o.passes - 1)).slots) ∧
      o.states = (after o.kept).slots.map (·.state) ∧ o.remaining = (after o.kept).remaining ∧
      (BitrateByState υ →
        (∀ i < o.kept, ExactPass force (after i).remaining (after i).slots) →
          o.remaining.toInt + spent units o.states = budget.toInt) := by
  intro after
  obtain ⟨k, hkept, hend⟩ := exists_kept_of_allocateWithin h
  have hkept : ∀ i < k,
      ¬ forwardedCount (after (i + 1)).slots < forwardedCount (after i).slots :=
    fun i hi => mt drops_after_iff.mpr (hkept i hi)
  have hpasses : (after k).passes = k := by
    rw [Progress.passes_after]
    exact Nat.zero_add k
  have hk : o.kept = k := by
    rcases hend with rfl | ⟨_, rfl⟩
    · exact hpasses
    · exact hpasses
  have hstates : o.states = (after k).slots.map (·.state) := by
    rcases hend with rfl | ⟨_, rfl⟩ <;> rfl
  have hremaining : o.remaining = (after k).remaining := by
    rcases hend with rfl | ⟨_, rfl⟩ <;> rfl
  have hrolledBack : o.rolledBack = true ↔
      forwardedCount (after o.passes).slots < forwardedCount (after (o.passes - 1)).slots := by
    rcases hend with rfl | ⟨hdrops, rfl⟩
    · have hlast : (after k).outcome.passes = k := hpasses
      rw [hlast]
      refine iff_of_false (by simp [Progress.outcome]) ?_
      cases k with
      | zero => exact Nat.lt_irrefl _
      | succ k => exact hkept k (Nat.lt_succ_self k)
    · have hlast : ((after k).rollBack (after (k + 1)).slots).passes = k + 1 :=
        congrArg (· + 1) hpasses
      rw [hlast]
      exact iff_of_true rfl (drops_after_iff.mp hdrops)
  rw [hk]
  refine ⟨allocate_eq_of_allocateWithin h, ?_, hrolledBack, hstates, hremaining, ?_⟩
  · intro i hi
    exact Nat.le_of_not_lt (hkept i hi)
  · intro hbitrate hexact
    have hunits : bitrates (after k).slots = units.map LayerSelection.bitrate := by
      rw [after_bitrates hbitrate, bitrates, Progress.start, List.map_map]
      rfl
    calc o.remaining.toInt + spent units o.states
        = (after k).remaining.toInt + held (after k).slots := by
          rw [hremaining, hstates, held_eq_spent hunits]
      _ = budget.toInt + held (Progress.start budget units).slots := after_balanced hexact
      _ = budget.toInt := by rw [held_start hbitrate, add_zero]

/-! ## Scripted units -/

theorem bitrateByState_scripted : BitrateByState ScriptedUnit where
  improve u s budget t := by
    show LayerSelection.bitrate (u.choose s budget).2 t = LayerSelection.bitrate u t
    unfold ScriptedUnit.choose
    split <;> rfl
  idle u s h := by
    have htarget : s.target = none := by simpa [UnitState.isForwarded] using h
    show ((s.target.bind (u.bitrates[·]?)).getD 0 : Int64) = 0
    simp [htarget]

instance (force : Bool) (remaining : Int64) (s : Slot υ) :
    Decidable (s.ServedExactly force remaining) :=
  decidable_of_iff
    ((addClamped remaining s.bitrate).toInt = remaining.toInt + s.bitrate.toInt ∧
      (s.serve force remaining).2.toInt =
        remaining.toInt + s.bitrate.toInt - (s.serve force remaining).1.bitrate.toInt)
    ⟨fun ⟨given, taken⟩ => ⟨given, taken⟩, fun ⟨given, taken⟩ => ⟨given, taken⟩⟩

instance decidableExactPass : ∀ (force : Bool) (remaining : Int64) (slots : List (Slot υ)),
    Decidable (ExactPass force remaining slots)
  | _, _, [] => .isTrue trivial
  | force, remaining, s :: rest =>
    have := decidableExactPass false remaining rest
    have := decidableExactPass false (s.serve force remaining).2 rest
    inferInstanceAs (Decidable (if isSuppressed s.unit then ExactPass false remaining rest
      else s.ServedExactly force remaining ∧
        ((s.serve force remaining).1.isWanting = false →
          ExactPass false (s.serve force remaining).2 rest)))

/-- The first pass stops at the second unit, which is below its preferred layer.  The second pass
serves all three, and the third one drops the first unit and is discarded. -/
theorem allocateWithin_steady_rolled_back :
    let units : List ScriptedUnit :=
      [⟨false, none, [5, 3], [some 0, some 1, none], none, []⟩,
        ⟨false, some 1, [2, 4], [some 0, some 1], none, []⟩,
        ⟨false, none, [1], [some 0], none, []⟩]
    let after := (Progress.start 100 units).after false
    let o := allocate false 100 units
    allocateWithin 3 false 100 units = some o ∧
      (∀ i < o.kept, ExactPass false (after i).remaining (after i).slots) ∧
      o.states.map (·.target) = [some 1, some 1, some 0] ∧ o.passes = 3 ∧
      forwardedCount (after 2).slots = 3 ∧ forwardedCount (after 3).slots = 2 ∧
      o.rolledBack = true ∧ o.states = (after 2).slots.map (·.state) ∧
      o.remaining = (after 2).remaining ∧ o.remaining.toInt + spent units o.states = 100 := by
  intro units after o
  have ho : allocateWithin 3 false 100 units = some o := by decide +kernel
  have hkept : o.kept = 2 := by decide +kernel
  have hexact : ∀ i < o.kept, ExactPass false (after i).remaining (after i).slots := by
    rw [hkept]
    decide +kernel
  obtain ⟨_, _, hrolledBack, hstates, hremaining, hbudget⟩ := allocateWithin_steady ho
  rw [hkept] at hstates hremaining
  exact ⟨ho, hexact, by decide +kernel, by decide +kernel, by decide +kernel, by decide +kernel,
    hrolledBack.mpr (by decide +kernel), hstates, hremaining,
    hbudget bitrateByState_scripted hexact⟩

end Downlink.Allocator
