import Downlink.Proofs.Waterfall.Settling

/-!
# Optimality

Among all ways to spend a budget that keep the order of priority, allocating picks the greatest:
position by position, the first unit that any other way treats differently is treated worse by it.

## Results

* `Waterfall.le_of_feasible` — a waterfall is at least every feasible vector of targets.
* `Waterfall.feasible` — a waterfall in which nobody is forced is feasible itself.
* `allocate_optimal` — both of them, for what is allocated.
-/

set_option autoImplicit false

namespace Downlink

open Allocator

variable {force : Bool} {room : Int} {units : List SourceUnit} {states : List UnitState}
  {ts : List (Option Nat)}

/-- Targets that may be chosen for the units: none is above the ideal layer, together they cost no
more than the room, and a unit is forwarded only if every unit before it with a ladder is at or
above its preferred layer. -/
structure Feasible (room : Int) (units : List SourceUnit) (ts : List (Option Nat)) : Prop where
  length_eq : ts.length = units.length
  useful : ∀ p ∈ units.zip ts, rung p.2 ≤ rung p.1.idealIndex
  affordable : (load units ts : Int) ≤ room
  ordered : (units.zip ts).Pairwise fun p q =>
    q.2.isSome = true → p.1.layers ≠ [] → rung p.1.preferredIndex ≤ rung p.2

theorem SourceUnit.IsWanting.layers_ne_nil {u : SourceUnit} {t : Option Nat} (h : u.IsWanting t) :
    u.layers ≠ [] := by
  intro hempty
  simp [IsWanting, preferredIndex, layers_eq_nil_iff.mp hempty, rung] at h

/-- Behind a unit that is left wanting, feasible targets forward nobody. -/
theorem Feasible.tail_idle {u : SourceUnit} {t : Option Nat}
    (h : Feasible room (u :: units) (t :: ts)) (hw : u.IsWanting t) :
    ts = units.map fun _ => none := by
  have hlength : ts.length = units.length := Nat.succ.inj h.length_eq
  have hordered := (List.pairwise_cons.mp h.ordered).1
  have hnone : ∀ t' ∈ ts, t' = none := by
    intro t' ht'
    rw [← List.map_snd_zip (Nat.le_of_eq hlength), List.mem_map] at ht'
    obtain ⟨q, hq, rfl⟩ := ht'
    cases hsome : q.2 with
    | none => rfl
    | some j =>
      have hpreferred := hordered q hq (by rw [hsome]; rfl) hw.layers_ne_nil
      exact absurd hw (Nat.not_lt.mpr hpreferred)
  rw [List.map_const', ← hlength]
  exact List.eq_replicate_of_mem hnone

theorem Feasible.tail {u : SourceUnit} {t : Option Nat} (h : Feasible room (u :: units) (t :: ts)) :
    Feasible (room - (u.layerBitrate t).toNat) units ts where
  length_eq := Nat.succ.inj h.length_eq
  useful := fun p hp => h.useful p (List.mem_cons_of_mem _ hp)
  affordable := by
    have := h.affordable
    rw [load_cons] at this
    omega
  ordered := (List.pairwise_cons.mp h.ordered).2

theorem Feasible.head_useful {u : SourceUnit} {t : Option Nat}
    (h : Feasible room (u :: units) (t :: ts)) : rung t ≤ rung u.idealIndex :=
  h.useful (u, t) List.mem_cons_self

theorem Feasible.head_affordable {u : SourceUnit} {t : Option Nat}
    (h : Feasible room (u :: units) (t :: ts)) : ((u.layerBitrate t).toNat : Int) ≤ room := by
  have := h.affordable
  rw [load_cons] at this
  omega

/-- **A waterfall is at least every feasible vector of targets**, forced or not. -/
theorem Waterfall.le_of_feasible (h : Waterfall force room units states) (hroom : room < 2 ^ 63)
    (hts : Feasible room units ts) : LexLE ts (targets states) := by
  induction h generalizing ts with
  | dry =>
    rw [List.length_eq_zero_iff.mp hts.length_eq]
    exact LexLE.refl _
  | @flow force room u s units states hs _ _ ih =>
    obtain ⟨t, ts, rfl⟩ := List.exists_cons_of_length_eq_add_one hts.length_eq
    have hbitrate := u.toInt_bitrate_nonneg s
    rw [targets_cons]
    rcases hs.lt_or_eq hroom hts.head_useful hts.head_affordable with hlt | ⟨rfl, heq⟩
    · exact .inl hlt
    · exact .inr ⟨rfl, ih (by omega) (heq ▸ hts.tail)⟩
  | @cutoff force room u s units hs hw =>
    obtain ⟨t, ts, rfl⟩ := List.exists_cons_of_length_eq_add_one hts.length_eq
    rw [targets_cons, targets_idle]
    rcases hs.lt_or_eq hroom hts.head_useful hts.head_affordable with hlt | ⟨rfl, _⟩
    · exact .inl hlt
    · rw [hts.tail_idle hw]
      exact .inr ⟨rfl, LexLE.refl _⟩

/-! ## Waterfalls are feasible -/

theorem Feasible.nil (hroom : 0 ≤ room) : Feasible room [] [] :=
  ⟨rfl, by simp, hroom, .nil⟩

theorem Feasible.cons {u : SourceUnit} {t : Option Nat} (huseful : rung t ≤ rung u.idealIndex)
    (hidle : u.IsWanting t → ts = units.map fun _ => none)
    (htail : Feasible (room - (u.layerBitrate t).toNat) units ts) :
    Feasible room (u :: units) (t :: ts) where
  length_eq := congrArg Nat.succ htail.length_eq
  useful := List.forall_mem_cons.mpr ⟨huseful, htail.useful⟩
  affordable := by
    have := htail.affordable
    rw [load_cons]
    omega
  ordered := by
    refine List.pairwise_cons.mpr ⟨?_, htail.ordered⟩
    intro q hq hsome _
    apply Nat.le_of_not_lt
    intro hw
    -- behind a unit left wanting, `q` is not forwarded
    rw [hidle hw] at hq
    obtain ⟨_, _, hnone⟩ := List.mem_map.mp (List.of_mem_zip hq).2
    rw [← hnone] at hsome
    cases hsome

theorem feasible_idle (units : List SourceUnit) (hroom : 0 ≤ room) :
    Feasible room units (units.map fun _ => none) := by
  induction units with
  | nil => exact .nil hroom
  | cons u units ih => exact .cons (Nat.zero_le _) (fun _ => rfl) (by simpa using ih)

/-- **A waterfall in which nobody is forced is feasible itself.** -/
theorem Waterfall.feasible (h : Waterfall force room units states) (hroom : room < 2 ^ 63)
    (hnonneg : 0 ≤ room) (hfree : ∀ s ∈ states, s.oversending = false) :
    Feasible room units (targets states) := by
  induction h with
  | dry => exact .nil hnonneg
  | @flow force room u s units states hs hw _ ih =>
    obtain ⟨hhead, htail⟩ := List.forall_mem_cons.mp hfree
    obtain ⟨heq, hle⟩ := hs.toInt_bitrate_eq hroom hhead
    have hbitrate := u.toInt_bitrate_nonneg s
    exact .cons hs.useful (fun hw' => absurd hw' hw) (heq ▸ ih (by omega) (by omega) htail)
  | @cutoff force room u s units hs _ =>
    obtain ⟨heq, hle⟩ := hs.toInt_bitrate_eq hroom (List.forall_mem_cons.mp hfree).1
    rw [targets_cons, targets_idle]
    exact .cons hs.useful (fun _ => rfl) (feasible_idle units (by omega))

/-- **Allocating is optimal for the order of priority.**  The targets are lexicographically greatest
among the feasible ones, and they are feasible themselves where nobody is forced. -/
theorem allocate_optimal (force : Bool) (units : List SourceUnit) (budget : Int64)
    (hbudget : 0 ≤ budget) :
    let states := (allocate force budget units).states
    (∀ ts, Feasible budget.toInt units ts → LexLE ts (targets states)) ∧
      ((∀ s ∈ states, s.oversending = false) → Feasible budget.toInt units (targets states)) := by
  obtain ⟨states, left, h⟩ := exists_firstPass force budget units
  have hnonneg : 0 ≤ budget.toInt := by simpa [Int64.le_iff_toInt_le] using hbudget
  rw [h.allocate_eq]
  constructor
  · intro ts hts
    exact h.waterfall.le_of_feasible budget.toInt_lt hts
  · intro hfree
    exact h.waterfall.feasible budget.toInt_lt hnonneg hfree

theorem allocate_optimal_two_cameras :
    let units := [twoLayerCamera 100 300 (by decide), twoLayerCamera 100 300 (by decide)]
    (0 : Int64) ≤ 250 ∧ (∀ ts, Feasible 250 units ts → LexLE ts [some 0, some 0]) ∧
      Feasible 250 units [some 0, some 0] := by
  intro units
  have hbudget : (250 : Int64).toInt = 250 := by decide
  have htargets : targets (allocate false 250 units).states = [some 0, some 0] := by decide
  obtain ⟨hgreatest, hfeasible⟩ := allocate_optimal false units 250 (by decide)
  rw [hbudget, htargets] at hgreatest hfeasible
  exact ⟨by decide, hgreatest, hfeasible (by decide)⟩

end Downlink
