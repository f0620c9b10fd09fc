import Downlink.Proofs.Waterfall.Share

/-!
# The waterfall

The rule by which a budget runs down a list of units, in exact integers: each unit takes its share
of the room that the units before it left over, until a unit is left below its preferred layer;
behind it nobody is served.  Only the head of the list may be forced.

The rule knows nothing of passes, of 64-bit words, or of how a share is found.

## Results

* `Waterfall.unique` — the rule determines the states.
* `Waterfall.load_le` — a waterfall in which nobody is forced costs no more than there is room.
-/

set_option autoImplicit false

namespace Downlink

/-- The units' states are what runs down from `room`. -/
inductive Waterfall : Bool → Int → List SourceUnit → List UnitState → Prop
  | dry (force : Bool) (room : Int) : Waterfall force room [] []
  | flow {force : Bool} {room : Int} {u : SourceUnit} {s : UnitState} {units : List SourceUnit}
      {states : List UnitState} : u.Share force room s → ¬ u.IsWanting s.target →
      Waterfall false (room - (u.bitrate s).toInt) units states →
      Waterfall force room (u :: units) (s :: states)
  | cutoff {force : Bool} {room : Int} {u : SourceUnit} {s : UnitState} (units : List SourceUnit) :
      u.Share force room s → u.IsWanting s.target →
      Waterfall force room (u :: units) (s :: units.map fun _ => {})

/-- The bitrates of the states, as the allocator accounts for them. -/
def spending (units : List SourceUnit) (states : List UnitState) : Int :=
  (List.zipWith (fun u s => (u.bitrate s).toInt) units states).sum

/-- What the units are set to send. -/
def targets (states : List UnitState) : List (Option Nat) := states.map (·.target)

/-- Lexicographic order of targets; not being forwarded stands below every layer. -/
def LexLE : List (Option Nat) → List (Option Nat) → Prop
  | [], _ => True
  | _ :: _, [] => False
  | t :: ts, t' :: ts' => rung t < rung t' ∨ t = t' ∧ LexLE ts ts'

theorem LexLE.refl : ∀ ts : List (Option Nat), LexLE ts ts
  | [] => trivial
  | _ :: ts => .inr ⟨rfl, LexLE.refl ts⟩

/-- The bitrates of the layers that targets name, in full. -/
def load (units : List SourceUnit) (ts : List (Option Nat)) : Nat :=
  (List.zipWith (fun u t => (u.layerBitrate t).toNat) units ts).sum

@[simp] theorem targets_cons (s : UnitState) (states : List UnitState) :
    targets (s :: states) = s.target :: targets states := rfl

@[simp] theorem targets_idle (units : List SourceUnit) :
    targets (units.map fun _ => {}) = units.map fun _ => none := by
  rw [targets, List.map_map]
  rfl

@[simp] theorem spending_cons (u : SourceUnit) (s : UnitState) (units : List SourceUnit)
    (states : List UnitState) :
    spending (u :: units) (s :: states) = (u.bitrate s).toInt + spending units states := rfl

@[simp] theorem load_cons (u : SourceUnit) (t : Option Nat) (units : List SourceUnit)
    (ts : List (Option Nat)) :
    load (u :: units) (t :: ts) = (u.layerBitrate t).toNat + load units ts := rfl

@[simp] theorem load_idle (units : List SourceUnit) : load units (units.map fun _ => none) = 0 := by
  induction units with
  | nil => rfl
  | cons u units ih => rw [List.map_cons, load_cons, ih]; rfl

@[simp] theorem spending_idle (units : List SourceUnit) :
    spending units (units.map fun _ => {}) = 0 := by
  induction units with
  | nil => rfl
  | cons u units ih => rw [List.map_cons, spending_cons, ih]; rfl

theorem spending_nonneg (units : List SourceUnit) (states : List UnitState) :
    0 ≤ spending units states := by
  induction units generalizing states with
  | nil => exact Int.le_refl 0
  | cons u units ih =>
    cases states with
    | nil => exact Int.le_refl 0
    | cons s states =>
      have := ih states
      have := u.toInt_bitrate_nonneg s
      rw [spending_cons]
      omega

theorem spending_le_load (units : List SourceUnit) (states : List UnitState) :
    spending units states ≤ load units (targets states) := by
  induction units generalizing states with
  | nil => exact Int.le_refl 0
  | cons u units ih =>
    cases states with
    | nil => exact Int.le_refl 0
    | cons s states =>
      have := ih states
      have := u.toInt_bitrate_le s
      rw [spending_cons, targets_cons, load_cons]
      omega

theorem load_eq_zero_iff {units : List SourceUnit} {ts : List (Option Nat)} :
    load units ts = 0 ↔ ∀ p ∈ units.zip ts, p.1.layerBitrate p.2 = 0 := by
  induction units generalizing ts with
  | nil => simp [load]
  | cons u units ih =>
    cases ts with
    | nil => simp [load]
    | cons t ts =>
      rw [load_cons, List.zip_cons_cons, List.forall_mem_cons, ← ih, Nat.add_eq_zero_iff,
        ← UInt64.toNat_inj]
      rfl

namespace Waterfall

variable {force : Bool} {room : Int} {units : List SourceUnit} {states : List UnitState}

theorem length_eq (h : Waterfall force room units states) : states.length = units.length := by
  induction h with
  | dry => rfl
  | flow _ _ _ ih => simp [ih]
  | cutoff _ _ _ => simp

/-- **The rule determines the states.** -/
theorem unique {states' : List UnitState} (h : Waterfall force room units states)
    (h' : Waterfall force room units states') : states = states' := by
  induction h generalizing states' with
  | dry => cases h'; rfl
  | flow hs hw _ ih =>
    cases h' with
    | flow hs' _ hrest' =>
      cases hs.unique hs'
      rw [ih hrest']
    | cutoff _ hs' hw' =>
      cases hs.unique hs'
      exact absurd hw' hw
  | cutoff units hs hw =>
    cases h' with
    | flow hs' hw' _ =>
      cases hs.unique hs'
      exact absurd hw hw'
    | cutoff _ hs' _ => rw [hs.unique hs']

/-- Where nobody is forced, the layers sent cost no more than there is room. -/
theorem load_le (h : Waterfall false room units states) (hroom : room < 2 ^ 63) :
    (load units (targets states) : Int) ≤ max 0 room := by
  generalize hforce : false = force at h
  induction h with
  | dry => exact Int.le_max_left ..
  | @flow force room u s units states hs _ _ ih =>
    subst hforce
    have hhead := hs.layerBitrate_le
    have hbitrate := u.toInt_bitrate s
    have htail := ih (by omega) rfl
    rw [targets_cons, load_cons]
    omega
  | cutoff units hs _ =>
    subst hforce
    have := hs.layerBitrate_le
    rw [targets_cons, load_cons, targets_idle, load_idle]
    omega

theorem not_oversending (h : Waterfall false room units states) :
    ∀ s ∈ states, s.oversending = false := by
  generalize hforce : false = force at h
  induction h with
  | dry => simp
  | flow hs _ _ ih =>
    subst hforce
    exact List.forall_mem_cons.mpr ⟨hs.not_oversending, ih rfl⟩
  | cutoff units hs _ =>
    subst hforce
    exact List.forall_mem_cons.mpr ⟨hs.not_oversending, by simp⟩

/-- The head takes its share of the room.  The others run down from what it leaves over, or are cut
off; in either case they stay within it, and none of them is forced. -/
theorem exists_cons {u : SourceUnit} (h : Waterfall force room (u :: units) states)
    (hroom : room < 2 ^ 63) : ∃ s rest, states = s :: rest ∧ u.Share force room s ∧
      (load units (targets rest) : Int) ≤ max 0 (room - (u.bitrate s).toInt) ∧
      (∀ t ∈ rest, t.oversending = false) ∧
      (¬ u.IsWanting s.target → Waterfall false (room - (u.bitrate s).toInt) units rest) ∧
      (u.IsWanting s.target → rest = units.map fun _ => {}) := by
  cases h with
  | @flow _ _ _ s _ rest hs hw hrest =>
    have := u.toInt_bitrate_nonneg s
    exact ⟨s, rest, rfl, hs, hrest.load_le (by omega), hrest.not_oversending, fun _ => hrest,
      fun hw' => absurd hw' hw⟩
  | @cutoff _ _ _ s _ hs hw =>
    refine ⟨s, _, rfl, hs, ?_, by simp, fun hw' => absurd hw hw', fun _ => rfl⟩
    rw [targets_idle, load_idle]
    exact Int.le_max_left ..

end Waterfall

/-! ## A sample unit -/

/-- A camera that is sent at a low or a high bitrate, and does with the low one. -/
def twoLayerCamera (low high : UInt64) (h : low ≤ high) : SourceUnit where
  participant := ⟨"a", by decide⟩
  source := ⟨"camera", by decide⟩
  constraints := .ofHeight 360
  ladder := some
    { layers := [⟨180, .ofNat 30, low⟩, ⟨360, .ofNat 30, high⟩]
      ideal := 1
      preferred := 0
      ideal_lt := Nat.lt_add_one 1
      preferred_le := Nat.zero_le 1
      ascending := by simpa using h }
  ladder_of_disabled := fun hdisabled => absurd hdisabled (by decide)

end Downlink
