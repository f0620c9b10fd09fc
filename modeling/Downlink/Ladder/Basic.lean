import Downlink.Config.Basic
import Downlink.Constraints
import Downlink.Media
import Downlink.Settings.Basic

/-!
# Ladders

The layers of a source that the receiver's constraints admit, in ascending order of bitrate, with
two marks: the *ideal* layer, above which the source is never sent, and the *preferred* layer, below
which sources of lower priority have to wait.  A source of which no layer is admitted has no ladder.

On stage, layers from the preferred height upwards are admitted at full frame rate only.

## Results

* `Layer.le_trans`, `Layer.le_total`, `Layer.le_antisymm` — layers are sorted by a total order, so a
  ladder does not depend on the order in which layers are published.
* `Ladder.mem_admitted` — the layers of a ladder are those that the limits and the stage admit.
* `lastIndex?_lt` — the marks point into the ladder; with the bounds in the type of a ladder, taking
  the layers up to a mark never runs out.
* `lastIndex?_eq_some_iff` — a position found is the greatest one with the property.
* `Ladder.of?_eq_none_of_disabled` — who takes no video is given no ladder.
-/

set_option autoImplicit false

namespace Downlink

namespace Layer

/-- By bitrate, then height, then frame rate in the total order of binary64 numbers. -/
def le (a b : Layer) : Bool :=
  a.bitrate < b.bitrate
    || (a.bitrate == b.bitrate
      && (a.height < b.height
        || (a.height == b.height && a.frameRate.totalRank ≤ b.frameRate.totalRank)))

theorem le_iff (a b : Layer) :
    a.le b = true ↔ a.bitrate.toNat < b.bitrate.toNat ∨ (a.bitrate.toNat = b.bitrate.toNat ∧
      (a.height.toNat < b.height.toNat ∨ (a.height.toNat = b.height.toNat ∧
        a.frameRate.totalRank ≤ b.frameRate.totalRank))) := by
  simp [le, UInt64.lt_iff_toNat_lt, UInt32.lt_iff_toNat_lt, ← UInt64.toNat_inj, ← UInt32.toNat_inj]

theorem le_trans (a b c : Layer) (hab : a.le b = true) (hbc : b.le c = true) : a.le c = true := by
  rw [le_iff] at *
  omega

theorem le_total (a b : Layer) : (a.le b || b.le a) = true := by
  rw [Bool.or_eq_true, le_iff, le_iff]
  omega

theorem le_antisymm {a b : Layer} (hab : a.le b = true) (hba : b.le a = true) : a = b := by
  rw [le_iff] at hab hba
  have hbitrate : a.bitrate = b.bitrate := UInt64.toNat_inj.mp (by omega)
  have hheight : a.height = b.height := UInt32.toNat_inj.mp (by omega)
  have hrate : a.frameRate = b.frameRate := Binary64.eq_of_totalRank_eq (by omega)
  cases a
  cases b
  congr

theorem bitrate_le {a b : Layer} (h : a.le b = true) : a.bitrate ≤ b.bitrate := by
  rw [le_iff] at h
  rw [UInt64.le_iff_toNat_le]
  omega

end Layer

/-- The position of the last element with a property. -/
def lastIndex? {α : Type} (p : α → Bool) : List α → Option Nat
  | [] => none
  | a :: rest =>
    match lastIndex? p rest with
    | some i => some (i + 1)
    | none => if p a then some 0 else none

theorem lastIndex?_eq_none_iff {α : Type} {p : α → Bool} {l : List α} :
    lastIndex? p l = none ↔ ∀ a ∈ l, p a = false := by
  induction l with
  | nil => simp [lastIndex?]
  | cons a rest ih =>
    rw [lastIndex?, List.forall_mem_cons, ← ih]
    cases lastIndex? p rest <;> simp

theorem lastIndex?_spec {α : Type} {p : α → Bool} {l : List α} {i : Nat}
    (h : lastIndex? p l = some i) :
    (∃ a, l[i]? = some a ∧ p a = true) ∧ ∀ j a, l[j]? = some a → p a = true → j ≤ i := by
  induction l generalizing i with
  | nil => cases h
  | cons a rest ih =>
    rw [lastIndex?] at h
    split at h
    · rename_i k found
      cases h
      obtain ⟨hk, hlast⟩ := ih found
      refine ⟨hk, fun j b hb hpb => ?_⟩
      cases j with
      | zero => exact Nat.zero_le _
      | succ j => exact Nat.succ_le_succ (hlast j b hb hpb)
    · rename_i found
      split at h
      · rename_i hpa
        cases h
        refine ⟨⟨a, rfl, hpa⟩, fun j b hb hpb => ?_⟩
        cases j with
        | zero => exact Nat.le_refl _
        | succ j =>
          have := lastIndex?_eq_none_iff.mp found b (List.mem_of_getElem? hb)
          rw [this] at hpb
          cases hpb
      · cases h

theorem lastIndex?_eq_some_iff {α : Type} {p : α → Bool} {l : List α} {i : Nat} :
    lastIndex? p l = some i ↔
      (∃ a, l[i]? = some a ∧ p a = true) ∧ ∀ j a, l[j]? = some a → p a = true → j ≤ i := by
  refine ⟨lastIndex?_spec, fun ⟨⟨a, ha, hpa⟩, hlast⟩ => ?_⟩
  cases found : lastIndex? p l with
  | none =>
    rw [lastIndex?_eq_none_iff.mp found a (List.mem_of_getElem? ha)] at hpa
    cases hpa
  | some k =>
    obtain ⟨⟨b, hb, hpb⟩, hk⟩ := lastIndex?_spec found
    rw [Nat.le_antisymm (hlast k b hb hpb) (hk i a ha hpa)]

theorem lastIndex?_lt {α : Type} {p : α → Bool} {l : List α} {i : Nat}
    (h : lastIndex? p l = some i) : i < l.length := by
  obtain ⟨⟨a, ha, _⟩, _⟩ := lastIndex?_spec h
  exact (List.getElem?_eq_some_iff.mp ha).1

/-- Admitted layers with their two marks. -/
structure Ladder where
  layers : List Layer
  /-- The highest layer worth sending. -/
  ideal : Nat
  /-- The layer to reach before lower priorities are served. -/
  preferred : Nat
  ideal_lt : ideal < layers.length
  preferred_le : preferred ≤ ideal
  ascending : layers.Pairwise fun a b => a.bitrate ≤ b.bitrate
deriving DecidableEq

/-- A frame rate keeps to a limit, if there is one. -/
def keepsTo (limit : Option Binary64) (rate : Binary64) : Bool := limit.all (rate ≤ ·)

namespace Ladder

/-- The receiver's hard limits admit the layer. -/
def admits (c : VideoConstraints) (l : Layer) : Bool :=
  l.height ≤ c.maxHeight && keepsTo c.maxFrameRate l.frameRate

theorem admits_iff {c : VideoConstraints} {l : Layer} : admits c l = true ↔
    l.height ≤ c.maxHeight ∧ ∀ limit ∈ c.maxFrameRate, l.frameRate ≤ limit := by
  simp [admits, keepsTo, Option.all_eq_true]

/-- The participant is shown on stage. -/
def isOnStage (config : Config) (strategy : Strategy) (c : VideoConstraints) : Bool :=
  strategy == .stageView && config.onstagePreferredHeight ≤ c.idealHeight

theorem isOnStage_iff {config : Config} {strategy : Strategy} {c : VideoConstraints} :
    isOnStage config strategy c = true ↔
      strategy = .stageView ∧ config.onstagePreferredHeight ≤ c.idealHeight := by
  simp [isOnStage]

/-- The layer may be sent on stage: it is small, or it has the full frame rate. -/
def suitsStage (config : Config) (l : Layer) : Bool :=
  l.height < config.onstagePreferredHeight || config.onstagePreferredFrameRate ≤ l.frameRate

theorem suitsStage_iff {config : Config} {l : Layer} : suitsStage config l = true ↔
    l.height < config.onstagePreferredHeight ∨ config.onstagePreferredFrameRate ≤ l.frameRate := by
  simp [suitsStage]

/-- The admitted layers, ascending. -/
def admitted (config : Config) (strategy : Strategy) (c : VideoConstraints) (layers : List Layer) :
    List Layer :=
  let sorted := (layers.filter (admits c)).mergeSort Layer.le
  if isOnStage config strategy c then sorted.filter (suitsStage config) else sorted

/-- The layer is no more than the receiver would like. -/
def isWanted (c : VideoConstraints) (l : Layer) : Bool :=
  l.height ≤ c.idealHeight && keepsTo c.idealFrameRate l.frameRate

theorem isWanted_iff {c : VideoConstraints} {l : Layer} : isWanted c l = true ↔
    l.height ≤ c.idealHeight ∧ ∀ limit ∈ c.idealFrameRate, l.frameRate ≤ limit := by
  simp [isWanted, keepsTo, Option.all_eq_true]

/-- The last wanted layer, or the lowest one. -/
def idealIndex (c : VideoConstraints) (layers : List Layer) : Nat :=
  (lastIndex? (isWanted c) layers).getD 0

/-- On stage the last layer up to the ideal one within the preferred height, else the lowest. -/
def preferredIndex (config : Config) (strategy : Strategy) (c : VideoConstraints)
    (layers : List Layer) (ideal : Nat) : Nat :=
  if isOnStage config strategy c then
    (lastIndex? (fun l => l.height ≤ config.onstagePreferredHeight)
      (layers.take (ideal + 1))).getD 0
  else 0

theorem mem_admitted {config : Config} {strategy : Strategy} {c : VideoConstraints}
    {layers : List Layer} {l : Layer} :
    l ∈ admitted config strategy c layers ↔ l ∈ layers ∧ admits c l = true ∧
      (isOnStage config strategy c = true → suitsStage config l = true) := by
  simp only [admitted]
  split <;> simp_all [List.mem_mergeSort, and_assoc]

theorem admitted_sorted (config : Config) (strategy : Strategy) (c : VideoConstraints)
    (layers : List Layer) :
    (admitted config strategy c layers).Pairwise fun a b => a.le b = true := by
  have sorted := List.pairwise_mergeSort Layer.le_trans Layer.le_total (layers.filter (admits c))
  simp only [admitted]
  split
  · exact sorted.sublist List.filter_sublist
  · exact sorted

theorem admitted_ascending (config : Config) (strategy : Strategy) (c : VideoConstraints)
    (layers : List Layer) :
    (admitted config strategy c layers).Pairwise fun a b => a.bitrate ≤ b.bitrate :=
  (admitted_sorted config strategy c layers).imp Layer.bitrate_le

theorem idealIndex_lt (c : VideoConstraints) {layers : List Layer} (h : layers ≠ []) :
    idealIndex c layers < layers.length := by
  unfold idealIndex
  cases found : lastIndex? (isWanted c) layers with
  | none => exact List.length_pos_iff.mpr h
  | some i => exact lastIndex?_lt found

theorem preferredIndex_le (config : Config) (strategy : Strategy) (c : VideoConstraints)
    (layers : List Layer) (ideal : Nat) :
    preferredIndex config strategy c layers ideal ≤ ideal := by
  unfold preferredIndex
  split
  · cases found : lastIndex? (fun l => l.height ≤ config.onstagePreferredHeight)
        (layers.take (ideal + 1)) with
    | none => exact Nat.zero_le _
    | some i =>
      have := lastIndex?_lt found
      rw [List.length_take] at this
      exact Nat.le_of_lt_succ (Nat.lt_of_lt_of_le this (Nat.min_le_left _ _))
  · exact Nat.zero_le _

/-- The ladder of a source's layers, if any is admitted. -/
def of? (config : Config) (strategy : Strategy) (c : VideoConstraints) (layers : List Layer) :
    Option Ladder :=
  let rungs := admitted config strategy c layers
  if h : c.isDisabled = true ∨ rungs = [] then none
  else
    some {
      layers := rungs
      ideal := idealIndex c rungs
      preferred := preferredIndex config strategy c rungs (idealIndex c rungs)
      ideal_lt := idealIndex_lt c fun empty => h (.inr empty)
      preferred_le := preferredIndex_le ..
      ascending := admitted_ascending .. }

theorem of?_eq_none_of_disabled (config : Config) (strategy : Strategy) {c : VideoConstraints}
    (layers : List Layer) (h : c.isDisabled = true) : of? config strategy c layers = none :=
  dif_pos (.inl h)

/-- The layers up to the ideal mark. -/
def useful (ladder : Ladder) : List Layer := ladder.layers.take (ladder.ideal + 1)

/-- The last useful layer within a budget. -/
def affordable? (ladder : Ladder) (budget : Int64) : Option Nat :=
  lastIndex? (fun l => (l.bitrate.toNat : Int) ≤ budget.toInt) ladder.useful

end Ladder

end Downlink
