import Downlink.Allocator.SourceUnit
import Downlink.Proofs.Passes

/-!
# Ladders

What the ladder of a unit is, said without filters, sorting or searches: every published layer that
may be sent, as often as it is published, in ascending order, with a mark on the last layer wanted
and a mark on the last one that lower priorities have to wait for.  A rate that is not a number
keeps to no limit and reaches no full frame rate.

## Results

* `Ladder.perm_admitted` — no layer that may be sent is lost, and no other one is admitted.
* `Ladder.IsMark.unique`, `Ladder.IsCut.unique` — the description leaves nothing open.
* `Ladder.IsCut.bounds` — marks that are set as described never point out of the ladder.
* `build_characterized` — the unit of a source has the ladder described.
* `layers_build_ne_nil_iff` — a unit is left without layers only if none may be sent.
-/

set_option autoImplicit false

namespace Downlink

/-- Bitrate, then height, then frame rate by its place among all bit patterns. -/
def Layer.rank (l : Layer) : Nat ×ₗ Nat ×ₗ Int :=
  toLex (l.bitrate.toNat, toLex (l.height.toNat, l.frameRate.totalRank))

theorem Layer.rank_le_iff {a b : Layer} : a.rank ≤ b.rank ↔ a.le b = true := by
  simp [rank, le_iff, Prod.Lex.toLex_le_toLex]

namespace Ladder

variable {config : Config} {strategy : Strategy} {c : VideoConstraints}

/-! ## Layers that may be sent -/

/-- The participant is on stage: the layout has a stage, and the receiver would like at least the
preferred height. -/
def OnStage (config : Config) (strategy : Strategy) (c : VideoConstraints) : Prop :=
  strategy = .stageView ∧ config.onstagePreferredHeight ≤ c.idealHeight

instance : Decidable (OnStage config strategy c) := inferInstanceAs (Decidable (_ ∧ _))

/-- The receiver's limits and the stage allow for the layer. -/
structure Eligible (config : Config) (strategy : Strategy) (c : VideoConstraints) (l : Layer) :
    Prop where
  height_le : l.height ≤ c.maxHeight
  rate_le : ∀ limit ∈ c.maxFrameRate, l.frameRate ≤ limit
  /-- On stage, from the preferred height upwards, only the full frame rate is worth its bits. -/
  onStage : OnStage config strategy c →
    l.height < config.onstagePreferredHeight ∨ config.onstagePreferredFrameRate ≤ l.frameRate

/-- The layer is no more than the receiver would like. -/
structure Wanted (c : VideoConstraints) (l : Layer) : Prop where
  height_le : l.height ≤ c.idealHeight
  rate_le : ∀ limit ∈ c.idealFrameRate, l.frameRate ≤ limit

theorem eligible_iff {l : Layer} : Eligible config strategy c l ↔
    admits c l = true ∧ (isOnStage config strategy c = true → suitsStage config l = true) := by
  rw [admits_iff, isOnStage_iff, suitsStage_iff]
  constructor
  · intro h
    exact ⟨⟨h.height_le, h.rate_le⟩, h.onStage⟩
  · rintro ⟨⟨hheight, hrate⟩, hstage⟩
    exact ⟨hheight, hrate, hstage⟩

instance (l : Layer) : Decidable (Eligible config strategy c l) :=
  decidable_of_iff' _ eligible_iff

theorem wanted_eq : Wanted c = fun l => isWanted c l = true := by
  funext l
  rw [isWanted_iff, eq_iff_iff]
  constructor
  · intro h
    exact ⟨h.height_le, h.rate_le⟩
  · rintro ⟨hheight, hrate⟩
    exact ⟨hheight, hrate⟩

/-- **The layers admitted are those that may be sent**, each as often as it is published. -/
theorem perm_admitted (layers : List Layer) : (admitted config strategy c layers).Perm
    (layers.filter fun l => Eligible config strategy c l) := by
  have hsorted : ((layers.filter (admits c)).mergeSort Layer.le).Perm (layers.filter (admits c)) :=
    List.mergeSort_perm ..
  unfold admitted
  by_cases hstage : isOnStage config strategy c = true
  · have heligible : (layers.filter fun l => Eligible config strategy c l) =
        (layers.filter (admits c)).filter (suitsStage config) := by
      rw [List.filter_filter]
      apply List.filter_congr
      intro l _
      simp [eligible_iff, hstage, Bool.and_comm]
    rw [heligible, if_pos hstage]
    exact hsorted.filter _
  · have heligible : (layers.filter fun l => Eligible config strategy c l) =
        layers.filter (admits c) := by
      apply List.filter_congr
      intro l _
      simp [eligible_iff, hstage]
    rw [heligible, if_neg hstage]
    exact hsorted

/-! ## Marks -/

/-- The position of the last layer with a property, or of the lowest layer if none has it. -/
inductive IsMark (p : Layer → Prop) (layers : List Layer) : Nat → Prop
  | last {i : Nat} : IsGreatest {j | ∃ l, layers[j]? = some l ∧ p l} i → IsMark p layers i
  | lowest : (∀ l ∈ layers, ¬ p l) → IsMark p layers 0

theorem isMark_lastIndex? (p : Layer → Bool) (layers : List Layer) :
    IsMark (fun l => p l = true) layers ((lastIndex? p layers).getD 0) := by
  cases found : lastIndex? p layers with
  | none =>
    apply IsMark.lowest
    simpa using lastIndex?_eq_none_iff.mp found
  | some i =>
    obtain ⟨hi, hlast⟩ := lastIndex?_spec found
    refine .last ⟨hi, ?_⟩
    rintro j ⟨l, hl, hp⟩
    exact hlast j l hl hp

namespace IsMark

variable {p : Layer → Prop} {layers : List Layer} {i j : Nat}

theorem unique (hi : IsMark p layers i) (hj : IsMark p layers j) : i = j := by
  cases hi with
  | last hi =>
    cases hj with
    | last hj => exact hi.unique hj
    | lowest hnone =>
      obtain ⟨l, hl, hp⟩ := hi.1
      exact absurd hp (hnone l (List.mem_of_getElem? hl))
  | lowest hnone =>
    cases hj with
    | last hj =>
      obtain ⟨l, hl, hp⟩ := hj.1
      exact absurd hp (hnone l (List.mem_of_getElem? hl))
    | lowest _ => rfl

/-- A mark points at a layer, if there is one. -/
theorem lt_length (h : IsMark p layers i) (hne : layers ≠ []) : i < layers.length := by
  cases h with
  | last h =>
    obtain ⟨l, hl, _⟩ := h.1
    exact (List.getElem?_eq_some_iff.mp hl).1
  | lowest _ => exact List.length_pos_iff.mpr hne

end IsMark

/-! ## The ladder described -/

/-- The ladder that is cut from published layers, and its two marks. -/
structure IsCut (config : Config) (strategy : Strategy) (c : VideoConstraints)
    (published rungs : List Layer) (ideal preferred : Option Nat) : Prop where
  disabled : c.maxHeight = 0 → rungs = []
  /-- What may be sent is there as often as it is published, and nothing else is. -/
  eligible : c.maxHeight ≠ 0 → rungs.Perm (published.filter fun l => Eligible config strategy c l)
  sorted : rungs.Pairwise fun a b => a.rank ≤ b.rank
  ideal_eq_none_iff : ideal = none ↔ rungs = []
  preferred_eq_none_iff : preferred = none ↔ rungs = []
  ideal_mark : ∀ i ∈ ideal, IsMark (Wanted c) rungs i
  /-- On stage, the last layer up to the ideal one that is within the preferred height. -/
  preferred_mark : OnStage config strategy c → ∀ i ∈ ideal, ∀ k ∈ preferred,
    IsMark (fun l => l.height ≤ config.onstagePreferredHeight) (rungs.take (i + 1)) k
  preferred_lowest : ¬ OnStage config strategy c → ∀ k ∈ preferred, k = 0

namespace IsCut

variable {published rungs rungs' : List Layer} {ideal ideal' preferred preferred' : Option Nat}

theorem ne_nil_of_mem_ideal (h : IsCut config strategy c published rungs ideal preferred) {i : Nat}
    (hi : i ∈ ideal) : rungs ≠ [] := by
  intro hempty
  rw [h.ideal_eq_none_iff.mpr hempty] at hi
  cases hi

/-- **The marks point into the ladder**, the preferred one no higher than the ideal one, and there
are as many layers up to the ideal mark as it says. -/
theorem bounds (h : IsCut config strategy c published rungs ideal preferred) {i k : Nat}
    (hi : i ∈ ideal) (hk : k ∈ preferred) :
    k ≤ i ∧ i < rungs.length ∧ (rungs.take (i + 1)).length = i + 1 := by
  have hlt := (h.ideal_mark i hi).lt_length (h.ne_nil_of_mem_ideal hi)
  have hlength : (rungs.take (i + 1)).length = i + 1 := by
    rw [List.length_take]
    omega
  refine ⟨?_, hlt, hlength⟩
  by_cases hstage : OnStage config strategy c
  · -- the preferred mark is set among the layers up to the ideal one
    have hne : rungs.take (i + 1) ≠ [] := List.ne_nil_of_length_pos (by omega)
    have := (h.preferred_mark hstage i hi k hk).lt_length hne
    omega
  · rw [h.preferred_lowest hstage k hk]
    exact Nat.zero_le i

theorem rungs_unique (h : IsCut config strategy c published rungs ideal preferred)
    (h' : IsCut config strategy c published rungs' ideal' preferred') : rungs = rungs' := by
  by_cases hdisabled : c.maxHeight = 0
  · rw [h.disabled hdisabled, h'.disabled hdisabled]
  · have hperm := (h.eligible hdisabled).trans (h'.eligible hdisabled).symm
    refine hperm.eq_of_pairwise ?_ h.sorted h'.sorted
    intro a b _ _ hab hba
    exact Layer.le_antisymm (Layer.rank_le_iff.mp hab) (Layer.rank_le_iff.mp hba)

/-- **There is but one such ladder, with one such pair of marks.** -/
theorem unique (h : IsCut config strategy c published rungs ideal preferred)
    (h' : IsCut config strategy c published rungs' ideal' preferred') :
    rungs = rungs' ∧ ideal = ideal' ∧ preferred = preferred' := by
  cases h.rungs_unique h'
  by_cases hempty : rungs = []
  · rw [h.ideal_eq_none_iff.mpr hempty, h'.ideal_eq_none_iff.mpr hempty,
      h.preferred_eq_none_iff.mpr hempty, h'.preferred_eq_none_iff.mpr hempty]
    exact ⟨rfl, rfl, rfl⟩
  obtain ⟨i, rfl⟩ := Option.ne_none_iff_exists'.mp (mt h.ideal_eq_none_iff.mp hempty)
  obtain ⟨i', rfl⟩ := Option.ne_none_iff_exists'.mp (mt h'.ideal_eq_none_iff.mp hempty)
  obtain ⟨k, rfl⟩ := Option.ne_none_iff_exists'.mp (mt h.preferred_eq_none_iff.mp hempty)
  obtain ⟨k', rfl⟩ := Option.ne_none_iff_exists'.mp (mt h'.preferred_eq_none_iff.mp hempty)
  obtain rfl : i = i' := (h.ideal_mark i rfl).unique (h'.ideal_mark i' rfl)
  refine ⟨rfl, rfl, ?_⟩
  by_cases hstage : OnStage config strategy c
  · rw [(h.preferred_mark hstage i rfl k rfl).unique (h'.preferred_mark hstage i rfl k' rfl)]
  · rw [h.preferred_lowest hstage k rfl, h'.preferred_lowest hstage k' rfl]

end IsCut

/-- The layers admitted, marked as they are, are the ladder described, if there are any. -/
theorem isCut_admitted (henabled : c.maxHeight ≠ 0) {layers : List Layer}
    (hne : admitted config strategy c layers ≠ []) :
    let rungs := admitted config strategy c layers
    let ideal := idealIndex c rungs
    IsCut config strategy c layers rungs (some ideal)
      (some (preferredIndex config strategy c rungs ideal)) where
  disabled hdisabled := absurd hdisabled henabled
  eligible _ := perm_admitted layers
  sorted := (admitted_sorted config strategy c layers).imp Layer.rank_le_iff.mpr
  ideal_eq_none_iff := by simp [hne]
  preferred_eq_none_iff := by simp [hne]
  ideal_mark := by
    rintro _ ⟨⟩
    rw [wanted_eq]
    exact isMark_lastIndex? ..
  preferred_mark := by
    rintro hstage _ ⟨⟩ _ ⟨⟩
    rw [preferredIndex, if_pos (isOnStage_iff.mpr hstage)]
    simpa using isMark_lastIndex? (fun l => l.height ≤ config.onstagePreferredHeight) _
  preferred_lowest := by
    rintro hstage _ ⟨⟩
    rw [preferredIndex, if_neg (mt isOnStage_iff.mp hstage)]

theorem isCut_nil {layers : List Layer}
    (h : c.maxHeight ≠ 0 → admitted config strategy c layers = []) :
    IsCut config strategy c layers [] none none where
  disabled _ := rfl
  eligible henabled := h henabled ▸ perm_admitted layers
  sorted := .nil
  ideal_eq_none_iff := by simp
  preferred_eq_none_iff := by simp
  ideal_mark := by simp
  preferred_mark := by simp
  preferred_lowest := by simp

end Ladder

/-! ## Units -/

namespace SourceUnit

theorem isCut_build (config : Config) (strategy : Strategy) (participant : ParticipantId)
    (c : VideoConstraints) (source : MediaSource) :
    let u := build config strategy participant c source
    Ladder.IsCut config strategy c source.layers u.layers u.idealIndex u.preferredIndex := by
  intro u
  by_cases hnone : c.isDisabled = true ∨ Ladder.admitted config strategy c source.layers = []
  · have hladder : u.ladder = none := dif_pos hnone
    simp only [layers, idealIndex, preferredIndex, hladder, Option.map_none, Option.getD_none]
    apply Ladder.isCut_nil
    intro henabled
    exact hnone.resolve_left (by simpa [VideoConstraints.isDisabled] using henabled)
  · have hladder : u.ladder = some _ := dif_neg hnone
    obtain ⟨henabled, hne⟩ := not_or.mp hnone
    simp only [layers, idealIndex, preferredIndex, hladder, Option.map_some, Option.getD_some]
    exact Ladder.isCut_admitted (by simpa [VideoConstraints.isDisabled] using henabled) hne

/-- **The ladder of a unit is the one described, and there is no other.**  Its marks are in range:
the preferred layer is no higher than the ideal one, and the layers up to the ideal one are all
there. -/
theorem build_characterized (config : Config) (strategy : Strategy) (participant : ParticipantId)
    (c : VideoConstraints) (source : MediaSource) :
    let u := build config strategy participant c source
    (∀ rungs ideal preferred,
        Ladder.IsCut config strategy c source.layers rungs ideal preferred ↔
          rungs = u.layers ∧ ideal = u.idealIndex ∧ preferred = u.preferredIndex) ∧
      ∀ i ∈ u.idealIndex, ∀ k ∈ u.preferredIndex,
        k ≤ i ∧ i < u.layers.length ∧ (u.layers.take (i + 1)).length = i + 1 := by
  intro u
  have hcut := isCut_build config strategy participant c source
  refine ⟨?_, ?_⟩
  · intro rungs ideal preferred
    constructor
    · intro h
      exact h.unique hcut
    · rintro ⟨rfl, rfl, rfl⟩
      exact hcut
  · intro i hi k hk
    exact hcut.bounds hi hk

/-- **A unit has layers as soon as one may be sent.** -/
theorem layers_build_ne_nil_iff {config : Config} {strategy : Strategy}
    {participant : ParticipantId} {c : VideoConstraints} {source : MediaSource}
    (henabled : c.maxHeight ≠ 0) :
    (build config strategy participant c source).layers ≠ [] ↔
      ∃ l ∈ source.layers, Ladder.Eligible config strategy c l := by
  have hperm := (isCut_build config strategy participant c source).eligible henabled
  have hlength := hperm.length_eq
  rw [← List.length_pos_iff, hlength, List.length_pos_iff, ne_eq, List.filter_eq_nil_iff]
  simp

end SourceUnit

end Downlink
