import Downlink.Bandwidth.Gate
import Downlink.Proofs.Binary64.Order

/-!
# What the gate ignores

The gate compares a drop with a share of the previous estimate, both rounded.  Rounding keeps order,
so a greater drop is never ignored where a smaller one is acted upon, and what is ignored after an
estimate is that estimate and a run of positive estimates directly below it.  Where the previous
estimate is not changed by rounding, no drop is ignored that reaches the share exactly.

## Results

* `Gate.reaches_iff` — the comparison, in exact numbers and what they are rounded to.
* `Gate.reaches_mono`, `Gate.reaches_of_nonpos`, `Gate.reaches_of_exact` — which drops are reached.
* `Gate.ignoresSmallDrops` — a threshold of less than one ignores small drops only.
-/

set_option autoImplicit false

namespace Downlink

namespace Estimate

theorem eq_of_toInt_eq {a b : Estimate} (h : a.bps.toInt = b.bps.toInt) : a = b := by
  obtain ⟨a⟩ := a
  obtain ⟨b⟩ := b
  exact congrArg mk (Int64.toInt_inj.mp h)

theorem toInt_of_isUnknown {e : Estimate} (h : e.isUnknown = true) : e.bps.toInt = -1 :=
  congrArg Int64.toInt (beq_iff_eq.mp h)

theorem natAbs_toInt_lt (e : Estimate) : e.bps.toInt.natAbs < 2 ^ 64 := by
  have := e.bps.toInt_lt
  have := e.bps.le_toInt
  omega

end Estimate

namespace Gate

open Binary64

variable {gate : Gate} {previous current : Estimate}

/-! ## One comparison -/

theorem reacts_of_lt (h : previous.bps < current.bps) : gate.reacts previous current = true := by
  rw [reacts, if_pos h, ite_self]

theorem le_of_ignored (h : gate.reacts previous current = false) :
    current.bps.toInt ≤ previous.bps.toInt := by
  by_contra! hrise
  rw [reacts_of_lt (Int64.lt_iff_toInt_lt.mpr hrise)] at h
  cases h

theorem reacts_of_isUnknown_right (h : current.isUnknown = true) :
    gate.reacts previous current = true := by
  rw [reacts, h, Bool.or_true, if_pos rfl]

/-- What is judged by the threshold is a drop between known estimates. -/
theorem reacts_of_drop (hprevious : previous.isUnknown = false)
    (hcurrent : current.isUnknown = false) (hdrop : current.bps < previous.bps) :
    gate.reacts previous current = gate.reaches previous current := by
  have hrise : ¬ previous.bps < current.bps := Int64.not_lt.mpr (Int64.le_of_lt hdrop)
  have hsame : previous.bps ≠ current.bps := (Int64.ne_of_lt hdrop).symm
  rw [reacts, hprevious, hcurrent, Bool.or_false, if_neg Bool.false_ne_true, if_neg hrise,
    if_neg hsame]

theorem not_reacts_self (hknown : previous.isUnknown = false) :
    gate.reacts previous previous = false := by
  rw [reacts, hknown, Bool.or_false, if_neg Bool.false_ne_true, if_neg Int64.lt_irrefl,
    if_pos rfl]

section

variable (hfinite : gate.threshold.isFinite = true) (hdrop : current.bps < previous.bps)

include hfinite hdrop

/-- **The comparison in exact numbers**, and what these are rounded to. -/
theorem reaches_iff : gate.reaches previous current = true ↔
    nearestRank ((ofInt previous.bps.toInt).value * gate.threshold.value) ≤
      nearestRank ((previous.bps.toInt - current.bps.toInt : Int) : ℚ) := by
  have hprevious := isFinite_ofInt previous.natAbs_toInt_lt
  have hdistance : (distance previous current : Int) = previous.bps.toInt - current.bps.toInt := by
    have := Int64.lt_iff_toInt_lt.mp hdrop
    rw [distance]
    omega
  rw [reaches, decide_eq_true_iff, ← ofInt_natCast, hdistance, ← rank_mul hprevious hfinite,
    ← rank_ofInt]
  exact ⟨fun hle => hle.2.2, fun hle => ⟨isNaN_mul hprevious hfinite, isNaN_ofInt _, hle⟩⟩

/-- **A greater drop reaches the threshold where a smaller one does.** -/
theorem reaches_mono {lower : Estimate} (hlower : lower.bps < current.bps)
    (h : gate.reaches previous current = true) : gate.reaches previous lower = true := by
  rw [reaches_iff hfinite hdrop] at h
  rw [reaches_iff hfinite (Int64.lt_trans hlower hdrop)]
  have := Int64.lt_iff_toInt_lt.mp hlower
  exact h.trans (nearestRank_mono (Int.cast_le.mpr (by omega)))

/-- **A drop to nothing, or below, reaches every threshold up to one.** -/
theorem reaches_of_nonpos (hlow : 0 ≤ gate.threshold.value) (hhigh : gate.threshold.value ≤ 1)
    (h : current.bps ≤ 0) : gate.reaches previous current = true := by
  have hnothing : current.bps.toInt ≤ 0 := Int64.le_iff_toInt_le.mp h
  have hless := Int64.lt_iff_toInt_lt.mp hdrop
  have hprevious := previous.natAbs_toInt_lt
  have hpositive : (max previous.bps.toInt 0).natAbs < 2 ^ 64 := by omega
  have hvalue : (ofInt previous.bps.toInt).value ≤ (ofInt (max previous.bps.toInt 0)).value :=
    value_ofInt_mono hprevious hpositive (le_max_left ..)
  have hnonneg : 0 ≤ (ofInt (max previous.bps.toInt 0)).value := by
    have hzero : (ofInt 0).value = 0 := value_ofInt (by decide)
    exact hzero ▸ value_ofInt_mono (by decide) hpositive (le_max_right ..)
  rw [reaches_iff hfinite hdrop]
  -- the share of an estimate is no more than the estimate, also when that has been rounded
  calc nearestRank ((ofInt previous.bps.toInt).value * gate.threshold.value)
      ≤ nearestRank (ofInt (max previous.bps.toInt 0)).value :=
        nearestRank_mono ((mul_le_mul_of_nonneg_right hvalue hlow).trans
          (mul_le_of_le_one_right hnonneg hhigh))
    _ = nearestRank (max previous.bps.toInt 0 : Int) := by
        rw [nearestRank_value (isFinite_ofInt hpositive), rank_ofInt]
    _ ≤ nearestRank (previous.bps.toInt - current.bps.toInt : Int) :=
        nearestRank_mono (Int.cast_le.mpr (by omega))

/-- **A drop that reaches the share exactly reaches it rounded**, unless the previous estimate is
changed by rounding. -/
theorem reaches_of_exact (hprevious : previous.bps.toInt.natAbs < 2 ^ 53)
    (h : gate.threshold.value * previous.bps.toInt ≤ previous.bps.toInt - current.bps.toInt) :
    gate.reaches previous current = true := by
  rw [reaches_iff hfinite hdrop, value_ofInt hprevious, mul_comm, Int.cast_sub]
  exact nearestRank_mono h

end

/-! ## All that is ignored -/

/-- After `previous`, the gate ignores that estimate and small drops from it. -/
structure IgnoresSmallDrops (gate : Gate) (previous : Estimate) : Prop where
  same : gate.reacts previous previous = false
  /-- What is ignored is a run of estimates that ends in `previous`; those below it are positive. -/
  run : ∃ lowest : Int, (lowest = previous.bps.toInt ∨ 0 < lowest) ∧ ∀ current : Estimate,
    gate.reacts previous current = false ↔
      lowest ≤ current.bps.toInt ∧ current.bps.toInt ≤ previous.bps.toInt
  /-- Where a drop is acted upon, so is every greater one. -/
  greater : ∀ current lower : Estimate, current.bps < previous.bps → lower.bps < current.bps →
    gate.reacts previous current = true → gate.reacts previous lower = true
  rise : ∀ current : Estimate, previous.bps < current.bps → gate.reacts previous current = true
  nothing : ∀ current : Estimate, current ≠ previous → current.bps ≤ 0 →
    gate.reacts previous current = true
  /-- A drop is acted upon that reaches the share in exact numbers. -/
  share_reached : ∀ current : Estimate, 0 ≤ current.bps → current.bps < previous.bps →
    previous.bps.toInt < 2 ^ 53 →
    gate.threshold.value * previous.bps.toInt ≤ previous.bps.toInt - current.bps.toInt →
    gate.reacts previous current = true

section

variable (hlow : Binary64.ofNat 0 ≤ gate.threshold) (hhigh : gate.threshold < Binary64.ofNat 1)

include hlow hhigh

theorem isFinite_threshold : gate.threshold.isFinite = true :=
  isFinite_of_le_of_le (isFinite_ofNat (by decide)) (isFinite_ofNat (by decide)) hlow
    (Binary64.le_of_lt hhigh)

theorem value_threshold_mem_Icc : gate.threshold.value ∈ Set.Icc 0 1 := by
  have hfinite := isFinite_threshold hlow hhigh
  have hzero := (le_iff_value_le (isFinite_ofNat (by decide)) hfinite).mp hlow
  have hone := (le_iff_value_le hfinite (isFinite_ofNat (by decide))).mp (Binary64.le_of_lt hhigh)
  rw [value_ofNat (by decide)] at hzero hone
  exact ⟨by simpa using hzero, by simpa using hone⟩

variable (hknown : previous.isUnknown = false)

include hknown

/-- Whatever else is reported without a positive bandwidth is acted upon. -/
theorem reacts_of_nonpos (hother : current ≠ previous) (h : current.bps ≤ 0) :
    gate.reacts previous current = true := by
  cases hcurrent : current.isUnknown with
  | true => exact reacts_of_isUnknown_right hcurrent
  | false =>
    rcases lt_trichotomy previous.bps.toInt current.bps.toInt with hrise | hsame | hdrop
    · exact reacts_of_lt (Int64.lt_iff_toInt_lt.mpr hrise)
    · exact absurd (Estimate.eq_of_toInt_eq hsame.symm) hother
    · have hdrop := Int64.lt_iff_toInt_lt.mpr hdrop
      obtain ⟨hnonneg, hone⟩ := value_threshold_mem_Icc hlow hhigh
      rw [reacts_of_drop hknown hcurrent hdrop]
      exact reaches_of_nonpos (isFinite_threshold hlow hhigh) hdrop hnonneg hone h

theorem reacts_of_greater_drop {lower : Estimate} (hdrop : current.bps < previous.bps)
    (hlower : lower.bps < current.bps) (h : gate.reacts previous current = true) :
    gate.reacts previous lower = true := by
  have hdeep := Int64.lt_trans hlower hdrop
  cases hl : lower.isUnknown with
  | true => exact reacts_of_isUnknown_right hl
  | false =>
    cases hc : current.isUnknown with
    | true =>
      -- whether an unknown estimate is acted upon is no matter of the threshold
      have hunknown := Estimate.toInt_of_isUnknown hc
      have hless := Int64.lt_iff_toInt_lt.mp hlower
      have hnonpos : lower.bps ≤ 0 := Int64.le_iff_toInt_le.mpr (by rw [Int64.toInt_zero]; omega)
      exact reacts_of_nonpos hlow hhigh hknown (fun heq => Int64.lt_irrefl (heq ▸ hdeep)) hnonpos
    | false =>
      rw [reacts_of_drop hknown hc hdrop] at h
      rw [reacts_of_drop hknown hl hdeep]
      exact reaches_mono (isFinite_threshold hlow hhigh) hdrop hlower h

theorem reacts_of_share_reached (hnonneg : 0 ≤ current.bps) (hdrop : current.bps < previous.bps)
    (hprevious : previous.bps.toInt < 2 ^ 53)
    (h : gate.threshold.value * previous.bps.toInt ≤ previous.bps.toInt - current.bps.toInt) :
    gate.reacts previous current = true := by
  have hpositive : 0 ≤ current.bps.toInt := Int64.le_iff_toInt_le.mp hnonneg
  have hless := Int64.lt_iff_toInt_lt.mp hdrop
  cases hc : current.isUnknown with
  | true => exact reacts_of_isUnknown_right hc
  | false =>
    rw [reacts_of_drop hknown hc hdrop]
    exact reaches_of_exact (isFinite_threshold hlow hhigh) hdrop (by omega) h

theorem eq_or_pos_of_ignored (h : gate.reacts previous current = false) :
    current = previous ∨ 0 < current.bps.toInt := by
  by_contra! hnonpos
  have hreacts := reacts_of_nonpos hlow hhigh hknown hnonpos.1 (Int64.le_iff_toInt_le.mpr hnonpos.2)
  rw [hreacts] at h
  cases h

/-- What lies between an ignored estimate and the previous one is ignored. -/
theorem ignored_of_between {lower : Estimate} (h : gate.reacts previous lower = false)
    (hl : lower.bps.toInt ≤ current.bps.toInt) (hp : current.bps.toInt ≤ previous.bps.toInt) :
    gate.reacts previous current = false := by
  rcases Int.lt_or_eq_of_le hp with hp | hp
  · rcases Int.lt_or_eq_of_le hl with hl | hl
    · by_contra hreacts
      have hgreater := reacts_of_greater_drop hlow hhigh hknown (Int64.lt_iff_toInt_lt.mpr hp)
        (Int64.lt_iff_toInt_lt.mpr hl) (eq_true_of_ne_false hreacts)
      rw [hgreater] at h
      cases h
    · rwa [← Estimate.eq_of_toInt_eq hl]
  · rw [Estimate.eq_of_toInt_eq hp, not_reacts_self hknown]

theorem exists_lowest_ignored : ∃ lowest : Int, (lowest = previous.bps.toInt ∨ 0 < lowest) ∧
    ∀ current : Estimate, gate.reacts previous current = false ↔
      lowest ≤ current.bps.toInt ∧ current.bps.toInt ≤ previous.bps.toInt := by
  obtain ⟨_, ⟨lowest, rfl, hlowest⟩, hleast⟩ :=
    Int.exists_least_of_bdd
      (P := fun i => ∃ e : Estimate, e.bps.toInt = i ∧ gate.reacts previous e = false)
      ⟨-2 ^ 63, by rintro _ ⟨e, rfl, _⟩; exact e.bps.le_toInt⟩
      ⟨_, previous, rfl, not_reacts_self hknown⟩
  refine ⟨lowest.bps.toInt, ?_, fun current => ⟨?_, ?_⟩⟩
  · exact (eq_or_pos_of_ignored hlow hhigh hknown hlowest).imp_left fun heq => by rw [heq]
  · intro h
    exact ⟨hleast _ ⟨current, rfl, h⟩, le_of_ignored h⟩
  · rintro ⟨hl, hp⟩
    exact ignored_of_between hlow hhigh hknown hlowest hl hp

end

/-- **The gate ignores small drops only.**  After a known estimate, and with a threshold of less
than one, it ignores that estimate and a run of positive estimates directly below it.  It acts upon
every drop that is greater than one it acts upon, and upon every drop that reaches the share
exactly, if the estimate is small enough to be kept by rounding. -/
theorem ignoresSmallDrops (hlow : Binary64.ofNat 0 ≤ gate.threshold)
    (hhigh : gate.threshold < Binary64.ofNat 1) (hknown : previous.isUnknown = false) :
    gate.IgnoresSmallDrops previous where
  same := not_reacts_self hknown
  run := exists_lowest_ignored hlow hhigh hknown
  greater _ _ hdrop hlower h := reacts_of_greater_drop hlow hhigh hknown hdrop hlower h
  rise _ h := reacts_of_lt h
  nothing _ hother h := reacts_of_nonpos hlow hhigh hknown hother h
  share_reached _ hnonneg hdrop hprevious h :=
    reacts_of_share_reached hlow hhigh hknown hnonneg hdrop hprevious h

/-- After an estimate of 1 Mbit/s, the gate with the usual threshold ignores 850,001 bit/s, hence
all that lies above.  It acts upon 850,000 bit/s, which is below by no less than the share, hence
upon all that is less. -/
theorem ignoresSmallDrops_from_one_megabit :
    let gate : Gate := ⟨defaultThreshold⟩
    let previous : Estimate := ⟨1000000⟩
    Binary64.ofNat 0 ≤ gate.threshold ∧ gate.threshold < Binary64.ofNat 1 ∧
      previous.isUnknown = false ∧ gate.IgnoresSmallDrops previous ∧
      gate.reacts previous ⟨850001⟩ = false ∧ gate.reacts previous ⟨900000⟩ = false ∧
      gate.threshold.value * 1000000 ≤ 1000000 - 850000 ∧
      gate.reacts previous ⟨850000⟩ = true ∧ gate.reacts previous ⟨100000⟩ = true := by
  intro gate previous
  have hlow : Binary64.ofNat 0 ≤ gate.threshold := by decide +kernel
  have hhigh : gate.threshold < Binary64.ofNat 1 := by decide +kernel
  have hknown : previous.isUnknown = false := by decide
  have hshape := ignoresSmallDrops hlow hhigh hknown
  obtain ⟨lowest, _, hrun⟩ := hshape.run
  have hignored : gate.reacts previous ⟨850001⟩ = false := by decide +kernel
  have habove : gate.reacts previous ⟨900000⟩ = false :=
    (hrun ⟨900000⟩).mpr ⟨((hrun _).mp hignored).1.trans (by decide), by decide⟩
  have hshare : gate.threshold.value * 1000000 ≤ 1000000 - 850000 := by decide +kernel
  have hreached : gate.reacts previous ⟨850000⟩ = true :=
    hshape.share_reached ⟨850000⟩ (by decide) (by decide) (by decide) hshare
  have hbelow : gate.reacts previous ⟨100000⟩ = true :=
    hshape.greater ⟨850000⟩ ⟨100000⟩ (by decide) (by decide) hreached
  exact ⟨hlow, hhigh, hknown, hshape, hignored, habove, hshare, hreached, hbelow⟩

/-- Beyond `2 ^ 53` the previous estimate may be rounded up, and with it its share. -/
example :
    let gate : Gate := ⟨.ofDecimal false 75 (-2)⟩
    let previous : Estimate := ⟨2 ^ 60 + 129⟩
    let current : Estimate := ⟨2 ^ 58 + 32⟩
    gate.threshold.value * previous.bps.toInt ≤ previous.bps.toInt - current.bps.toInt ∧
      gate.reacts previous current = false := by
  decide +kernel

end Gate

end Downlink
