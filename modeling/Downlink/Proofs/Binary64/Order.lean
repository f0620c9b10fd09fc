import Downlink.Proofs.Binary64.Rounding

/-!
# Rounding and order

A finite number has a value, which is rational.  Numbers are ranked by their values, and rounding
keeps the order of rationals, whatever their signs and wherever a binade ends.  Integers and
products are rounded once, so whoever compares them compares exact results, rounded.

## Results

* `Binary64.nearest_mono` — the greater quotient is rounded to the greater magnitude.
* `Binary64.nearestRank_mono` — so it is with rationals of any sign.
* `Binary64.rank_ofInt`, `Binary64.rank_mul` — an integer and a product are the exact results,
  rounded once.
* `Binary64.le_iff_value_le` — finite numbers stand in the order of their values.
* `Binary64.value_ofInt` — an integer of at most 53 bits is not changed by rounding.
-/

set_option autoImplicit false

namespace Downlink

theorem roundEven_mono {n n' : Nat} (h : n ≤ n') (d : Nat) : roundEven n d ≤ roundEven n' d := by
  rcases Nat.lt_or_eq_of_le (Nat.div_le_div_right (c := d) h) with hquotient | hquotient
  · calc roundEven n d ≤ n / d + 1 := roundEven_le n d
      _ ≤ n' / d := hquotient
      _ ≤ roundEven n' d := div_le_roundEven n' d
  · have hremainder : n % d ≤ n' % d := by
      have hn := Nat.div_add_mod n d
      have hn' := Nat.div_add_mod n' d
      rw [hquotient] at hn
      omega
    simp only [roundEven, hquotient]
    split <;> split <;> omega

namespace Binary64

/-! ## Magnitudes -/

theorem stepOf_mono {n n' : Nat} (h : n ≤ n') (d : Nat) : stepOf n d ≤ stepOf n' d := by
  have hlog := Nat.log_mono_right (b := 2) (Nat.div_le_div_right (c := d) h)
  rw [← Nat.log2_eq_log_two, ← Nat.log2_eq_log_two] at hlog
  rw [stepOf, stepOf]
  omega

/-- **The greater quotient is rounded to the greater magnitude.** -/
theorem nearest_mono {n d n' d' : Nat} (hd : 0 < d) (hd' : 0 < d') (h : n * d' ≤ n' * d) :
    nearest n d ≤ nearest n' d' := by
  rw [← nearest_mul_right n d hd', ← nearest_mul_right n' d' hd, Nat.mul_comm d' d, nearest_eq,
    nearest_eq]
  refine min_le_min_right _ ?_
  generalize n * d' = n, n' * d = n', d * d' = d at *
  rcases Nat.lt_or_eq_of_le (stepOf_mono h d) with hstep | hstep
  · -- the smaller quotient reaches at most the end of its binade, where the next one begins
    have hbelow := mantissa_lt n d
    have habove := le_mantissa (n := n') (d := d) (by omega)
    have := roundEven_le n (d * 2 ^ stepOf n d)
    have := div_le_roundEven n' (d * 2 ^ stepOf n' d)
    omega
  · rw [hstep]
    exact Nat.add_le_add_left (roundEven_mono h _) _

theorem nearest_le_infinity (n d : Nat) : nearest n d ≤ infinityMagnitude :=
  nearest_eq n d ▸ Nat.min_le_right _ _

theorem infinityMagnitude_lt : infinityMagnitude < 2 ^ 63 := by
  rw [infinityMagnitude_eq]
  omega

theorem unitsPerOne_pos : 0 < unitsPerOne := by
  obtain ⟨k, hk⟩ : ∃ k, k = 1074 := ⟨_, rfl⟩
  rw [unitsPerOne_eq hk]
  exact Nat.two_pow_pos k

/-- The magnitudes of one binade are its steps, counted on from the binades before. -/
theorem units_binade {f : Nat} (hlow : 2 ^ 52 ≤ f) (hhigh : f < 2 ^ 53) (k : Nat) :
    units (k * 2 ^ 52 + f) = f * 2 ^ k := by
  have hbinade : (k * 2 ^ 52 + f) / 2 ^ 52 = k + 1 := by omega
  have hmantissa : 2 ^ 52 + (k * 2 ^ 52 + f) % 2 ^ 52 = f := by omega
  rw [units_eq, hbinade, hmantissa, if_neg (Nat.succ_ne_zero k), Nat.add_sub_cancel]

/-- A positive integer of at most 53 bits is brought to 53 bits by some shift. -/
theorem exists_shift {n : Nat} (hpos : 0 < n) (h : n < 2 ^ 53) :
    ∃ j ≤ 52, 2 ^ 52 ≤ n * 2 ^ j ∧ n * 2 ^ j < 2 ^ 53 := by
  have hne : n ≠ 0 := Nat.ne_of_gt hpos
  have hlog : n.log2 < 53 := (Nat.log2_lt hne).mpr h
  refine ⟨52 - n.log2, Nat.sub_le .., ?_, ?_⟩
  · calc 2 ^ 52 = 2 ^ n.log2 * 2 ^ (52 - n.log2) := by rw [← Nat.pow_add]; congr 1; omega
      _ ≤ n * 2 ^ (52 - n.log2) := Nat.mul_le_mul_right _ (Nat.log2_self_le hne)
  · calc n * 2 ^ (52 - n.log2) < 2 ^ (n.log2 + 1) * 2 ^ (52 - n.log2) :=
          Nat.mul_lt_mul_of_pos_right Nat.lt_log2_self (Nat.two_pow_pos _)
      _ = 2 ^ 53 := by rw [← Nat.pow_add]; congr 1; omega

/-- An integer of at most 53 bits is not changed by rounding. -/
theorem units_nearest_integer {n : Nat} (h : n < 2 ^ 53) :
    units (nearest (unitsPerOne * n) 1) = unitsPerOne * n := by
  obtain ⟨k, hk⟩ : ∃ k, k = 1074 := ⟨_, rfl⟩
  rcases Nat.eq_zero_or_pos n with rfl | hpos
  · rw [Nat.mul_zero, nearest_of_small (by omega)]
    rfl
  obtain ⟨j, hj, hlow, hhigh⟩ := exists_shift hpos h
  have hunits : unitsPerOne * n = units ((k - j) * 2 ^ 52 + n * 2 ^ j) := by
    rw [units_binade hlow hhigh, unitsPerOne_eq hk, Nat.mul_assoc, ← Nat.pow_add,
      Nat.add_sub_of_le (by omega), Nat.mul_comm]
  rw [hunits, nearest_units]
  rw [infinityMagnitude_eq]
  omega

/-! ## Values -/

/-- The value of a finite number. -/
def value (x : Binary64) : ℚ :=
  if x.isNegative then -(units x.magnitude / unitsPerOne) else units x.magnitude / unitsPerOne

/-- The rank of the number nearest to a rational. -/
def nearestRank (q : ℚ) : Int :=
  if q < 0 then -(nearest (unitsPerOne * q.num.natAbs) q.den : Int)
  else nearest (unitsPerOne * q.num.natAbs) q.den

theorem nearestRank_div (n : Nat) {d : Nat} (hd : 0 < d) :
    nearestRank (n / d) = nearest (unitsPerOne * n) d := by
  have hnonneg : (0 : ℚ) ≤ n / d := by positivity
  rw [nearestRank, if_neg (not_lt.mpr hnonneg)]
  have hreduced : ((n : ℚ) / d).num.natAbs * d = n * ((n : ℚ) / d).den := by
    have hnum : (((n : ℚ) / d).num.natAbs : ℚ) = ((n : ℚ) / d).num := by
      rw [Nat.cast_natAbs, abs_of_nonneg (Rat.num_nonneg.mpr hnonneg)]
    have hquotient := Rat.num_div_den ((n : ℚ) / d)
    rw [div_eq_div_iff (by positivity) (by positivity), ← hnum] at hquotient
    exact_mod_cast hquotient
  refine congrArg Nat.cast (nearest_congr (Rat.den_pos _) hd ?_)
  rw [Nat.mul_assoc, hreduced, Nat.mul_assoc]

theorem nearestRank_neg (q : ℚ) : nearestRank (-q) = -nearestRank q := by
  unfold nearestRank
  rw [Rat.neg_num, Rat.neg_den, Int.natAbs_neg]
  rcases lt_trichotomy q 0 with hneg | rfl | hpos
  · rw [if_neg (by linarith), if_pos hneg, Int.neg_neg]
  · rw [Rat.num_zero, Int.natAbs_zero, Nat.mul_zero, nearest_of_small (by decide)]
    simp
  · rw [if_pos (by linarith), if_neg (by linarith)]

theorem nearestRank_nonneg {q : ℚ} (h : 0 ≤ q) : 0 ≤ nearestRank q := by
  rw [nearestRank, if_neg (not_lt.mpr h)]
  exact Int.natCast_nonneg _

theorem nearestRank_le_of_nonneg {p q : ℚ} (hp : 0 ≤ p) (h : p ≤ q) :
    nearestRank p ≤ nearestRank q := by
  rw [nearestRank, nearestRank, if_neg (not_lt.mpr hp), if_neg (not_lt.mpr (hp.trans h))]
  refine Int.ofNat_le.mpr (nearest_mono (Rat.den_pos p) (Rat.den_pos q) ?_)
  have hp' := Rat.num_nonneg.mpr hp
  have hq' := Rat.num_nonneg.mpr (hp.trans h)
  have hcross := (Rat.le_iff p q).mp h
  rw [Nat.mul_assoc, Nat.mul_assoc]
  refine Nat.mul_le_mul_left _ ?_
  zify
  rwa [abs_of_nonneg hp', abs_of_nonneg hq']

/-- **Rounding keeps the order of rationals.** -/
theorem nearestRank_mono {p q : ℚ} (h : p ≤ q) : nearestRank p ≤ nearestRank q := by
  rcases le_or_gt 0 p with hp | hp
  · exact nearestRank_le_of_nonneg hp h
  · have hmirrored := nearestRank_neg p
    rcases le_or_gt 0 q with hq | hq
    · have := nearestRank_nonneg hq
      have := nearestRank_nonneg (q := -p) (by linarith)
      omega
    · have := nearestRank_neg q
      have := nearestRank_le_of_nonneg (p := -q) (q := -p) (by linarith) (by linarith)
      omega

/-! ## Numbers -/

section

variable {negative : Bool} {m : Nat} (h : m ≤ infinityMagnitude)

include h

theorem isNegative_ofMagnitude : (ofMagnitude negative m).isNegative = negative := by
  have hlt := Nat.lt_of_le_of_lt h infinityMagnitude_lt
  simp only [ofMagnitude, isNegative, UInt64.toNat_ofNat', Nat.shiftLeft_eq, Nat.one_mul]
  cases negative <;> simp <;> omega

theorem rank_ofMagnitude :
    (ofMagnitude negative m).rank = if negative then -(m : Int) else m := by
  rw [rank, isNegative_ofMagnitude h,
    magnitude_ofMagnitude (Nat.lt_of_le_of_lt h infinityMagnitude_lt)]

theorem isNaN_ofMagnitude : (ofMagnitude negative m).isNaN = false := by
  rw [isNaN, magnitude_ofMagnitude (Nat.lt_of_le_of_lt h infinityMagnitude_lt)]
  exact decide_eq_false (Nat.not_lt.mpr h)

end

variable {x y : Binary64} {i j : Int}

theorem isFinite_iff_rank :
    x.isFinite = true ↔ -(infinityMagnitude : Int) < x.rank ∧ x.rank < infinityMagnitude := by
  rw [isFinite, decide_eq_true_iff, rank]
  split <;> omega

/-- What lies between finite numbers is finite. -/
theorem isFinite_of_le_of_le {z : Binary64} (hx : x.isFinite = true) (hz : z.isFinite = true)
    (hxy : x ≤ y) (hyz : y ≤ z) : y.isFinite = true := by
  have hlow := (isFinite_iff_rank.mp hx).1
  have hhigh := (isFinite_iff_rank.mp hz).2
  exact isFinite_iff_rank.mpr ⟨Int.lt_of_lt_of_le hlow hxy.2.2, Int.lt_of_le_of_lt hyz.2.2 hhigh⟩

protected theorem le_of_lt (h : x < y) : x ≤ y := ⟨h.1, h.2.1, Int.le_of_lt h.2.2⟩

theorem isNaN_of_isFinite (h : x.isFinite = true) : x.isNaN = false :=
  decide_eq_false (Nat.not_lt_of_gt (of_decide_eq_true h))

/-- The value depends on the rank alone: the zeros have one value. -/
theorem value_congr (h : x.rank = y.rank) : x.value = y.value := by
  have hmagnitude : x.magnitude = y.magnitude := by
    unfold rank at h
    split at h <;> split at h <;> omega
  by_cases hsign : x.isNegative = y.isNegative
  · rw [value, value, hsign, hmagnitude]
  · have hzero : y.magnitude = 0 := by
      rw [rank, rank, hmagnitude] at h
      cases hx : x.isNegative <;> cases hy : y.isNegative <;> simp_all
    have hunits : units 0 = 0 := rfl
    rw [value, value, hmagnitude, hzero, hunits]
    simp

/-- A finite number is the one nearest to its value. -/
theorem nearestRank_value (h : x.isFinite = true) : nearestRank x.value = x.rank := by
  have hmagnitude : nearestRank (units x.magnitude / unitsPerOne) = x.magnitude := by
    have hsame : nearest (unitsPerOne * units x.magnitude) unitsPerOne =
        nearest (units x.magnitude) 1 :=
      nearest_congr unitsPerOne_pos Nat.one_pos (by ring)
    rw [nearestRank_div _ unitsPerOne_pos, hsame,
      nearest_units (Nat.le_of_lt (of_decide_eq_true h))]
  rw [value, rank]
  split
  · rw [nearestRank_neg, hmagnitude]
  · exact hmagnitude

/-- **Finite numbers stand in the order of their values.** -/
theorem le_iff_value_le (hx : x.isFinite = true) (hy : y.isFinite = true) :
    x ≤ y ↔ x.value ≤ y.value := by
  constructor
  · intro h
    by_contra hlt
    have hback := nearestRank_mono (le_of_not_ge hlt)
    rw [nearestRank_value hx, nearestRank_value hy] at hback
    exact hlt (value_congr (Int.le_antisymm h.2.2 hback)).le
  · intro h
    have hrank := nearestRank_mono h
    rw [nearestRank_value hx, nearestRank_value hy] at hrank
    exact ⟨isNaN_of_isFinite hx, isNaN_of_isFinite hy, hrank⟩

/-! ## Integers -/

/-- **An integer is rounded once.** -/
theorem rank_ofInt (i : Int) : (ofInt i).rank = nearestRank i := by
  rw [ofInt, rank_ofMagnitude (nearest_le_infinity ..), nearestRank, Rat.num_intCast,
    Rat.den_intCast]
  simp

theorem isNaN_ofInt (i : Int) : (ofInt i).isNaN = false :=
  isNaN_ofMagnitude (nearest_le_infinity ..)

theorem ofInt_natCast (n : Nat) : ofInt n = ofNat n := by
  have hsign : decide ((n : Int) < 0) = false :=
    decide_eq_false (Int.not_lt.mpr (Int.natCast_nonneg n))
  rw [ofNat, ofInt, Int.natAbs_natCast, hsign]

theorem ofInt_le_ofInt (h : i ≤ j) : ofInt i ≤ ofInt j := by
  refine ⟨isNaN_ofInt i, isNaN_ofInt j, ?_⟩
  rw [rank_ofInt, rank_ofInt]
  exact nearestRank_mono (Int.cast_le.mpr h)

theorem value_ofInt_mono (hi : i.natAbs < 2 ^ 64) (hj : j.natAbs < 2 ^ 64) (h : i ≤ j) :
    (ofInt i).value ≤ (ofInt j).value :=
  (le_iff_value_le (isFinite_ofInt hi) (isFinite_ofInt hj)).mp (ofInt_le_ofInt h)

/-- **An integer of at most 53 bits is not changed by rounding.** -/
theorem value_ofInt (h : i.natAbs < 2 ^ 53) : (ofInt i).value = i := by
  have hne : (unitsPerOne : ℚ) ≠ 0 := Nat.cast_ne_zero.mpr (Nat.ne_of_gt unitsPerOne_pos)
  have hle := nearest_le_infinity (unitsPerOne * i.natAbs) 1
  rw [value, ofInt, isNegative_ofMagnitude hle,
    magnitude_ofMagnitude (Nat.lt_of_le_of_lt hle infinityMagnitude_lt), units_nearest_integer h,
    Nat.cast_mul, mul_div_cancel_left₀ _ hne, Nat.cast_natAbs]
  split
  · rename_i hneg
    rw [abs_of_neg (of_decide_eq_true hneg), Int.cast_neg, neg_neg]
  · rename_i hnonneg
    rw [abs_of_nonneg (by simpa using hnonneg)]

theorem isFinite_ofNat {n : Nat} (h : n < 2 ^ 64) : (ofNat n).isFinite = true :=
  ofInt_natCast n ▸ isFinite_ofInt h

theorem value_ofNat {n : Nat} (h : n < 2 ^ 53) : (ofNat n).value = n := by
  rw [← ofInt_natCast, value_ofInt (i := n) h, Int.cast_natCast]

/-! ## Products -/

section

variable (hx : x.isFinite = true) (hy : y.isFinite = true)

include hx hy

theorem mul_of_isFinite : x.mul y = ofMagnitude (x.isNegative != y.isNegative)
    (nearest (units x.magnitude * units y.magnitude) unitsPerOne) := by
  have hx := of_decide_eq_true hx
  have hy := of_decide_eq_true hy
  simp [mul, isNaN, isInfinite, Nat.le_of_lt hx, Nat.le_of_lt hy, Nat.ne_of_lt hx, Nat.ne_of_lt hy]

theorem isNaN_mul : (x.mul y).isNaN = false := by
  rw [mul_of_isFinite hx hy]
  exact isNaN_ofMagnitude (nearest_le_infinity ..)

/-- **A product is rounded once.** -/
theorem rank_mul : (x.mul y).rank = nearestRank (x.value * y.value) := by
  have hmagnitudes :
      nearestRank (units x.magnitude / unitsPerOne * (units y.magnitude / unitsPerOne)) =
        nearest (units x.magnitude * units y.magnitude) unitsPerOne := by
    rw [div_mul_div_comm, ← Nat.cast_mul, ← Nat.cast_mul,
      nearestRank_div _ (Nat.mul_pos unitsPerOne_pos unitsPerOne_pos), Nat.mul_comm unitsPerOne,
      nearest_mul_right _ _ unitsPerOne_pos]
  rw [mul_of_isFinite hx hy, rank_ofMagnitude (nearest_le_infinity ..), ← hmagnitudes, value, value]
  cases x.isNegative <;> cases y.isNegative <;> simp [nearestRank_neg]

end

end Binary64

end Downlink
