import Mathlib
import Downlink.Binary64.Rounding

/-!
# Rounding

Rounding to the nearest binary64 number sees a quotient only by its value, and takes a number that
is one already to itself.  What is too small for the smallest number becomes zero, what is too large
for the largest one infinity.

## Results

* `Binary64.nearest_congr` — equal quotients are rounded alike.
* `Binary64.nearest_units` — a number is rounded to itself.
* `Binary64.nearest_of_small`, `Binary64.nearest_of_large` — what lies outside the range.
* `Binary64.isFinite_ofInt` — integers of at most 64 bits are inside it.
* `Binary64.decimalMagnitude_eq_nearest` — a decimal is rounded as the quotient it stands for, also
  where the exponent alone decides.
-/

set_option autoImplicit false

namespace Downlink

/-! ## Rounding to integers -/

theorem roundEven_mul_right (n d : Nat) {k : Nat} (hk : 0 < k) :
    roundEven (n * k) (d * k) = roundEven n d := by
  have hlt : 2 * (n % d) * k < d * k ↔ 2 * (n % d) < d := Nat.mul_lt_mul_right hk
  have heq : 2 * (n % d) * k = d * k ↔ 2 * (n % d) = d := Nat.mul_left_inj (Nat.ne_of_gt hk)
  simp only [roundEven, Nat.mul_div_mul_right n d hk, Nat.mul_mod_mul_right, ← Nat.mul_assoc, hlt,
    heq]

theorem roundEven_mul_self (q : Nat) {d : Nat} (hd : 0 < d) : roundEven (q * d) d = q := by
  simp [roundEven, Nat.mul_div_left q hd, hd]

theorem div_le_roundEven (n d : Nat) : n / d ≤ roundEven n d := by
  unfold roundEven
  dsimp only
  split <;> omega

theorem roundEven_le (n d : Nat) : roundEven n d ≤ n / d + 1 := by
  unfold roundEven
  dsimp only
  split <;> omega

theorem roundEven_of_small {n d : Nat} (h : 2 * n < d) : roundEven n d = 0 := by
  have hlt : n < d := by omega
  simp [roundEven, Nat.div_eq_of_lt hlt, Nat.mod_eq_of_lt hlt, h]

namespace Binary64

/-! ## Rounding to magnitudes -/

theorem infinityMagnitude_eq : infinityMagnitude = 2047 * 2 ^ 52 := by
  simp [infinityMagnitude]

/-- The steps of the binade of `n / d`, in powers of two. -/
def stepOf (n d : Nat) : Nat := (n / d).log2 - 52

theorem nearest_eq (n d : Nat) : nearest n d =
    min (stepOf n d * 2 ^ 52 + roundEven n (d * 2 ^ stepOf n d)) infinityMagnitude := by
  unfold nearest
  simp only [Nat.shiftLeft_eq, stepOf]

/-- A quotient is less than `2 ^ 53` of its steps. -/
theorem mantissa_lt (n d : Nat) : n / (d * 2 ^ stepOf n d) < 2 ^ 53 := by
  rw [← Nat.div_div_eq_div_mul, Nat.div_lt_iff_lt_mul (Nat.two_pow_pos _), ← Nat.pow_add]
  refine Nat.lt_of_lt_of_le Nat.lt_log2_self (Nat.pow_le_pow_right Nat.two_pos ?_)
  rw [stepOf]
  omega

/-- A quotient is at least `2 ^ 52` of its steps, unless these are the shortest ones. -/
theorem le_mantissa {n d : Nat} (h : 0 < stepOf n d) : 2 ^ 52 ≤ n / (d * 2 ^ stepOf n d) := by
  have hstep : 52 + stepOf n d = (n / d).log2 := by
    rw [stepOf] at h ⊢
    omega
  have hne : n / d ≠ 0 := by
    intro hzero
    rw [stepOf, hzero, Nat.log2_zero] at h
    omega
  rw [← Nat.div_div_eq_div_mul, Nat.le_div_iff_mul_le (Nat.two_pow_pos _), ← Nat.pow_add, hstep]
  exact Nat.log2_self_le hne

theorem nearest_mul_right (n d : Nat) {k : Nat} (hk : 0 < k) :
    nearest (n * k) (d * k) = nearest n d := by
  have hstep : stepOf (n * k) (d * k) = stepOf n d := by
    rw [stepOf, stepOf, Nat.mul_div_mul_right n d hk]
  rw [nearest_eq, nearest_eq, hstep, Nat.mul_right_comm, roundEven_mul_right n _ hk]

/-- **Equal quotients are rounded alike.** -/
theorem nearest_congr {n d n' d' : Nat} (hd : 0 < d) (hd' : 0 < d') (h : n * d' = n' * d) :
    nearest n d = nearest n' d' :=
  calc nearest n d = nearest (n * d') (d * d') := (nearest_mul_right n d hd').symm
    _ = nearest (n' * d) (d' * d) := by rw [h, Nat.mul_comm d d']
    _ = nearest n' d' := nearest_mul_right n' d' hd

theorem units_eq (m : Nat) : units m =
    if m / 2 ^ 52 = 0 then m else (2 ^ 52 + m % 2 ^ 52) * 2 ^ (m / 2 ^ 52 - 1) := by
  simp only [units, Nat.shiftRight_eq_div_pow, Nat.shiftLeft_eq, Nat.one_mul]

theorem log2_mul_two_pow {f : Nat} (hlow : 2 ^ 52 ≤ f) (hhigh : f < 2 ^ 53) (k : Nat) :
    (f * 2 ^ k).log2 = 52 + k := by
  have hpow : 0 < 2 ^ k := Nat.two_pow_pos k
  rw [Nat.log2_eq_iff (Nat.ne_of_gt (Nat.mul_pos (by omega) hpow)), Nat.add_right_comm,
    Nat.pow_add, Nat.pow_add]
  exact ⟨Nat.mul_le_mul_right _ hlow, Nat.mul_lt_mul_of_pos_right hhigh hpow⟩

/-- **A number is rounded to itself.** -/
theorem nearest_units {m : Nat} (h : m ≤ infinityMagnitude) : nearest (units m) 1 = m := by
  have hstep : stepOf (units m) 1 = m / 2 ^ 52 - 1 ∧
      (m / 2 ^ 52 - 1) * 2 ^ 52 + roundEven (units m) (2 ^ (m / 2 ^ 52 - 1)) = m := by
    rw [stepOf, Nat.div_one, units_eq]
    split
    · rename_i hlowest
      have hlog : m.log2 - 52 = 0 := by
        rcases Nat.eq_zero_or_pos m with rfl | hpos
        · exact Nat.sub_eq_zero_of_le (Nat.zero_le 52)
        · have := (Nat.log2_lt (k := 52) (Nat.ne_of_gt hpos)).mpr (by omega)
          omega
      have hself := roundEven_mul_self m Nat.one_pos
      rw [Nat.mul_one] at hself
      rw [hlowest, hlog, Nat.zero_sub, Nat.zero_mul, Nat.pow_zero, hself, Nat.zero_add]
      exact ⟨rfl, rfl⟩
    · rename_i hlater
      rw [log2_mul_two_pow (by omega) (by omega), roundEven_mul_self _ (Nat.two_pow_pos _)]
      omega
  rw [nearest_eq, hstep.1, Nat.one_mul, hstep.2, Nat.min_eq_left h]

/-! ## The ends of the range -/

/-- Less than half of the smallest number becomes zero. -/
theorem nearest_of_small {n d : Nat} (h : 2 * n < d) : nearest n d = 0 := by
  have hstep : stepOf n d = 0 := by
    rw [stepOf, Nat.div_eq_of_lt (by omega), Nat.log2_zero]
  rw [nearest_eq, hstep, Nat.pow_zero, Nat.mul_one, roundEven_of_small h, Nat.zero_mul,
    Nat.zero_add, Nat.zero_min]

/-- A quotient beyond all numbers becomes infinity. -/
theorem nearest_of_large {n d k : Nat} (hk : 2098 ≤ k) (hd : 0 < d) (h : 2 ^ k * d ≤ n) :
    nearest n d = infinityMagnitude := by
  have hquotient : 2 ^ k ≤ n / d := (Nat.le_div_iff_mul_le hd).mpr h
  have hne : n / d ≠ 0 := Nat.ne_of_gt (Nat.lt_of_lt_of_le (Nat.two_pow_pos k) hquotient)
  have hlog : k ≤ (n / d).log2 := (Nat.le_log2 hne).mpr hquotient
  have hstep : stepOf n d + 52 = (n / d).log2 := by
    rw [stepOf]
    omega
  have hmantissa := le_mantissa (n := n) (d := d) (by omega)
  have hrounded := div_le_roundEven n (d * 2 ^ stepOf n d)
  rw [nearest_eq, Nat.min_eq_right]
  rw [infinityMagnitude_eq]
  omega

/-- A bound on the quotient bounds the binade of the number. -/
theorem nearest_le {n d k : Nat} (hk : 53 ≤ k) (h : n < d * 2 ^ k) :
    nearest n d ≤ (k - 51) * 2 ^ 52 := by
  have hquotient : n / d < 2 ^ k := Nat.div_lt_of_lt_mul h
  have hstep : stepOf n d ≤ k - 53 := by
    rcases Nat.eq_zero_or_pos (n / d) with hzero | hpos
    · rw [stepOf, hzero, Nat.log2_zero]
      omega
    · have := (Nat.log2_lt (Nat.ne_of_gt hpos)).mpr hquotient
      rw [stepOf]
      omega
  have hmantissa := mantissa_lt n d
  have hrounded := roundEven_le n (d * 2 ^ stepOf n d)
  refine Nat.le_trans (nearest_eq n d ▸ Nat.min_le_left _ _) ?_
  omega

/-! ## Integers -/

theorem magnitude_ofMagnitude {negative : Bool} {m : Nat} (h : m < 2 ^ 63) :
    (ofMagnitude negative m).magnitude = m := by
  simp only [ofMagnitude, magnitude, UInt64.toNat_ofNat', Nat.shiftLeft_eq, Nat.one_mul]
  split <;> omega

/-- The exponent is a variable, so that the power is not evaluated. -/
theorem unitsPerOne_eq {k : Nat} (hk : k = 1074) : unitsPerOne = 2 ^ k := by
  unfold unitsPerOne
  rw [← hk, Nat.shiftLeft_eq, Nat.one_mul]

/-- **An integer of at most 64 bits is rounded to a finite number.** -/
theorem isFinite_ofInt {i : Int} (h : i.natAbs < 2 ^ 64) : (ofInt i).isFinite = true := by
  obtain ⟨k, hk⟩ : ∃ k, k = 1074 := ⟨_, rfl⟩
  have hunits := unitsPerOne_eq hk
  have hlt : unitsPerOne * i.natAbs < 1 * 2 ^ (k + 64) := by
    rw [hunits, Nat.one_mul, Nat.pow_add]
    exact Nat.mul_lt_mul_of_pos_left h (Nat.two_pow_pos k)
  have hle := nearest_le (by omega) hlt
  have hfinite : nearest (unitsPerOne * i.natAbs) 1 < infinityMagnitude := by
    rw [infinityMagnitude_eq]
    omega
  rw [isFinite, ofInt, magnitude_ofMagnitude (by rw [infinityMagnitude_eq] at hfinite; omega)]
  exact decide_eq_true hfinite

/-! ## Decimals -/

theorem two_pow_le_ten_pow (k : Nat) : 2 ^ (3 * k) ≤ 10 ^ k := by
  rw [Nat.pow_mul]
  exact Nat.pow_le_pow_left (by decide) k

/-- **A decimal is rounded as the quotient it stands for**: where the exponent alone decides, it
decides the same. -/
theorem decimalMagnitude_eq_nearest (digits : Nat) (exponent : Int) :
    decimalMagnitude digits exponent =
      nearest (unitsPerOne * (digits * 10 ^ exponent.toNat)) (10 ^ (-exponent).toNat) := by
  obtain ⟨k, hk⟩ : ∃ k, k = 1074 := ⟨_, rfl⟩
  have hunits := unitsPerOne_eq hk
  unfold decimalMagnitude
  split
  · rename_i hzero
    rw [hzero, Nat.zero_mul, Nat.mul_zero, nearest_of_small (Nat.pow_pos (by decide))]
  rename_i hdigits
  split
  · rename_i hlarge
    have hone : (-exponent).toNat = 0 := by omega
    have hpow : 2 ^ (k + 3 * exponent.toNat) * 1 ≤
        unitsPerOne * (digits * 10 ^ exponent.toNat) := by
      rw [Nat.mul_one, Nat.pow_add, hunits]
      refine Nat.mul_le_mul_left _ (Nat.le_trans (two_pow_le_ten_pow _) ?_)
      exact Nat.le_mul_of_pos_left _ (Nat.pos_of_ne_zero hdigits)
    rw [hone, Nat.pow_zero, nearest_of_large (by omega) Nat.one_pos hpow]
  split
  · rename_i hsmall
    have hone : exponent.toNat = 0 := by omega
    have hpow : 2 * (unitsPerOne * digits) < 10 ^ (-exponent).toNat := by
      calc 2 * (unitsPerOne * digits) < 2 * (unitsPerOne * 2 ^ (digits.log2 + 1)) := by
            have hlt : digits < 2 ^ (digits.log2 + 1) := Nat.lt_log2_self
            have hpos : 0 < unitsPerOne := hunits ▸ Nat.two_pow_pos k
            exact Nat.mul_lt_mul_of_pos_left (Nat.mul_lt_mul_of_pos_left hlt hpos) Nat.two_pos
        _ = 2 ^ (1 + (k + (digits.log2 + 1))) := by
            rw [Nat.pow_add 2 1, Nat.pow_add 2 k, hunits, Nat.pow_one]
        _ ≤ 2 ^ (3 * (-exponent).toNat) := Nat.pow_le_pow_right Nat.two_pos (by omega)
        _ ≤ 10 ^ (-exponent).toNat := two_pow_le_ten_pow _
    rw [hone, Nat.pow_zero, Nat.mul_one, nearest_of_small hpow]
  · rfl

end Binary64

end Downlink
