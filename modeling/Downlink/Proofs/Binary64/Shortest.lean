import Downlink.Numeral
import Downlink.Proofs.Binary64.Rounding

/-!
# Shortest decimals

The shortest decimal of a number rounds to the number, and it does so in every layout: what is
written of a finite number names it, down to the sign of a zero.

## Results

* `Binary64.decimalMagnitude_shortest` — the shortest decimal names its number.
* `Binary64.toBinary64_numeral` — so does the numeral of a finite number in documents.
-/

set_option autoImplicit false

namespace Downlink.Binary64

/-! ## Bits -/

theorem ofMagnitude_magnitude (x : Binary64) : ofMagnitude x.isNegative x.magnitude = x := by
  obtain ⟨bits⟩ := x
  have hlt := bits.toNat_lt
  refine congrArg mk (UInt64.toNat_inj.mp ?_)
  simp only [isNegative, magnitude, Nat.shiftLeft_eq, decide_eq_true_eq, UInt64.toNat_ofNat']
  split <;> omega

/-! ## The decimal -/

theorem grainsPerUnit_eq {k : Nat} (hk : k = 1074) : grainsPerUnit = 5 ^ k := by
  unfold grainsPerUnit
  rw [← hk]
  rfl

theorem grainsPerUnit_pos : 0 < grainsPerUnit := by
  obtain ⟨k, hk⟩ : ∃ k, k = 1074 := ⟨_, rfl⟩
  rw [grainsPerUnit_eq hk]
  exact Nat.pow_pos (by decide)

/-- On the finest grid stands the number itself. -/
theorem names_grains {m : Nat} (h : m ≤ infinityMagnitude) : names m (grains m) 0 = true := by
  have hsame : nearest (grains m * 1) grainsPerUnit = nearest (units m) 1 :=
    nearest_congr grainsPerUnit_pos Nat.one_pos (by rw [grains]; ring)
  exact beq_iff_eq.mpr (hsame.trans (nearest_units h))

theorem names_iff {m digits grid : Nat} : names m digits grid = true ↔
    decimalMagnitude digits (grid - 1074) = m := by
  obtain ⟨k, hk⟩ : ∃ k, k = 1074 := ⟨_, rfl⟩
  have hunits := unitsPerOne_eq hk
  have hexponent : ((grid : Int) - 1074).toNat + k = grid + (-((grid : Int) - 1074)).toNat := by
    omega
  have hsame : nearest (digits * 10 ^ grid) grainsPerUnit =
      decimalMagnitude digits (grid - 1074) := by
    rw [decimalMagnitude_eq_nearest]
    refine nearest_congr grainsPerUnit_pos (Nat.pow_pos (by decide)) ?_
    -- a unit has `5 ^ k` grains, and `2 ^ k` units make one
    calc digits * 10 ^ grid * 10 ^ (-((grid : Int) - 1074)).toNat
        = digits * 10 ^ (((grid : Int) - 1074).toNat + k) := by
          rw [hexponent, Nat.pow_add, Nat.mul_assoc]
      _ = 2 ^ k * (digits * 10 ^ ((grid : Int) - 1074).toNat) * 5 ^ k := by
          rw [Nat.pow_add, show (10 : Nat) = 2 * 5 from rfl, Nat.mul_pow 2 5 k]
          ring
      _ = _ := by rw [hunits, grainsPerUnit_eq hk]
  rw [← hsame]
  exact beq_iff_eq

/-- **The shortest decimal names its number.** -/
theorem decimalMagnitude_shortest (tie : Tie) {m : Nat} (h : m ≤ infinityMagnitude) :
    decimalMagnitude (shortest tie m).digits (shortest tie m).exponent = m := by
  rw [shortest]
  split
  · rename_i hzero
    rw [hzero]
    rfl
  · exact names_iff.mp (search_names (names_grains h) (coarsest m))

/-! ## Numerals -/

/-- Zeros written behind the digits move the point. -/
theorem decimalMagnitude_shift (digits count : Nat) (exponent : Int) :
    decimalMagnitude (digits * 10 ^ count) (exponent - count) =
      decimalMagnitude digits exponent := by
  have hpos (k : Nat) : 0 < 10 ^ k := Nat.pow_pos (by decide)
  have hexponent : count + (exponent - count).toNat + (-exponent).toNat =
      exponent.toNat + (-(exponent - count)).toNat := by omega
  rw [decimalMagnitude_eq_nearest, decimalMagnitude_eq_nearest]
  refine nearest_congr (hpos _) (hpos _) ?_
  calc unitsPerOne * (digits * 10 ^ count * 10 ^ (exponent - count).toNat) * 10 ^ (-exponent).toNat
      = unitsPerOne * digits * 10 ^ (count + (exponent - count).toNat + (-exponent).toNat) := by
        rw [Nat.pow_add, Nat.pow_add]
        ring
    _ = unitsPerOne * (digits * 10 ^ exponent.toNat) * 10 ^ (-(exponent - count)).toNat := by
        rw [hexponent, Nat.pow_add]
        ring

theorem toBinary64_positional (negative : Bool) (d : Decimal) (places : Nat) :
    (Numeral.positional negative d places).toBinary64 =
      ofDecimal negative d.digits d.exponent := by
  obtain ⟨digits, exponent⟩ := d
  cases exponent with
  | ofNat e =>
    have hshift := decimalMagnitude_shift digits (e + places) e
    rw [show ((e : Int) - (e + places : Nat)) = 0 - places by omega] at hshift
    exact congrArg (ofMagnitude negative) hshift
  | negSucc e =>
    have hexponent : (0 : Int) - (e + 1 : Nat) = Int.negSucc e := by omega
    exact congrArg (ofDecimal negative digits) hexponent

theorem toBinary64_scientific (negative : Bool) (d : Decimal) :
    (Numeral.scientific negative d).toBinary64 = ofDecimal negative d.digits d.exponent := by
  refine congrArg (ofDecimal negative d.digits) ?_
  show d.exponent + _ - _ = d.exponent
  exact Int.add_sub_cancel ..

/-- **The numeral of a finite number names it.** -/
theorem toBinary64_numeral {x : Binary64} (h : x.isFinite = true) : x.numeral.toBinary64 = x := by
  have hmagnitude : x.magnitude ≤ infinityMagnitude := Nat.le_of_lt (of_decide_eq_true h)
  have hdecimal : ofDecimal x.isNegative (shortest .toEven x.magnitude).digits
      (shortest .toEven x.magnitude).exponent = x := by
    rw [ofDecimal, decimalMagnitude_shortest _ hmagnitude, ofMagnitude_magnitude]
  unfold numeral
  dsimp only
  split
  · exact (toBinary64_positional ..).trans hdecimal
  · exact (toBinary64_scientific ..).trans hdecimal

/-- It has a point or an exponent, so it does not name an integer. -/
theorem toInt?_numeral (x : Binary64) : x.numeral.toInt? = none := by
  unfold numeral Numeral.positional Numeral.scientific
  dsimp only
  split
  · split <;> simp [Numeral.toInt?]
  · simp [Numeral.toInt?]

end Downlink.Binary64
