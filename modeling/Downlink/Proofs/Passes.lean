import Mathlib
import Downlink.Allocator.Basic

/-!
# Passes

How settling goes on from one pass to the next, for units of any kind: the progress that a pass
leads to, the progress that is reached from a start, and when a pass does its sums without clamping.

## Results

* `Allocator.settle_succ` — settling is one pass, and then settling from where it led.
* `Allocator.settle_of_pass_eq_self` — a pass that changes nothing ends settling.
-/

set_option autoImplicit false

namespace Downlink

universe u

theorem toInt_ofIntClamp_eq (x : Int) : (Int64.ofIntClamp x).toInt =
    max (-2 ^ 63) (min x (2 ^ 63 - 1)) := by
  have hmin : Int64.minValue.toInt = -2 ^ 63 := by decide
  have hmax : Int64.maxValue.toInt = 2 ^ 63 - 1 := by decide
  unfold Int64.ofIntClamp
  split
  · split
    · rw [Int64.toInt_ofIntLE]; omega
    · omega
  · omega

theorem toInt_addClamped (a b : Int64) : (addClamped a b).toInt =
    max (-2 ^ 63) (min (a.toInt + b.toInt) (2 ^ 63 - 1)) :=
  toInt_ofIntClamp_eq _

theorem toInt_subClamped (a b : Int64) : (subClamped a b).toInt =
    max (-2 ^ 63) (min (a.toInt - b.toInt) (2 ^ 63 - 1)) :=
  toInt_ofIntClamp_eq _

variable {υ : Type u} [LayerSelection υ]

/-- The bitrate that a unit holds goes back into the budget, and the one it chooses is taken out,
without leaving the signed 64-bit range. -/
structure Slot.ServedExactly (force : Bool) (remaining : Int64) (s : Slot υ) : Prop where
  given : (addClamped remaining s.bitrate).toInt = remaining.toInt + s.bitrate.toInt
  taken : (s.serve force remaining).2.toInt =
    remaining.toInt + s.bitrate.toInt - (s.serve force remaining).1.bitrate.toInt

namespace Allocator

open LayerSelection

variable {force : Bool}

theorem pass_cons_suppressed {s : Slot υ} (h : isSuppressed s.unit = true) (remaining : Int64)
    (rest : List (Slot υ)) : pass force remaining (s :: rest) =
      (s :: (pass false remaining rest).1, (pass false remaining rest).2) := by
  rw [pass, if_pos h]

theorem pass_cons_served {s t : Slot υ} {remaining left : Int64} (h : isSuppressed s.unit = false)
    (hserve : s.serve force remaining = (t, left)) (rest : List (Slot υ)) :
    pass force remaining (s :: rest) =
      if t.isWanting then (t :: rest, left)
      else (t :: (pass false left rest).1, (pass false left rest).2) := by
  rw [pass, if_neg (by simp [h]), hserve]

/-- No sum or difference of a pass leaves the signed 64-bit range. -/
def ExactPass (force : Bool) (remaining : Int64) : List (Slot υ) → Prop
  | [] => True
  | s :: rest =>
    if isSuppressed s.unit then ExactPass false remaining rest
    else
      s.ServedExactly force remaining ∧
        ((s.serve force remaining).1.isWanting = false →
          ExactPass false (s.serve force remaining).2 rest)

theorem exactPass_cons_suppressed {s : Slot υ} {remaining : Int64} {rest : List (Slot υ)}
    (h : isSuppressed s.unit = true) :
    ExactPass force remaining (s :: rest) ↔ ExactPass false remaining rest := by
  rw [ExactPass, if_pos h]

theorem exactPass_cons_served {s t : Slot υ} {remaining left : Int64} {rest : List (Slot υ)}
    (h : isSuppressed s.unit = false) (hserve : s.serve force remaining = (t, left)) :
    ExactPass force remaining (s :: rest) ↔
      s.ServedExactly force remaining ∧ (t.isWanting = false → ExactPass false left rest) := by
  rw [ExactPass, if_neg (by simp [h]), hserve]

namespace Progress

/-- Where one more pass leads, if it is kept. -/
def advance (force : Bool) (p : Progress υ) : Progress υ :=
  ⟨(pass force p.remaining p.slots).1, (pass force p.remaining p.slots).2, some p.remaining,
    p.passes + 1⟩

/-- One more pass would forward fewer units. -/
def Drops (force : Bool) (p : Progress υ) : Prop :=
  forwardedCount (p.advance force).slots < forwardedCount p.slots

instance (force : Bool) (p : Progress υ) : Decidable (p.Drops force) :=
  inferInstanceAs (Decidable (_ < _))

/-- What settling from `start` comes through: the start, and whatever a kept pass leads to. -/
inductive Reached (force : Bool) (start : Progress υ) : Progress υ → Prop
  | start : Reached force start start
  | advance {p : Progress υ} : Reached force start p → p.isUnsettled = true → ¬ p.Drops force →
      Reached force start (p.advance force)

end Progress

variable {limit : Nat} {p : Progress υ}

theorem settle_of_settled (h : p.isUnsettled = false) : settle force limit p = some p.outcome := by
  unfold settle
  rw [h]
  rfl

theorem settle_succ (h : p.isUnsettled = true) : settle force (limit + 1) p =
    if p.Drops force then some (p.rollBack (p.advance force).slots)
    else settle force limit (p.advance force) := by
  conv => lhs; unfold settle
  rw [if_pos h]
  rfl

/-- A pass that changes nothing ends settling. -/
theorem settle_of_pass_eq_self (h : pass force p.remaining p.slots = (p.slots, p.remaining)) :
    settle force (limit + 1) p =
      some { p.outcome with passes := if p.isUnsettled then p.passes + 1 else p.passes } := by
  have hadvance : p.advance force = ⟨p.slots, p.remaining, some p.remaining, p.passes + 1⟩ := by
    rw [Progress.advance, h]
  cases hp : p.isUnsettled with
  | false => rw [settle_of_settled hp]; rfl
  | true =>
    have hkeep : ¬ p.Drops force := by
      rw [Progress.Drops, hadvance]
      exact Nat.lt_irrefl _
    have hsettled : (p.advance force).isUnsettled = false := by
      rw [hadvance]
      simp [Progress.isUnsettled]
    rw [settle_succ hp, if_neg hkeep, settle_of_settled hsettled, hadvance]
    rfl

end Allocator

end Downlink
