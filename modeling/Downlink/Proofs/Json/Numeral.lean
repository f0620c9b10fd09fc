import Mathlib
import Downlink.Json.Reader
import Downlink.Json.Writer

/-!
# Numbers in JSON

A numeral is read back as it was written, digit by digit: sign, whole part, fraction and exponent.
What stands behind it must not go on with the number, and behind a value in a document it does not.

## Results

* `Json.readNumeral_text` — reading a written numeral gives it back, whatever value it names.
* `Json.exists_text_eq` — it starts with a sign or a digit.
-/

set_option autoImplicit false

namespace Downlink.Json

/-- What may stand behind a value: the end of the text, or a mark that separates or closes. -/
def AfterValue (rest : List Char) : Prop := ∀ c ∈ rest.head?, c = ',' ∨ c = ']' ∨ c = '}'

theorem afterValue_nil : AfterValue [] := fun _ h => nomatch h

theorem afterValue_cons {c : Char} (h : c = ',' ∨ c = ']' ∨ c = '}') (rest : List Char) :
    AfterValue (c :: rest) := by
  rintro d hd
  cases hd
  exact h

/-- A run of digits ends there. -/
def NoDigit (rest : List Char) : Prop := ∀ c ∈ rest.head?, c.isDigit = false

theorem noDigit_cons {c : Char} (h : c.isDigit = false) (rest : List Char) :
    NoDigit (c :: rest) := by
  rintro d hd
  cases hd
  exact h

/-- What may stand behind the digits of a number: its exponent, or what stands behind a value. -/
def AfterDigits (rest : List Char) : Prop :=
  ∀ c ∈ rest.head?, c = 'e' ∨ c = ',' ∨ c = ']' ∨ c = '}'

theorem AfterDigits.noDigit {rest : List Char} (h : AfterDigits rest) : NoDigit rest := by
  intro c hc
  rcases h c hc with rfl | rfl | rfl | rfl <;> decide

theorem AfterValue.afterDigits {rest : List Char} (h : AfterValue rest) : AfterDigits rest :=
  fun c hc => .inr (h c hc)

/-! ## Digits -/

theorem isDigit_toDigits {n : Nat} : ∀ c ∈ Nat.toDigits 10 n, c.isDigit = true :=
  fun _ => Nat.isDigit_of_mem_toDigits (by decide) (by decide)

theorem readDigits_append {digits rest : List Char} (hne : digits ≠ [])
    (hdigits : ∀ c ∈ digits, c.isDigit = true) (hrest : NoDigit rest) :
    readDigits (digits ++ rest) = some (digits, rest) := by
  have htake : rest.takeWhile Char.isDigit = [] := by
    cases rest with
    | nil => rfl
    | cons c rest => simp [hrest c rfl]
  have hdrop : rest.dropWhile Char.isDigit = rest := by
    cases rest with
    | nil => rfl
    | cons c rest => simp [hrest c rfl]
  rw [readDigits, List.takeWhile_append_of_pos hdigits, List.dropWhile_append_of_pos hdigits, htake,
    hdrop, List.append_nil]
  cases digits with
  | nil => exact absurd rfl hne
  | cons => rfl

/-- Only zero is written with a zero in front. -/
theorem exists_toDigits_eq (n : Nat) :
    ∃ c cs, Nat.toDigits 10 n = c :: cs ∧ (c = '0' → cs = []) := by
  induction n using Nat.strongRecOn with
  | _ n ih =>
    by_cases hn : n < 10
    · exact ⟨_, [], Nat.toDigits_of_lt_base hn, fun _ => rfl⟩
    · obtain ⟨c, cs, heq, hzero⟩ := ih (n / 10) (by omega)
      refine ⟨c, cs ++ [Nat.digitChar (n % 10)], ?_, ?_⟩
      · rw [Nat.toDigits_eq_if (by decide), if_neg hn, heq]
        rfl
      · rintro rfl
        -- then the digits in front were those of zero, and `n` would have one digit
        have hvalue := Nat.ofDigitChars_toDigits (b := 10) (n := n / 10) (by decide) (by decide)
        rw [heq, hzero rfl] at hvalue
        have : n / 10 = 0 := hvalue.symm
        omega

theorem readWhole_toDigits (n : Nat) {rest : List Char} (hrest : NoDigit rest) :
    readWhole (Nat.toDigits 10 n ++ rest) = some (Nat.toDigits 10 n, rest) := by
  obtain ⟨c, cs, heq, hzero⟩ := exists_toDigits_eq n
  have hread : readDigits (Nat.toDigits 10 n ++ rest) = some (Nat.toDigits 10 n, rest) :=
    readDigits_append Nat.toDigits_ne_nil isDigit_toDigits hrest
  rw [heq] at hread ⊢
  by_cases hc : c = '0'
  · rw [hzero hc, hc]
    rfl
  · rw [List.cons_append, readWhole]
    · exact hread
    · rintro tail htail
      exact hc (List.cons.inj htail).1

/-! ## Fractions -/

theorem length_paddedDigits (count n : Nat) : (paddedDigits count n).length = count := by
  induction count generalizing n with
  | zero => rfl
  | succ count ih => rw [paddedDigits, List.length_append, ih, List.length_singleton]

theorem isDigit_paddedDigits (count n : Nat) : ∀ c ∈ paddedDigits count n, c.isDigit = true := by
  induction count generalizing n with
  | zero => exact fun _ h => nomatch h
  | succ count ih =>
    intro c hc
    rcases List.mem_append.mp hc with hc | hc
    · exact ih _ c hc
    · rw [List.mem_singleton.mp hc, Nat.isDigit_digitChar, decide_eq_true_iff]
      omega

/-- The lowest digits of `n` behind those of `n` without them. -/
theorem ofDigitChars_paddedDigits (count n : Nat) :
    Nat.ofDigitChars 10 (paddedDigits count n) (n / 10 ^ count) = n := by
  induction count generalizing n with
  | zero => rw [Nat.pow_zero, Nat.div_one]; rfl
  | succ count ih =>
    have hlast : (Nat.digitChar (n % 10)).toNat = 48 + n % 10 :=
      Nat.toNat_digitChar_of_lt_ten (by omega)
    have hfront : n / 10 ^ (count + 1) = n / 10 / 10 ^ count := by
      rw [Nat.div_div_eq_div_mul, Nat.pow_succ, Nat.mul_comm]
    rw [paddedDigits, Nat.ofDigitChars_append, hfront, ih, Nat.ofDigitChars_cons,
      Nat.ofDigitChars_nil, hlast, show '0'.toNat = 48 from rfl]
    omega

theorem readFraction_append (places digits : Nat) {rest : List Char} (hrest : AfterDigits rest) :
    readFraction ((if places = 0 then [] else '.' :: paddedDigits places digits) ++ rest) =
      some (paddedDigits places digits, rest) := by
  cases places with
  | zero =>
    show readFraction rest = some ([], rest)
    cases rest with
    | nil => rfl
    | cons c rest => rcases hrest c rfl with rfl | rfl | rfl | rfl <;> rfl
  | succ places =>
    refine readDigits_append ?_ (isDigit_paddedDigits _ _) hrest.noDigit
    exact List.ne_nil_of_length_eq_add_one (length_paddedDigits _ _)

/-! ## Exponents -/

theorem afterDigits_exponent (exponent : Option Int) {rest : List Char} (hrest : AfterValue rest) :
    AfterDigits ((exponent.map Numeral.exponentText).getD [] ++ rest) := by
  cases exponent with
  | none => exact hrest.afterDigits
  | some e =>
    rintro c ⟨⟩
    exact .inl rfl

theorem readExponent_append (exponent : Option Int) {rest : List Char} (hrest : AfterValue rest) :
    readExponent ((exponent.map Numeral.exponentText).getD [] ++ rest) = some (exponent, rest) := by
  cases exponent with
  | none =>
    show readExponent rest = some (none, rest)
    cases rest with
    | nil => rfl
    | cons c rest => rcases hrest c rfl with rfl | rfl | rfl <;> rfl
  | some e =>
    have hread : readDigits (Nat.toDigits 10 e.natAbs ++ rest) =
        some (Nat.toDigits 10 e.natAbs, rest) :=
      readDigits_append Nat.toDigits_ne_nil isDigit_toDigits hrest.afterDigits.noDigit
    have hvalue : Nat.ofDigitChars 10 (Nat.toDigits 10 e.natAbs) 0 = e.natAbs :=
      Nat.ofDigitChars_toDigits (by decide) (by decide)
    show readExponent ('e' :: (if e < 0 then '-' else '+') :: Nat.toDigits 10 e.natAbs ++ rest) = _
    by_cases he : e < 0
    · have habs : -(e.natAbs : Int) = e := by omega
      simp only [he, if_true, List.cons_append, readExponent, splitSign, hread, hvalue, habs,
        Option.bind_eq_bind, Option.bind_some]
    · have habs : (e.natAbs : Int) = e := by omega
      simp [he, readExponent, splitSign, hread, hvalue, habs]

/-! ## Numerals -/

/-- The digits on both sides of the point are those of the numeral. -/
theorem ofDigitChars_text (digits places : Nat) :
    Nat.ofDigitChars 10 (Nat.toDigits 10 (digits / 10 ^ places) ++ paddedDigits places digits) 0 =
      digits := by
  rw [Nat.ofDigitChars_append, Nat.ofDigitChars_toDigits (by decide) (by decide),
    ofDigitChars_paddedDigits]

/-- A numeral is read behind its sign. -/
theorem readUnsigned_append (negative : Bool) (digits places : Nat) (exponent : Option Int)
    {rest : List Char} (hrest : AfterValue rest) :
    readUnsigned negative (Nat.toDigits 10 (digits / 10 ^ places) ++
      ((if places = 0 then [] else '.' :: paddedDigits places digits) ++
        ((exponent.map Numeral.exponentText).getD [] ++ rest))) =
      some (⟨negative, digits, places, exponent⟩, rest) := by
  have hexponent := afterDigits_exponent exponent hrest
  have hfraction : NoDigit ((if places = 0 then [] else '.' :: paddedDigits places digits) ++
      ((exponent.map Numeral.exponentText).getD [] ++ rest)) := by
    split
    · exact hexponent.noDigit
    · exact noDigit_cons (by decide) _
  simp only [readUnsigned, readWhole_toDigits _ hfraction, readFraction_append _ _ hexponent,
    readExponent_append _ hrest, ofDigitChars_text, length_paddedDigits, Option.bind_eq_bind,
    Option.bind_some]

/-- A numeral starts with its sign, or with a digit. -/
theorem exists_text_eq (n : Numeral) : ∃ c cs, n.text = c :: cs ∧ (c = '-' ∨ c.isDigit = true) := by
  obtain ⟨negative, digits, places, exponent⟩ := n
  cases negative with
  | true => exact ⟨'-', _, rfl, .inl rfl⟩
  | false =>
    obtain ⟨c, cs, heq, -⟩ := exists_toDigits_eq (digits / Nat.pow 10 places)
    have hdigit : c.isDigit = true := isDigit_toDigits c (heq ▸ List.mem_cons_self)
    rw [Numeral.text, heq]
    exact ⟨c, _, rfl, .inr hdigit⟩

theorem readNumeral_of_isDigit {c : Char} (h : c.isDigit = true) (rest : List Char) :
    readNumeral (c :: rest) = readUnsigned false (c :: rest) := by
  rw [readNumeral]
  rintro tail htail
  obtain rfl := (List.cons.inj htail).1
  exact absurd h (by decide)

/-- **A written numeral is read back.** -/
theorem readNumeral_text (n : Numeral) {rest : List Char} (hrest : AfterValue rest) :
    readNumeral (n.text ++ rest) = some (n, rest) := by
  obtain ⟨negative, digits, places, exponent⟩ := n
  have hread := readUnsigned_append negative digits places exponent hrest
  simp only [Numeral.text, List.append_assoc]
  cases negative with
  | true => exact hread
  | false =>
    obtain ⟨c, cs, heq, -⟩ := exists_toDigits_eq (digits / 10 ^ places)
    have hdigit : c.isDigit = true := isDigit_toDigits c (heq ▸ List.mem_cons_self)
    rw [heq] at hread
    exact (congrArg _ (congrArg (· ++ _) heq)).trans ((readNumeral_of_isDigit hdigit _).trans hread)

end Downlink.Json
