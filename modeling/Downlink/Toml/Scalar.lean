import Downlink.Document.Basic
import Downlink.Toml.Text

/-!
# TOML scalars

Numbers, booleans and dates are words: the longest run of letters, digits and `_ + - . :`.  Each
kind of scalar is a function on whole words.

A date has no value of its own among documents.  It is read as a record of one field with a name
that nobody asks for.
-/

set_option autoImplicit false

namespace Downlink.Toml

def isWordChar (c : Char) : Bool :=
  c.isAlphanum || c == '_' || c == '+' || c == '-' || c == '.' || c == ':'

/-! ## Numbers -/

/-- Digits with single underscores between them, the underscores left out. -/
def digits? (isDigit : Char → Bool) : List Char → Option (List Char)
  | [] => none
  | [c] => if isDigit c then some [c] else none
  | c :: '_' :: rest => if isDigit c then (digits? isDigit rest).map (c :: ·) else none
  | c :: rest => if isDigit c then (digits? isDigit rest).map (c :: ·) else none

/-- Decimal digits that do not start with a needless zero. -/
def whole? (cs : List Char) : Option (List Char) :=
  match cs with
  | '0' :: _ :: _ => none
  | cs => digits? Char.isDigit cs

/-- An integer of 64 bits. -/
def bounded? (i : Int) : Option Document :=
  if Int64.minValue.toInt ≤ i ∧ i ≤ Int64.maxValue.toInt then some (.integer i) else none

def decimalInteger? (cs : List Char) : Option Document := do
  let (negative, cs) := splitSign cs
  let n := Nat.ofDigitChars 10 (← whole? cs) 0
  bounded? (if negative then -n else n)

/-- An integer in another base, without sign. -/
def radixInteger? (base : Nat) (cs : List Char) : Option Document := do
  let isDigit (c : Char) : Bool := (hexDigit? c).any (· < base)
  let digits ← digits? isDigit cs
  bounded? (digits.foldl (fun n c => n * base + (hexDigit? c).getD 0) 0 : Nat)

def integer? (cs : List Char) : Option Document :=
  match cs with
  | '0' :: 'x' :: rest => radixInteger? 16 rest
  | '0' :: 'o' :: rest => radixInteger? 8 rest
  | '0' :: 'b' :: rest => radixInteger? 2 rest
  | cs => decimalInteger? cs

def isDigitOrUnderscore (c : Char) : Bool := c.isDigit || c == '_'

/-- The digits behind a point. -/
def fraction? (cs : List Char) : Option (List Char × List Char) :=
  match cs with
  | '.' :: rest => do
    some (← digits? Char.isDigit (rest.takeWhile isDigitOrUnderscore),
      rest.dropWhile isDigitOrUnderscore)
  | cs => some ([], cs)

/-- An exponent up to the end of the word. -/
def exponent? (cs : List Char) : Option (Option Int) :=
  match cs with
  | [] => some none
  | e :: rest => do
    if e = 'e' ∨ e = 'E' then
      let (negative, rest) := splitSign rest
      let n := Nat.ofDigitChars 10 (← digits? Char.isDigit rest) 0
      some (some (if negative then -(n : Int) else n))
    else none

/-- A number with a fraction or an exponent. -/
def decimalReal? (dialect : Dialect) (cs : List Char) : Option Document := do
  let (negative, cs) := splitSign cs
  let whole ← whole? (cs.takeWhile isDigitOrUnderscore)
  let (fraction, rest) ← fraction? (cs.dropWhile isDigitOrUnderscore)
  let exponent ← exponent? rest
  if fraction.isEmpty && exponent.isNone then none
  let n : Numeral :=
    ⟨negative, Nat.ofDigitChars 10 (whole ++ fraction) 0, fraction.length, exponent⟩
  let x := n.toBinary64
  if x.isInfinite ∧ ¬ (negative ∧ dialect.negativeOverflow) then none else some (.real x)

/-- What is infinite, or not a number. -/
def specialReal? (cs : List Char) : Option Document :=
  let (negative, cs) := splitSign cs
  if cs = "inf".toList then some (.real (.infinity negative))
  else if cs = "nan".toList then some (.real (.nan negative))
  else none

/-! ## Dates and times -/

/-- A number of exactly so many digits between two bounds. -/
def field? (width lower upper : Nat) (cs : List Char) : Option (Nat × List Char) :=
  let digits := cs.take width
  let n := Nat.ofDigitChars 10 digits 0
  if digits.length = width ∧ digits.all Char.isDigit ∧ lower ≤ n ∧ n ≤ upper then
    some (n, cs.drop width)
  else none

/-- Passes over one character. -/
def expect (c : Char) (cs : List Char) : Option (List Char) :=
  match cs with
  | d :: rest => if c = d then some rest else none
  | [] => none

def daysIn (year month : Nat) : Nat :=
  if month = 2 then if year % 4 = 0 ∧ (year % 100 ≠ 0 ∨ year % 400 = 0) then 29 else 28
  else if month = 4 ∨ month = 6 ∨ month = 9 ∨ month = 11 then 30
  else 31

/-- Passes over a date. -/
def skipDate (cs : List Char) : Option (List Char) := do
  let (year, cs) ← field? 4 0 9999 cs
  let (month, cs) ← field? 2 1 12 (← expect '-' cs)
  let (_, cs) ← field? 2 1 (daysIn year month) (← expect '-' cs)
  some cs

/-- Passes over the fraction of a second. -/
def skipFraction (cs : List Char) : Option (List Char) :=
  match cs with
  | '.' :: rest => if (rest.takeWhile Char.isDigit).isEmpty then none
    else some (rest.dropWhile Char.isDigit)
  | cs => some cs

/-- Passes over a time of day; a minute may have a leap second. -/
def skipTime (dialect : Dialect) (cs : List Char) : Option (List Char) := do
  let (_, cs) ← field? 2 0 23 cs
  let (_, cs) ← field? 2 0 59 (← expect ':' cs)
  match cs with
  | ':' :: rest => do
    let (_, cs) ← field? 2 0 60 rest
    skipFraction cs
  | cs => if dialect.timesToTheMinute then some cs else none

/-- Passes over the offset of a time zone, if there is one. -/
def skipOffset (cs : List Char) : Option (List Char) :=
  match cs with
  | 'Z' :: rest | 'z' :: rest => some rest
  | '+' :: rest | '-' :: rest => do
    let (_, cs) ← field? 2 0 23 rest
    let (_, cs) ← field? 2 0 59 (← expect ':' cs)
    some cs
  | cs => some cs

/-- The word is a date, a time, or both. -/
def isDateTime (dialect : Dialect) (cs : List Char) : Bool :=
  (match skipDate cs with
    | some [] => true
    | some (t :: rest) =>
      (t == 'T' || t == 't' || t == ' ') && ((skipTime dialect rest).bind skipOffset) == some []
    | none => false)
    || skipTime dialect cs == some []

def dateTime? (dialect : Dialect) (cs : List Char) : Option Document :=
  if isDateTime dialect cs then
    some (.record [("$date", .text (String.ofList cs))])
  else none

/-! ## Words -/

/-- A time of day stands behind a blank, so it belongs to the date before it. -/
def hasTimeBehind (cs : List Char) : Bool :=
  match cs with
  | ' ' :: a :: b :: ':' :: _ => a.isDigit && b.isDigit
  | _ => false

/-- The word at the front of a text. -/
def splitWord (cs : List Char) : List Char × List Char :=
  let word := cs.takeWhile isWordChar
  let rest := cs.dropWhile isWordChar
  if (skipDate word == some []) && hasTimeBehind rest then
    (word ++ ' ' :: (rest.drop 1).takeWhile isWordChar, (rest.drop 1).dropWhile isWordChar)
  else (word, rest)

/-- The value of a word. -/
def scalar? (dialect : Dialect) (word : List Char) : Option Document :=
  if word = "true".toList then some (.bool true)
  else if word = "false".toList then some (.bool false)
  else
    (integer? word).or ((specialReal? word).or
      ((decimalReal? dialect word).or (dateTime? dialect word)))

end Downlink.Toml
