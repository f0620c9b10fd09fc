import Downlink.Config.Document
import Downlink.Config.File

/-!
# Loading a configuration

A configuration comes from a file and from environment variables, which override the file.
Both give names to values; the last value of a name counts, names nobody asks for are passed over,
and what is not named keeps its default.

Values are converted generously: the environment has only texts, and operators write `on` for `true`
or `1`.  A name may also be a path into a value, such as `name.part`; no field has parts, so giving
one a part makes it unreadable.
-/

set_option autoImplicit false

namespace Downlink

namespace Config

/-- Why no configuration was loaded. -/
inductive LoadError where
  /-- There is no file, it has no fields, or a value does not fit its field. -/
  | unreadable
  | invalid (error : ConfigError)
deriving DecidableEq

/-! ## Texts as numbers -/

/-- The natural that digits write. -/
def digitsValue? (cs : List Char) : Option Nat :=
  if cs.isEmpty || !cs.all Char.isDigit then none else some (Nat.ofDigitChars 10 cs 0)

/-- An unsigned 64-bit integer; a plus sign may stand in front. -/
def textUInt64? (s : String) : Option UInt64 := do
  let n ← match s.toList with
    | '+' :: rest => digitsValue? rest
    | cs => digitsValue? cs
  if n < UInt64.size then some (.ofNat n) else none

/-- A signed 64-bit integer. -/
def textInteger? (s : String) : Option Int := do
  let (negative, cs) := splitSign s.toList
  let n ← digitsValue? cs
  let i : Int := if negative then -n else n
  if Int64.minValue.toInt ≤ i ∧ i ≤ Int64.maxValue.toInt then some i else none

/-- The exponent at the end of a decimal. -/
def textExponent? (cs : List Char) : Option (Option Int) :=
  match cs with
  | [] => some none
  | e :: rest => do
    if e = 'e' ∨ e = 'E' then
      let (negative, rest) := splitSign rest
      let n : Int ← digitsValue? rest
      some (some (if negative then -n else n))
    else none

/-- A decimal; there are digits on at least one side of the point. -/
def decimal? (negative : Bool) (cs : List Char) : Option Binary64 := do
  let whole := cs.takeWhile Char.isDigit
  let (fraction, rest) := match cs.dropWhile Char.isDigit with
    | '.' :: rest => (rest.takeWhile Char.isDigit, rest.dropWhile Char.isDigit)
    | rest => ([], rest)
  let exponent ← textExponent? rest
  if whole.isEmpty && fraction.isEmpty then none
  some (Numeral.toBinary64
    ⟨negative, Nat.ofDigitChars 10 (whole ++ fraction) 0, fraction.length, exponent⟩)

/-- A binary64 number, or a word for what is not finite. -/
def textReal? (s : String) : Option Binary64 :=
  let (negative, cs) := splitSign s.toList
  let word := String.ofList (cs.map Char.toLower)
  if word = "inf" ∨ word = "infinity" then some (.infinity negative)
  else if word = "nan" then some (.nan negative)
  else decimal? negative cs

/-- The words for yes and no. -/
def switch? (s : String) : Option Bool :=
  let word := String.ofList (s.toList.map Char.toLower)
  if word = "true" ∨ word = "on" ∨ word = "yes" then some true
  else if word = "false" ∨ word = "off" ∨ word = "no" then some false
  else none

/-! ## Generous readers -/

def anyReal? : Document → Option Binary64
  | .integer i => some (.ofInt i)
  | .real x => some x
  | .bool b => some (.ofNat b.toNat)
  | .text s =>
    match switch? s with
    | some b => some (.ofNat b.toNat)
    | none => textReal? s
  | _ => none

/-- Reals are rounded, and held inside the range. -/
def anyUInt64? : Document → Option UInt64
  | .integer i => if 0 ≤ i ∧ i < UInt64.size then some (.ofNat i.toNat) else none
  | .real x => some x.roundToUInt64Clamped
  | .bool b => some b.toUInt64
  | .text s =>
    match switch? s with
    | some b => some b.toUInt64
    | none => textUInt64? s
  | _ => none

def anyUInt32? (d : Document) : Option UInt32 := do
  let n ← anyUInt64? d
  if n.toNat < UInt32.size then some n.toUInt32 else none

def anyBool? : Document → Option Bool
  | .bool b => some b
  | .integer i => some (i != 0)
  | .real x => some !(x == .zero false)
  | .text s => if s = "1" then some true else if s = "0" then some false else switch? s
  | _ => none

def generousReaders : FieldReaders := ⟨anyReal?, anyUInt64?, anyUInt32?, anyBool?⟩

/-! ## Names -/

def isNameChar (c : Char) : Bool := c.isAlphanum || c == '_' || c == '-'

/-- Passes over an index and its closing bracket; blanks may stand around a 64-bit integer. -/
def skipIndex (cs : List Char) : Option (List Char) := do
  let (negative, cs) := match Toml.skipBlanks cs with
    | '-' :: rest => (true, rest)
    | rest => (false, rest)
  let n ← digitsValue? (cs.takeWhile Char.isDigit)
  let i : Int := if negative then -n else n
  match Toml.skipBlanks (cs.dropWhile Char.isDigit) with
  | ']' :: rest =>
    if Int64.minValue.toInt ≤ i ∧ i ≤ Int64.maxValue.toInt then some rest else none
  | _ => none

/-- Passes over the parts of a path behind its first name; fails if it is none. -/
def skipParts : (limit : Nat) → List Char → Option Unit
  | _, [] => some ()
  | 0, _ => none
  | limit + 1, '.' :: rest =>
    if (rest.takeWhile isNameChar).isEmpty then none
    else skipParts limit (rest.dropWhile isNameChar)
  | limit + 1, '[' :: rest => (skipIndex rest).bind (skipParts limit)
  | _, _ => none

/-- What a name and its value set: the value, or a part of it. -/
def assignment (name : String) (d : Document) : String × Document :=
  let cs := name.toList
  let root := cs.takeWhile isNameChar
  let parts := cs.dropWhile isNameChar
  if root.isEmpty || parts.isEmpty || (skipParts parts.length parts).isNone then (name, d)
  else (String.ofList root, .record [])

/-- The fields after assignments in order: of those with one name the last one counts. -/
def assign (fields : List (String × Document)) : List (String × Document) → List (String × Document)
  | [] => fields
  | (name, d) :: rest => assign (fields.filter (·.1 != name) ++ [(name, d)]) rest

/-! ## Environment -/

/-- What the names of variables start with; their case does not count. -/
def environmentMark : List Char := "bwalloc__".toList

/-- Double underscores separate the parts of a path. -/
def pathText : List Char → List Char
  | '_' :: '_' :: rest => '.' :: pathText rest
  | c :: rest => c :: pathText rest
  | [] => []

/-- The value of a variable: a boolean, an integer, a real, else its text. -/
def variableValue (s : String) : Document :=
  let word := String.ofList (s.toList.map Char.toLower)
  if word = "true" then .bool true
  else if word = "false" then .bool false
  else match textInteger? s with
    | some i => .integer i
    | none => ((textReal? s).map Document.real).getD (.text s)

/-- What a variable sets, if it is meant for the configuration. -/
def variableField? (name value : String) : Option (String × Document) :=
  let cs := name.toList.map Char.toLower
  if environmentMark.isPrefixOf cs then
    some (assignment (String.ofList (pathText (cs.drop environmentMark.length)))
      (variableValue value))
  else none

/-! ## Loading -/

/-- Reads the file and then the environment, without checking the result. -/
def read? (file : File) (environment : List (String × String)) : Option Config := do
  let fields ← file.fields?
  let overrides := environment.filterMap fun (name, value) => variableField? name value
  let assignments := fields.map (fun (name, d) => assignment name d) ++ overrides
  ofParts? generousReaders (.named (assign [] assignments))

/-- Loads a valid configuration. -/
def load (file : File) (environment : List (String × String)) : Except LoadError Config := do
  let config ← (read? file environment).elim (.error .unreadable) .ok
  (config.validate).mapError .invalid
  .ok config

end Config

end Downlink
