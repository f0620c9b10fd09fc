import Downlink.Document.Basic
import Downlink.Hexadecimal

/-!
# Reading JSON

A reader takes the front of a text and returns what it read with the rest.  The grammar is the one
of RFC 8259: four blanks, no leading zeros, no trailing commas, no raw control characters.

String escapes are UTF-16 code units.  They are collected first and joined afterwards, so a string
with half of a surrogate pair is well formed and has no text.

A number is read as a numeral, without loss; what it stands for is the nearest binary64 number.

The nesting of a text is bounded by its length, which is the fuel of the recursive readers; a text
never runs out of it (each call either reads a character or is followed by one that does).
-/

set_option autoImplicit false

namespace Downlink.Json

def isBlank (c : Char) : Bool := c == ' ' || c == '\n' || c == '\t' || c == '\r'

def skipBlanks (cs : List Char) : List Char := cs.dropWhile isBlank

/-! ## Numbers -/

/-- Reads a run of one or more digits. -/
def readDigits (cs : List Char) : Option (List Char × List Char) :=
  match cs.takeWhile Char.isDigit with
  | [] => none
  | ds => some (ds, cs.dropWhile Char.isDigit)

/-- Reads an integer part: `0`, or digits that do not start with one. -/
def readWhole (cs : List Char) : Option (List Char × List Char) :=
  match cs with
  | '0' :: rest => some (['0'], rest)
  | cs => readDigits cs

/-- Reads a point and the digits behind it, if there is one. -/
def readFraction (cs : List Char) : Option (List Char × List Char) :=
  match cs with
  | '.' :: rest => readDigits rest
  | cs => some ([], cs)

/-- Reads an exponent, if there is one. -/
def readExponent (cs : List Char) : Option (Option Int × List Char) :=
  match cs with
  | 'e' :: rest | 'E' :: rest => do
    let (negative, rest) := splitSign rest
    let (digits, rest) ← readDigits rest
    let n : Int := Nat.ofDigitChars 10 digits 0
    some (some (if negative then -n else n), rest)
  | cs => some (none, cs)

/-- Reads an unsigned number. -/
def readUnsigned (negative : Bool) (cs : List Char) : Option (Numeral × List Char) := do
  let (whole, cs) ← readWhole cs
  let (fraction, cs) ← readFraction cs
  let (exponent, cs) ← readExponent cs
  some (⟨negative, Nat.ofDigitChars 10 (whole ++ fraction) 0, fraction.length, exponent⟩, cs)

def readNumeral (cs : List Char) : Option (Numeral × List Char) :=
  match cs with
  | '-' :: rest => readUnsigned true rest
  | cs => readUnsigned false cs

/-! ## Strings -/

/-- What a string is made of: characters, and escaped UTF-16 code units. -/
inductive Piece where
  | char (c : Char)
  | unit (code : Nat)
deriving DecidableEq, Repr

/-- The code unit of four hexadecimal digits. -/
def hexUnit? (a b c d : Char) : Option Nat := do
  let a ← hexDigit? a
  let b ← hexDigit? b
  let c ← hexDigit? c
  let d ← hexDigit? d
  some (((a * 16 + b) * 16 + c) * 16 + d)

/-- The character after a backslash. -/
def unescape? : Char → Option Char
  | '"' => some '"'
  | '\\' => some '\\'
  | '/' => some '/'
  | 'b' => some '\x08'
  | 'f' => some '\x0c'
  | 'n' => some '\n'
  | 'r' => some '\r'
  | 't' => some '\t'
  | _ => none

/-- Reads the pieces of a string up to the closing quote. -/
def readPieces : List Char → Option (List Piece × List Char)
  | [] => none
  | '"' :: rest => some ([], rest)
  | '\\' :: 'u' :: a :: b :: c :: d :: rest => do
    let code ← hexUnit? a b c d
    let (pieces, rest) ← readPieces rest
    some (.unit code :: pieces, rest)
  | '\\' :: c :: rest => do
    let c ← unescape? c
    let (pieces, rest) ← readPieces rest
    some (.char c :: pieces, rest)
  | c :: rest =>
    if c = '\\' ∨ c.toNat < 32 then none
    else do
      let (pieces, rest) ← readPieces rest
      some (.char c :: pieces, rest)

def isLeading (code : Nat) : Bool := 0xD800 ≤ code && code < 0xDC00

def isTrailing (code : Nat) : Bool := 0xDC00 ≤ code && code < 0xE000

/-- The characters of a string, if every surrogate has its partner. -/
def joinPieces : List Piece → Option (List Char)
  | [] => some []
  | .char c :: rest => (joinPieces rest).map (c :: ·)
  | [.unit code] =>
    if isLeading code || isTrailing code then none else some [Char.ofNat code]
  | .unit code :: next :: rest =>
    if isLeading code then
      match next with
      | .unit low =>
        if isTrailing low then
          (joinPieces rest).map
            (Char.ofNat (0x10000 + (code - 0xD800) * 1024 + (low - 0xDC00)) :: ·)
        else none
      | .char _ => none
    else if isTrailing code then none
    else (joinPieces (next :: rest)).map (Char.ofNat code :: ·)

/-- Reads a string after its opening quote; the text is absent if a surrogate stands alone. -/
def readString (cs : List Char) : Option (Option String × List Char) :=
  (readPieces cs).map fun (pieces, rest) => ((joinPieces pieces).map String.ofList, rest)

/-! ## Values -/

/-- A record, unless one of its names has no text. -/
def recordOf (fields : List (Option String × Document)) : Document :=
  match fields.mapM fun (name, d) => name.map (·, d) with
  | some fields => .record fields
  | none => .unreadable

mutual

def readValue : (fuel : Nat) → List Char → Option (Document × List Char)
  | 0, _ => none
  | fuel + 1, cs =>
    match skipBlanks cs with
    | 'n' :: 'u' :: 'l' :: 'l' :: rest => some (.null, rest)
    | 't' :: 'r' :: 'u' :: 'e' :: rest => some (.bool true, rest)
    | 'f' :: 'a' :: 'l' :: 's' :: 'e' :: rest => some (.bool false, rest)
    | '"' :: rest => do
      let (text, rest) ← readString rest
      some ((text.map Document.text).getD .unreadable, rest)
    | '[' :: rest =>
      match skipBlanks rest with
      | ']' :: rest => some (.list [], rest)
      | rest => do
        let (items, rest) ← readItems fuel rest
        some (.list items, rest)
    | '{' :: rest =>
      match skipBlanks rest with
      | '}' :: rest => some (.record [], rest)
      | rest => do
        let (fields, rest) ← readFields fuel rest
        some (recordOf fields, rest)
    | cs => do
      let (n, rest) ← readNumeral cs
      some (.ofNumeral n, rest)

/-- Reads items up to the closing bracket. -/
def readItems : (fuel : Nat) → List Char → Option (List Document × List Char)
  | 0, _ => none
  | fuel + 1, cs => do
    let (d, rest) ← readValue fuel cs
    match skipBlanks rest with
    | ',' :: rest => do
      let (items, rest) ← readItems fuel rest
      some (d :: items, rest)
    | ']' :: rest => some ([d], rest)
    | _ => none

/-- Reads named fields up to the closing brace. -/
def readFields : (fuel : Nat) → List Char → Option (List (Option String × Document) × List Char)
  | 0, _ => none
  | fuel + 1, cs =>
    match skipBlanks cs with
    | '"' :: rest => do
      let (name, rest) ← readString rest
      match skipBlanks rest with
      | ':' :: rest => do
        let (d, rest) ← readValue fuel rest
        match skipBlanks rest with
        | ',' :: rest => do
          let (fields, rest) ← readFields fuel rest
          some ((name, d) :: fields, rest)
        | '}' :: rest => some ([(name, d)], rest)
        | _ => none
      | _ => none
    | _ => none

end

/-- Reads a whole text: one value, and blanks around it. -/
def read (cs : List Char) : Option Document := do
  let (d, rest) ← readValue (2 * cs.length + 2) cs
  if (skipBlanks rest).isEmpty then some d else none

end Downlink.Json

namespace Downlink.Document

/-- The document of a JSON text. -/
def ofJson? (text : String) : Option Document := Json.read text.toList

end Downlink.Document
