import Downlink.Hexadecimal
import Downlink.Toml.Dialect

/-!
# TOML text: blanks, comments, keys and strings

Readers over the characters of a text in which line breaks are already normalized, so a line feed is
the only break and a carriage return is a control character like any other.

Quoted texts are read by structural recursion: a multi-line text remembers whether it is passing
over the blanks behind a line-ending backslash.
-/

set_option autoImplicit false

namespace Downlink.Toml

/-- Line breaks as line feeds; a carriage return elsewhere stays. -/
def normalizeBreaks : List Char → List Char
  | '\r' :: '\n' :: rest => '\n' :: normalizeBreaks rest
  | c :: rest => c :: normalizeBreaks rest
  | [] => []

def isBlank (c : Char) : Bool := c == ' ' || c == '\t'

def skipBlanks (cs : List Char) : List Char := cs.dropWhile isBlank

/-- Characters that may stand in comments and on one line of a quoted text. -/
def isPlain (c : Char) : Bool := c == '\t' || (32 ≤ c.toNat && c.toNat != 127)

/-- Passes over a comment, if there is one, up to the end of the line. -/
def skipComment (cs : List Char) : Option (List Char) :=
  match cs with
  | '#' :: rest =>
    match rest.dropWhile isPlain with
    | [] => some []
    | '\n' :: rest => some ('\n' :: rest)
    | _ => none
  | cs => some cs

/-- Passes over blanks and a comment up to the end of the line. -/
def endLine (cs : List Char) : Option (List Char) := do
  match ← skipComment (skipBlanks cs) with
  | [] => some []
  | '\n' :: rest => some rest
  | _ => none

/-- Passes over blanks, line breaks and comments. -/
def skipTrivia (inComment : Bool) : List Char → Option (List Char)
  | [] => some []
  | c :: rest =>
    if c = '\n' then skipTrivia false rest
    else if inComment then if isPlain c then skipTrivia true rest else none
    else if isBlank c then skipTrivia false rest
    else if c = '#' then skipTrivia true rest
    else some (c :: rest)

/-! ## Quoted texts -/

/-- The character of a hexadecimal code point; surrogates are none. -/
def codePoint? (digits : List Char) : Option Char := do
  let code ← digits.foldlM (fun n c => (hexDigit? c).map (n * 16 + ·)) 0
  if code < 0xD800 ∨ (0xE000 ≤ code ∧ code < 0x110000) then some (Char.ofNat code) else none

/-- The character after a backslash. -/
def unescape? (dialect : Dialect) : Char → Option Char
  | '"' => some '"'
  | '\\' => some '\\'
  | 'b' => some '\x08'
  | 'f' => some '\x0c'
  | 'n' => some '\n'
  | 'r' => some '\r'
  | 't' => some '\t'
  | 'e' => if dialect.shortEscapes then some '\x1b' else none
  | _ => none

/-- The character of a code point of two digits. -/
def shortCodePoint? (dialect : Dialect) (digits : List Char) : Option Char :=
  if dialect.shortEscapes then codePoint? digits else none

/-- Puts a character in front of what was read. -/
def withHead (c : Option Char) (read : Option (List Char × List Char)) :
    Option (List Char × List Char) := do
  let c ← c
  let (text, rest) ← read
  some (c :: text, rest)

/-- A text on one line, after the opening quote. -/
def readBasic (dialect : Dialect) : List Char → Option (List Char × List Char)
  | '"' :: rest => some ([], rest)
  | '\\' :: 'x' :: a :: b :: rest =>
    withHead (shortCodePoint? dialect [a, b]) (readBasic dialect rest)
  | '\\' :: 'u' :: a :: b :: c :: d :: rest =>
    withHead (codePoint? [a, b, c, d]) (readBasic dialect rest)
  | '\\' :: 'U' :: a :: b :: c :: d :: e :: f :: g :: h :: rest =>
    withHead (codePoint? [a, b, c, d, e, f, g, h]) (readBasic dialect rest)
  | '\\' :: c :: rest => withHead (unescape? dialect c) (readBasic dialect rest)
  | c :: rest => if isPlain c then withHead (some c) (readBasic dialect rest) else none
  | [] => none

/-- A text on one line without escapes, after the opening quote. -/
def readLiteral : List Char → Option (List Char × List Char)
  | '\'' :: rest => some ([], rest)
  | c :: rest => if isPlain c then withHead (some c) (readLiteral rest) else none
  | [] => none

/-- Up to two quotes may stand right before the closing three. -/
def closeLong (quote : Char) (cs : List Char) : List Char × List Char :=
  match cs with
  | a :: b :: rest =>
    if a = quote ∧ b = quote then ([quote, quote], rest)
    else if a = quote then ([quote], b :: rest)
    else ([], cs)
  | [a] => if a = quote then ([quote], []) else ([], [a])
  | [] => ([], [])

/-- Only blanks stand before the end of the line. -/
def endsLine (cs : List Char) : Bool :=
  match skipBlanks cs with
  | '\n' :: _ => true
  | _ => false

/-- A text over several lines, after the opening quotes.  Blanks are left out while `skipping`. -/
def readLongBasic (dialect : Dialect) (skipping : Bool) :
    List Char → Option (List Char × List Char)
  | '"' :: '"' :: '"' :: rest => some (closeLong '"' rest)
  | '\\' :: 'x' :: a :: b :: rest =>
    withHead (shortCodePoint? dialect [a, b]) (readLongBasic dialect false rest)
  | '\\' :: 'u' :: a :: b :: c :: d :: rest =>
    withHead (codePoint? [a, b, c, d]) (readLongBasic dialect false rest)
  | '\\' :: 'U' :: a :: b :: c :: d :: e :: f :: g :: h :: rest =>
    withHead (codePoint? [a, b, c, d, e, f, g, h]) (readLongBasic dialect false rest)
  | '\\' :: c :: rest =>
    if endsLine (c :: rest) then readLongBasic dialect true rest
    else withHead (unescape? dialect c) (readLongBasic dialect false rest)
  | c :: rest =>
    if skipping && (isBlank c || c == '\n') then readLongBasic dialect true rest
    else if isPlain c || c == '\n' then withHead (some c) (readLongBasic dialect false rest)
    else none
  | [] => none

/-- A text over several lines without escapes, after the opening quotes. -/
def readLongLiteral : List Char → Option (List Char × List Char)
  | '\'' :: '\'' :: '\'' :: rest => some (closeLong '\'' rest)
  | c :: rest =>
    if isPlain c || c == '\n' then withHead (some c) (readLongLiteral rest) else none
  | [] => none

/-- A line break right behind the opening quotes does not count. -/
def skipFirstBreak (cs : List Char) : List Char :=
  match cs with
  | '\n' :: rest => rest
  | cs => cs

/-- A quoted text of any kind; none at all if the text does not start with a quote. -/
def readQuoted? (dialect : Dialect) (cs : List Char) :
    Option (Option (List Char × List Char)) :=
  match cs with
  | '"' :: '"' :: '"' :: rest => some (readLongBasic dialect false (skipFirstBreak rest))
  | '\'' :: '\'' :: '\'' :: rest => some (readLongLiteral (skipFirstBreak rest))
  | '"' :: rest => some (readBasic dialect rest)
  | '\'' :: rest => some (readLiteral rest)
  | _ => none

/-! ## Keys -/

def isKeyChar (c : Char) : Bool := c.isAlphanum || c == '_' || c == '-'

/-- One part of a key, bare or quoted on one line. -/
def readKey (dialect : Dialect) (cs : List Char) : Option (String × List Char) :=
  match cs with
  | '"' :: rest => (readBasic dialect rest).map fun (text, rest) => (String.ofList text, rest)
  | '\'' :: rest => (readLiteral rest).map fun (text, rest) => (String.ofList text, rest)
  | cs =>
    match cs.takeWhile isKeyChar with
    | [] => none
    | name => some (String.ofList name, cs.dropWhile isKeyChar)

/-- The parts of a key between points; at most `limit` of them. -/
def readPath (dialect : Dialect) :
    (limit : Nat) → List Char → Option (List String × List Char)
  | 0, _ => none
  | limit + 1, cs => do
    let (key, rest) ← readKey dialect cs
    match skipBlanks rest with
    | '.' :: rest => do
      let (path, rest) ← readPath dialect limit (skipBlanks rest)
      some (key :: path, rest)
    | rest => some ([key], rest)

end Downlink.Toml
