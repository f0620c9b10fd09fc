import Downlink.Toml.Scalar
import Downlink.Toml.Table

/-!
# Reading TOML

A text is a sequence of lines: headers, key-value pairs, and lines without content.

Arrays and inline tables nest at most as deep as the dialect allows.  The readers of values take the
depth that is left, and the length of the text as fuel; each step of theirs reads a character.
-/

set_option autoImplicit false

namespace Downlink.Toml

/-- A key with its parts. -/
def readName (dialect : Dialect) (cs : List Char) : Option (List String × List Char) :=
  readPath dialect dialect.depthLimit cs

/-- Passes over what may stand between the parts of an inline table. -/
def skipInline (dialect : Dialect) (cs : List Char) : Option (List Char) :=
  if dialect.linesInTables then skipTrivia false cs else some (skipBlanks cs)

mutual

/-- A value of any kind. -/
def readValue (dialect : Dialect) :
    (depth fuel : Nat) → List Char → Option (Document × List Char)
  | _, 0, _ => none
  | depth, fuel + 1, cs =>
    match readQuoted? dialect cs with
    | some quoted => quoted.map fun (text, rest) => (.text (String.ofList text), rest)
    | none =>
      match cs, depth with
      | '[' :: _, 0 | '{' :: _, 0 => none
      | '[' :: rest, depth + 1 => do
        let (items, rest) ← readItems dialect depth fuel rest
        some (.list items, rest)
      | '{' :: rest, depth + 1 => do
        let (fields, rest) ← readInline dialect depth fuel [] rest
        some (fields.toDocument, rest)
      | cs, _ => do
        let (word, rest) := splitWord cs
        some (← scalar? dialect word, rest)

/-- The items of an array up to the closing bracket; a comma may stand before it. -/
def readItems (dialect : Dialect) :
    (depth fuel : Nat) → List Char → Option (List Document × List Char)
  | _, 0, _ => none
  | depth, fuel + 1, cs => do
    match ← skipTrivia false cs with
    | ']' :: rest => some ([], rest)
    | cs => do
      let (item, rest) ← readValue dialect depth fuel cs
      match ← skipTrivia false rest with
      | ',' :: rest => do
        let (items, rest) ← readItems dialect depth fuel rest
        some (item :: items, rest)
      | ']' :: rest => some ([item], rest)
      | _ => none

/-- The fields of an inline table up to the closing brace, added to `fields`. -/
def readInline (dialect : Dialect) :
    (depth fuel : Nat) → Fields → List Char → Option (Fields × List Char)
  | _, 0, _, _ => none
  | depth, fuel + 1, fields, cs => do
    match ← skipInline dialect cs with
    | '}' :: rest => if fields.isEmpty || dialect.linesInTables then some (fields, rest) else none
    | cs => do
      let (path, rest) ← readName dialect cs
      let rest ← expect '=' (← skipInline dialect rest)
      let (d, rest) ← readValue dialect depth fuel (← skipInline dialect rest)
      let fields ← fields.put dialect path d
      match ← skipInline dialect rest with
      | ',' :: rest => readInline dialect depth fuel fields rest
      | '}' :: rest => some (fields, rest)
      | _ => none

end

/-- What has been read of a text: the fields so far, and the header in force. -/
structure Section where
  header : List String
  fields : Fields

/-- The inside of a header. -/
def readHeader (dialect : Dialect) (cs : List Char) : Option (List String × List Char) :=
  readName dialect (skipBlanks cs)

/-- One line with content. -/
def readLine (dialect : Dialect) (s : Section) (cs : List Char) : Option (Section × List Char) :=
  match cs with
  | '[' :: '[' :: rest => do
    let (path, rest) ← readHeader dialect rest
    let rest ← expect ']' (← expect ']' rest)
    some (⟨path, ← s.fields.begin path⟩, ← endLine rest)
  | '[' :: rest => do
    let (path, rest) ← readHeader dialect rest
    let rest ← expect ']' rest
    some (⟨path, ← s.fields.define path⟩, ← endLine rest)
  | cs => do
    let (path, rest) ← readName dialect cs
    let rest ← expect '=' rest
    let (d, rest) ← readValue dialect dialect.depthLimit (2 * rest.length + 2) (skipBlanks rest)
    some (⟨s.header, ← s.fields.putIn dialect s.header path d⟩, ← endLine rest)

/-- Lines up to the end of the text, at most `limit` of them with content. -/
def readLines (dialect : Dialect) : (limit : Nat) → Section → List Char → Option Fields
  | 0, _, _ => none
  | limit + 1, s, cs => do
    match ← skipTrivia false cs with
    | [] => some s.fields
    | cs => do
      let (s, rest) ← readLine dialect s cs
      readLines dialect limit s rest

/-- A byte order mark in front of a text does not count. -/
def skipMark (cs : List Char) : List Char :=
  match cs with
  | '\ufeff' :: rest => rest
  | cs => cs

def read (dialect : Dialect) (cs : List Char) : Option Document :=
  let cs := normalizeBreaks (skipMark cs)
  (readLines dialect (cs.length + 1) ⟨[], []⟩ cs).map Fields.toDocument

end Downlink.Toml

namespace Downlink.Document

/-- The document of a TOML text. -/
def ofToml? (dialect : Toml.Dialect) (text : String) : Option Document :=
  Toml.read dialect text.toList

end Downlink.Document
