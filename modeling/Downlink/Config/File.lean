import Downlink.Document.Reading
import Downlink.Json.Library
import Downlink.Toml.Reader

/-!
# Configuration files

A configuration file is TOML 1.1 or JSON, and holds a record.

Integers of a configuration are signed and of 64 bits; a JSON integer above them is read as a real.
A part of a JSON text that has no value spoils the whole file, wherever it stands.
-/

set_option autoImplicit false

namespace Downlink.Config

/-- The file of a configuration. -/
inductive File where
  | unset
  | missing
  | content (format : DocumentFormat) (text : String)
deriving DecidableEq

/-- A byte order mark in front of a file does not count. -/
def withoutMark (text : String) : String := String.ofList (Toml.skipMark text.toList)

/-! ## JSON -/

mutual

/-- Every part of a document has a value, and lists and records nest at most `depth` deep. -/
def isWhole (depth : Nat) : Document → Bool
  | .unreadable => false
  | .list items => 0 < depth && areWhole (depth - 1) items
  | .record fields => 0 < depth && fieldsAreWhole (depth - 1) fields
  | _ => true

def areWhole (depth : Nat) : List Document → Bool
  | [] => true
  | d :: rest => isWhole depth d && areWhole depth rest

def fieldsAreWhole (depth : Nat) : List (String × Document) → Bool
  | [] => true
  | (_, d) :: rest => isWhole depth d && fieldsAreWhole depth rest

end

/-- An integer beyond the signed ones is a real. -/
def signed (d : Document) : Document :=
  match d with
  | .integer i => if i ≤ Int64.maxValue.toInt then .integer i else .real (.ofInt i)
  | d => d

/-! ## Fields -/

/-- The fields that a text sets. -/
def fieldsOf? (format : DocumentFormat) (text : String) : Option (List (String × Document)) :=
  match format with
  | .toml =>
    match Document.ofToml? .version11 text with
    | some (.record fields) => some fields
    | _ => none
  | .json =>
    match Document.ofJson? text with
    | some (.record fields) =>
      if isWhole JsonLibrary.depthLimit (.record fields) then
        some (fields.map fun (name, d) => (name, signed d))
      else none
    | _ => none

/-- The fields that a file sets. -/
def File.fields? : File → Option (List (String × Document))
  | .unset => some []
  | .missing => none
  | .content format text => fieldsOf? format (withoutMark text)

end Downlink.Config
