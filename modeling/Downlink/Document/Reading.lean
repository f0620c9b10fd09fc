import Downlink.Document.Basic
import Downlink.SortedMap

/-!
# Reading values from documents

A reader is a function `Document → Option α`; why a document does not fit is not told.

A structure is written as a record of named fields or as a list of its fields in order.  `Parts` is
what both have in common: a field is looked up by name and by position.  Unknown names are passed
over, a name given twice is an error.  The two text formats differ in two places, so readers of
structures and of variants are told the format.
-/

set_option autoImplicit false

namespace Downlink

/-- The text a document was read from. -/
inductive DocumentFormat where
  | json
  | toml
deriving DecidableEq, Repr

/-- The fields of a structure, by name or in order. -/
inductive Parts where
  | named (fields : List (String × Document))
  | positional (items : List Document)

namespace Parts

/-- A field of the structure, absent or present; no answer if its name is repeated. -/
def find? (parts : Parts) (index : Nat) (name : String) : Option (Option Document) :=
  match parts with
  | .positional items => some items[index]?
  | .named fields =>
    match fields.filter (·.1 == name) with
    | [] => some none
    | [(_, d)] => some (some d)
    | _ => none

variable {α : Type}

/-- A field that has to be there. -/
def required (parts : Parts) (index : Nat) (name : String) (read : Document → Option α) :
    Option α :=
  (parts.find? index name).bind fun found => found.bind read

/-- A field with a default. -/
def withDefault (parts : Parts) (index : Nat) (name : String) (default : α)
    (read : Document → Option α) : Option α :=
  (parts.find? index name).bind fun found => (found.map read).getD (some default)

end Parts

namespace Document

variable {α : Type}

/-- The fields of a structure of `count` fields.  JSON refuses a list with more items than that. -/
def parts? (format : DocumentFormat) (count : Nat) : Document → Option Parts
  | .record fields => some (.named fields)
  | .list items => if items.length ≤ count ∨ format = .toml then some (.positional items) else none
  | _ => none

/-- The name of a variant without data: the name alone, or a record that gives it nothing. -/
def variant? (format : DocumentFormat) : Document → Option String
  | .text name => some name
  | .record [(name, payload)] =>
    match format, payload with
    | .json, .null => some name
    | .toml, .list [] | .toml, .record [] => some name
    | _, _ => none
  | _ => none

def text? : Document → Option String
  | .text s => some s
  | _ => none

def bool? : Document → Option Bool
  | .bool b => some b
  | _ => none

/-- An integer between two bounds, both included. -/
def integer? (lower upper : Int) : Document → Option Int
  | .integer i => if lower ≤ i ∧ i ≤ upper then some i else none
  | _ => none

def uint32? (d : Document) : Option UInt32 :=
  (d.integer? 0 (UInt32.size - 1)).map fun i => .ofNat i.toNat

def uint64? (d : Document) : Option UInt64 :=
  (d.integer? 0 (UInt64.size - 1)).map fun i => .ofNat i.toNat

def int32? (d : Document) : Option Int32 :=
  (d.integer? Int32.minValue.toInt Int32.maxValue.toInt).map Int32.ofInt

def int64? (d : Document) : Option Int64 :=
  (d.integer? Int64.minValue.toInt Int64.maxValue.toInt).map Int64.ofInt

/-- Any number; integers are rounded. -/
def binary64? : Document → Option Binary64
  | .integer i => some (.ofInt i)
  | .real x => some x
  | _ => none

def list? (read : Document → Option α) : Document → Option (List α)
  | .list items => items.mapM read
  | _ => none

/-- `null`, or a value. -/
def nullable? (read : Document → Option α) : Document → Option (Option α)
  | .null => some none
  | d => (read d).map some

/-- A record whose names are keys; of a repeated key the last value counts. -/
def map? {κ : Type} [Ord κ] [Std.TransOrd κ] (key : String → Option κ)
    (read : Document → Option α) : Document → Option (SortedMap κ α)
  | .record fields =>
    (fields.mapM fun (name, d) => do some (← key name, ← read d)).map SortedMap.ofList
  | _ => none

end Document

end Downlink
