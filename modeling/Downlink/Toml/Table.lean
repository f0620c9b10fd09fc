import Downlink.Document.Basic
import Downlink.Toml.Dialect

/-!
# TOML tables

A table is filled by key-value lines and by headers, in any order, but each part of it may be
defined only once:

* a header defines a table, and opens the tables on the way to it;
* an opened table may be defined by a later header, a defined one may not;
* the tables on the way of a dotted key are dotted; only dotted keys fill them further, and in
  some dialects dotted keys fill opened tables too;
* a value, an inline table included, is closed.
-/

set_option autoImplicit false

namespace Downlink.Toml

/-- How a table came about. -/
inductive Origin where
  /-- On the way to a table that a header defines. -/
  | opened
  /-- On the way of a dotted key. -/
  | dotted
  /-- By a header of its own. -/
  | defined
deriving DecidableEq, Repr

/-- What a key stands for. -/
inductive Node where
  | value (d : Document)
  | table (origin : Origin) (fields : List (String × Node))
  /-- Tables of one name, as headers in double brackets define them. -/
  | array (tables : List (List (String × Node)))

abbrev Fields := List (String × Node)

namespace Node

mutual

def toDocument : Node → Document
  | .value d => d
  | .table _ fields => .record (fieldDocuments fields)
  | .array tables => .list (tableDocuments tables)

def fieldDocuments : List (String × Node) → List (String × Document)
  | [] => []
  | (key, node) :: rest => (key, node.toDocument) :: fieldDocuments rest

def tableDocuments : List (List (String × Node)) → List Document
  | [] => []
  | fields :: rest => .record (fieldDocuments fields) :: tableDocuments rest

end

end Node

namespace Fields

def toDocument (fields : Fields) : Document := .record (Node.fieldDocuments fields)

def node? (fields : Fields) (key : String) : Option Node := List.lookup key fields

/-- Sets a key in its place, or behind the others. -/
def set (key : String) (node : Node) : Fields → Fields
  | [] => [(key, node)]
  | (k, n) :: rest => if k = key then (key, node) :: rest else (k, n) :: set key node rest

/-- Adds a key that is not there yet. -/
def add (key : String) (node : Node) (fields : Fields) : Option Fields :=
  if (fields.node? key).isSome then none else some (fields.set key node)

/--
Changes the table at the end of a path, from the table's own origin and fields.  Tables that are
missing on the way come about as `way` says; only paths of headers go through defined tables.
-/
def change (way : Origin) (f : Origin → Fields → Option Fields) :
    List String → Origin → Fields → Option Fields
  | [], origin, fields => f origin fields
  | key :: path, _, fields =>
    match fields.node? key with
    | none => do
      let child ← change way f path way []
      some (fields.set key (.table way child))
    | some (.value _) => none
    | some (.table origin child) =>
      if way = .dotted ∧ origin = .defined then none
      else do
        let child ← change way f path origin child
        some (fields.set key (.table origin child))
    | some (.array tables) => do
      let last ← tables.getLast?
      let child ← change way f path .defined last
      some (fields.set key (.array (tables.dropLast ++ [child])))

/-- Dotted keys may add fields to a table of this origin. -/
def isFilled (dialect : Dialect) (origin : Origin) : Bool :=
  match origin with
  | .dotted => true
  | .opened => dialect.fillsOpened
  | .defined => false

/-- Adds a value under a key of one part, or whose path ends in a table that dotted keys fill. -/
def put (dialect : Dialect) (path : List String) (d : Document) (fields : Fields) :
    Option Fields := do
  let key ← path.getLast?
  let way := path.dropLast
  change .dotted
    (fun origin fields =>
      if way.isEmpty || isFilled dialect origin then fields.add key (.value d) else none)
    way .defined fields

/-- Defines a table by its header. -/
def define (path : List String) (fields : Fields) : Option Fields := do
  let key ← path.getLast?
  change .opened
    (fun _ fields =>
      match fields.node? key with
      | none => some (fields.set key (.table .defined []))
      | some (.table .opened child) => some (fields.set key (.table .defined child))
      | some _ => none)
    path.dropLast .defined fields

/-- Begins another table of a name by a header in double brackets. -/
def begin (path : List String) (fields : Fields) : Option Fields := do
  let key ← path.getLast?
  change .opened
    (fun _ fields =>
      match fields.node? key with
      | none => some (fields.set key (.array [[]]))
      | some (.array tables) => some (fields.set key (.array (tables ++ [[]])))
      | some _ => none)
    path.dropLast .defined fields

/-- Adds a value in the table that a header has defined. -/
def putIn (dialect : Dialect) (header path : List String) (d : Document) (fields : Fields) :
    Option Fields :=
  change .opened (fun _ fields => fields.put dialect path d) header .defined fields

end Fields

end Downlink.Toml
