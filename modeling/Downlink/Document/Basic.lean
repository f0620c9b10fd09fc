import Downlink.Numeral

/-!
# Documents

The tree that a JSON or TOML text stands for, before it is read as settings, media or a scenario.

A text can be well formed as a whole and still hold a part that has no value: a JSON string with
half of a surrogate pair, a number beyond the binary64 range.  Such a part is `unreadable`.  It may
be passed over, for instance under a key that nobody asks for, but it reads as nothing.
-/

set_option autoImplicit false

namespace Downlink

/-- A document tree.  Records keep the order of their fields, and repeated names. -/
inductive Document where
  | null
  | bool (b : Bool)
  | integer (i : Int)
  | real (x : Binary64)
  | text (s : String)
  | list (items : List Document)
  | record (fields : List (String × Document))
  | unreadable
deriving Repr

namespace Document

/-- A natural number, as an integer. -/
def nat (n : Nat) : Document := .integer n

/-- An optional value, `null` when absent. -/
def ofOption {α : Type} (f : α → Document) : Option α → Document
  | none => .null
  | some a => f a

/-- The value of a JSON or TOML number: an integer of at most 64 bits, else a binary64 number. -/
def ofNumeral (n : Numeral) : Document :=
  match n.toInt? with
  | some i =>
    if Int64.minValue.toInt ≤ i ∧ i < UInt64.size then .integer i else ofReal n.toBinary64
  | none => ofReal n.toBinary64
where
  ofReal (x : Binary64) : Document := if x.isFinite then .real x else .unreadable

end Document

end Downlink
