import Downlink.Document.Basic

/-!
# Writing JSON

The compact JSON text of a document: no blanks, fields in their order, and numbers in the form of
`Binary64.numeral`.  JSON has no word for what is not a finite number, so that is written `null`.
-/

set_option autoImplicit false

namespace Downlink.Json

/-- The four hexadecimal digits of a control character. -/
def hexEscape (c : Char) : List Char :=
  ['\\', 'u', '0', '0', Nat.digitChar (c.toNat / 16), Nat.digitChar (c.toNat % 16)]

/-- A character inside a string. -/
def escape (c : Char) : List Char :=
  if c = '"' then ['\\', '"']
  else if c = '\\' then ['\\', '\\']
  else if c = '\n' then ['\\', 'n']
  else if c = '\r' then ['\\', 'r']
  else if c = '\t' then ['\\', 't']
  else if c = '\x08' then ['\\', 'b']
  else if c = '\x0c' then ['\\', 'f']
  else if c.toNat < 32 then hexEscape c
  else [c]

def writeString (s : String) : List Char := '"' :: (s.toList.flatMap escape ++ ['"'])

mutual

/-- The JSON text of a document. -/
def write : Document → List Char
  | .null => "null".toList
  | .bool true => "true".toList
  | .bool false => "false".toList
  | .integer i => (Numeral.ofInt i).text
  | .real x => if x.isFinite then x.numeral.text else "null".toList
  | .text s => writeString s
  | .list items => '[' :: (writeItems items ++ [']'])
  | .record fields => '{' :: (writeFields fields ++ ['}'])
  | .unreadable => "null".toList

/-- Items with commas between them. -/
def writeItems : List Document → List Char
  | [] => []
  | [d] => write d
  | d :: rest => write d ++ ',' :: writeItems rest

/-- Named fields with commas between them. -/
def writeFields : List (String × Document) → List Char
  | [] => []
  | [(name, d)] => writeString name ++ ':' :: write d
  | (name, d) :: rest => writeString name ++ ':' :: (write d ++ ',' :: writeFields rest)

end

end Downlink.Json

namespace Downlink.Document

/-- The compact JSON text. -/
def json (d : Document) : String := String.ofList (Json.write d)

end Downlink.Document
