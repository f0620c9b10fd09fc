import Downlink.Json.Library
import Downlink.Proofs.Json.Value

/-!
# What is relied on of a JSON library

Of a JSON library it is taken for granted that documents survive their texts if their numbers do one
by one, and that no text holds a number out of range.  Whether numbers survive their texts is a
question of its own, and it is asked of each number.

## Results

* `JsonLibrary.Lawful` — what every JSON library does.
* `JsonLibrary.KeepsFinite` — what only a library does that reads digits exactly.
* `JsonLibrary.plain_lawful`, `JsonLibrary.plain_keeps_iff` — the library at hand does both.
-/

set_option autoImplicit false

namespace Downlink

variable {keeps : Binary64 → Prop} {depth : Nat} {d : Document}

/-- Documents that JSON has words for: integers of at most 64 bits, reals that `keeps` allows, and
lists and records that nest at most `depth` deep. -/
inductive Document.Expressible (keeps : Binary64 → Prop) : Nat → Document → Prop
  | null {depth : Nat} : Expressible keeps depth .null
  | bool {depth : Nat} (b : Bool) : Expressible keeps depth (.bool b)
  | integer {depth : Nat} {i : Int} (h : Int64.minValue.toInt ≤ i ∧ i < UInt64.size) :
      Expressible keeps depth (.integer i)
  | real {depth : Nat} {x : Binary64} (h : keeps x) : Expressible keeps depth (.real x)
  | text {depth : Nat} (s : String) : Expressible keeps depth (.text s)
  | list {depth : Nat} {items : List Document} (h : ∀ d ∈ items, Expressible keeps depth d) :
      Expressible keeps (depth + 1) (.list items)
  | record {depth : Nat} {fields : List (String × Document)}
      (h : ∀ field ∈ fields, Expressible keeps depth field.2) :
      Expressible keeps (depth + 1) (.record fields)

namespace Document.Expressible

/-- What may nest so deep may nest deeper. -/
theorem mono (h : d.Expressible keeps depth) {deeper : Nat} (hle : depth ≤ deeper) :
    d.Expressible keeps deeper := by
  induction h generalizing deeper with
  | null => exact .null
  | bool b => exact .bool b
  | integer h => exact .integer h
  | real h => exact .real h
  | text s => exact .text s
  | list _ ih =>
    obtain ⟨deeper, rfl⟩ := Nat.exists_eq_add_of_le' hle
    exact .list fun d hd => ih d hd (Nat.le_add_left ..)
  | record _ ih =>
    obtain ⟨deeper, rfl⟩ := Nat.exists_eq_add_of_le' hle
    exact .record fun field hfield => ih field hfield (Nat.le_add_left ..)

theorem isLegible (h : d.Expressible keeps depth) (hkeeps : ∀ x, keeps x → x.isFinite = true) :
    d.IsLegible := by
  induction h with
  | null => exact .null
  | bool b => exact .bool b
  | integer h => exact .integer h
  | real h => exact .real (hkeeps _ h)
  | text s => exact .text s
  | list _ ih => exact .list ih
  | record _ ih => exact .record ih

end Document.Expressible

namespace JsonLibrary

variable (library : JsonLibrary)

/-- The number is read back from its own text. -/
def Keeps (x : Binary64) : Prop := library.read (library.write (.real x)) = some (.real x)

/-- What every JSON library does. -/
structure Lawful : Prop where
  /-- A number stands in a document as it stands alone, and everything else is read back. -/
  read_write {d : Document} (h : d.Expressible library.Keeps depthLimit) :
    library.read (library.write d) = some d
  /-- JSON has no words for infinities and what is no number, and integers beyond 64 bits are read
  as reals.  A number beyond these has no value. -/
  numbersFit {text : String} {d : Document} (h : library.read text = some d) : d.NumbersFit True

/-- Every finite number is written with digits that read back to it. -/
def KeepsFinite : Prop := ∀ x : Binary64, x.isFinite = true → library.Keeps x

theorem plain_keeps_iff {x : Binary64} : plain.Keeps x ↔ x.isFinite = true := by
  constructor
  · intro h
    by_contra hinfinite
    have hnull : (Document.real x).json = "null" := by
      rw [Document.json, Json.write, if_neg hinfinite, String.ofList_toList]
    have hread : Document.ofJson? "null" = some (.real x) := hnull ▸ h
    cases hread
  · exact fun h => Document.ofJson?_json (.real h)

theorem plain_lawful : plain.Lawful where
  read_write h := Document.ofJson?_json (h.isLegible fun _ => plain_keeps_iff.mp)
  numbersFit := Document.numbersFit_of_ofJson?

end JsonLibrary

end Downlink
