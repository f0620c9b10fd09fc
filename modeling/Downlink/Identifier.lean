/-!
# Identifiers

Participants and the sources they publish are named by short identifiers: one to 64 of the letters,
digits and `_`, `-`, `.` of ASCII.  The rule is part of the type, so an identifier that exists is
well formed.

## Results

* `Identifier.ofString?_text` — reading an identifier's text gives the identifier back.
-/

set_option autoImplicit false

namespace Downlink

/-- Why a text is not an identifier. -/
inductive IdentifierError where
  | empty
  | tooLong (limit : Nat)
  | invalidCharacters
deriving DecidableEq, Repr

def IdentifierError.message : IdentifierError → String
  | .empty => "ID is empty"
  | .tooLong limit => s!"ID exceeds maximum length of {limit} characters"
  | .invalidCharacters => "ID contains invalid characters"

/-- The characters of identifiers. -/
def isIdentifierChar (c : Char) : Bool := c.isAlphanum || c == '_' || c == '-' || c == '.'

/-- The first rule a text breaks; its length is counted in UTF-8 bytes. -/
def checkIdentifier (limit : Nat) (text : String) : Except IdentifierError Unit :=
  if text.toList.isEmpty then .error .empty
  else if limit < text.utf8ByteSize then .error (.tooLong limit)
  else if text.toList.all isIdentifierChar then .ok ()
  else .error .invalidCharacters

/-- The longest identifier. -/
def identifierLimit : Nat := 64

/-- What an identifier names. -/
inductive IdentifierKind where
  | participant
  | source
deriving DecidableEq, Repr

/-- A well-formed identifier. -/
structure Identifier (kind : IdentifierKind) where
  text : String
  wellFormed : checkIdentifier identifierLimit text = .ok ()
deriving DecidableEq

/-- Names a member of the conference. -/
abbrev ParticipantId := Identifier .participant

/-- Names a source of a member, such as a camera or a shared screen. -/
abbrev SourceId := Identifier .source

namespace Identifier

variable {kind : IdentifierKind}

def ofString? (text : String) : Except IdentifierError (Identifier kind) :=
  match h : checkIdentifier identifierLimit text with
  | .ok () => .ok ⟨text, h⟩
  | .error e => .error e

instance : Repr (Identifier kind) := ⟨fun id _ => id.text⟩

/-- Identifiers are ordered as their texts. -/
instance : Ord (Identifier kind) := ⟨compareOn fun id : Identifier kind => id.text⟩

instance : Std.TransOrd (Identifier kind) :=
  inferInstanceAs (Std.TransCmp (compareOn fun id : Identifier kind => id.text))

instance : Std.LawfulEqOrd (Identifier kind) where
  compare_self := Std.ReflCmp.compare_self
  eq_of_compare {a b} h := by
    have h : compare a.text b.text = .eq := h
    cases a
    cases b
    congr
    exact Std.LawfulEqCmp.eq_of_compare h

theorem ofString?_text (id : Identifier kind) : ofString? id.text = .ok id := by
  unfold ofString?
  split
  · rfl
  · rename_i e h
    rw [id.wellFormed] at h
    cases h

end Identifier

end Downlink
