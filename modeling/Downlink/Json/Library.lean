import Downlink.Json.Reader
import Downlink.Json.Writer

/-!
# JSON libraries

A JSON library reads texts as documents and writes documents as compact texts.  Libraries agree on
the grammar, and they differ in how they turn digits into a binary64 number: a fast one may round
more than once and miss the nearest number by a unit in the last place.  Then there are numbers that
it does not read back from its own text.

`JsonLibrary.plain` is the reader and the writer at hand.  It takes the nearest number.
-/

set_option autoImplicit false

namespace Downlink

structure JsonLibrary where
  /-- The document of a text. -/
  read : String → Option Document
  /-- The compact text of a document. -/
  write : Document → String

namespace JsonLibrary

def plain : JsonLibrary := ⟨Document.ofJson?, Document.json⟩

/-- How deep lists and records may nest in a text that every library reads. -/
def depthLimit : Nat := 127

end JsonLibrary

end Downlink
