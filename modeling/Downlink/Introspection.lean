import Downlink.Controller.Document
import Downlink.Hexadecimal

/-!
# Introspection

A read-only view of a controller over HTTP:

* `/debug` — the debug state;
* `/allocation` — the allocation published last;
* `/allocation/ID` — the records of one participant, its identifier percent-encoded as needed.

Each resource answers `GET` and `HEAD`.  Queries are passed over.  Nothing here changes a state.
-/

set_option autoImplicit false

namespace Downlink.Introspection

/-- A request for a resource. -/
structure Request where
  method : String := "GET"
  /-- Path and query. -/
  target : String
deriving DecidableEq

structure Response where
  status : Nat
  contentType : Option String
  body : String
deriving DecidableEq

/-- What is served. -/
inductive Resource where
  | debug
  | allocation
  /-- The records of a participant, the identifier as it stands in the path. -/
  | participant (segment : List Char)
deriving DecidableEq

/-- The path of a target: what stands before the query. -/
def pathOf (target : String) : List Char := target.toList.takeWhile fun c => c != '?' && c != '#'

/-- The resource at a path. -/
def resource? (path : List Char) : Option Resource :=
  if path = "/debug".toList then some .debug
  else if path = "/allocation".toList then some .allocation
  else
    let root := "/allocation/".toList
    if root.isPrefixOf path then
      let segment := path.drop root.length
      if segment.isEmpty || segment.contains '/' then none else some (.participant segment)
    else none

/-! ## Percent encoding -/

def hexByte? (c : UInt8) : Option UInt8 := (hexDigit? (Char.ofNat c.toNat)).map UInt8.ofNat

/-- Replaces each `%` with two hexadecimal digits by the byte; any other `%` stays. -/
def percentDecode : List UInt8 → List UInt8
  | 37 :: a :: b :: rest =>
    match hexByte? a, hexByte? b with
    | some high, some low => (high * 16 + low) :: percentDecode rest
    | _, _ => 37 :: percentDecode (a :: b :: rest)
  | c :: rest => c :: percentDecode rest
  | [] => []

/-- The text that a path segment stands for, if its bytes are UTF-8. -/
def decodeSegment? (segment : List Char) : Option String :=
  String.fromUTF8? ⟨(percentDecode (String.ofList segment).toUTF8.data.toList).toArray⟩

/-! ## Responses -/

/-- Why the records of a participant are not served. -/
inductive LookupError where
  | undecodable
  | invalidId (error : IdentifierError)
  | notAllocated (id : ParticipantId)
deriving DecidableEq

namespace LookupError

def status : LookupError → Nat
  | .undecodable | .invalidId _ => 400
  | .notAllocated _ => 404

def message : LookupError → String
  | .undecodable => "Invalid URL: Invalid UTF-8 in `participant_id`"
  | .invalidId error => "invalid participant id: " ++ error.message
  | .notAllocated id => "participant " ++ id.text ++ " is not part of the allocation"

end LookupError

/-- The records of the participant that a segment names. -/
def lookup (allocation : Allocation) (segment : List Char) :
    Except LookupError (List SourceAllocation) := do
  let text ← (decodeSegment? segment).elim (.error .undecodable) .ok
  let id ← (Identifier.ofString? text).mapError .invalidId
  let sources := allocation.ofParticipant id
  if sources.isEmpty then .error (.notAllocated id) else .ok sources

def ofDocument (d : Document) : Response := ⟨200, some "application/json", d.json⟩

def ofError (e : LookupError) : Response := ⟨e.status, some "text/plain; charset=utf-8", e.message⟩

/-- A response without content. -/
def bare (status : Nat) : Response := ⟨status, none, ""⟩

/-- The content of a resource. -/
def content (s : Controller.State) : Resource → Response
  | .debug => ofDocument s.debug.toDocument
  | .allocation => ofDocument s.allocation.toDocument
  | .participant segment =>
    match lookup s.allocation segment with
    | .ok sources => ofDocument (Allocation.mk sources).toDocument
    | .error e => ofError e

/-- The response to a request. -/
def respond (s : Controller.State) (request : Request) : Response :=
  match resource? (pathOf request.target) with
  | none => bare 404
  | some resource =>
    if request.method = "GET" then content s resource
    else if request.method = "HEAD" then { content s resource with body := "" }
    else bare 405

end Downlink.Introspection
