import Cimi.Exchange
import Cimi.Json.Printer
import Cimi.Json.Reader

/-!
# A server in memory

A server that keeps its documents as texts and records every request.  It can be told to fail, and
where it says that new resources are.
-/

namespace Cimi.Server

/-- A request as it is recorded. -/
structure Request where
  method : String
  url : String
  body : Option Json.Value
deriving DecidableEq, Repr

/-- The record of a request for a document. -/
def Request.ofFetch (url : String) : Request := ⟨"GET", url, none⟩

/-- The record of a write. -/
def Request.ofWrite (w : Write) : Request := ⟨w.method.name, w.url, w.body⟩

/-- Method and URL of a request. -/
def Request.key (r : Request) : String := s!"{r.method} {r.url}"

/-- Documents by URL, failures by method and URL or by URL alone, what is said of new resources, and
the requests so far, the last one first. -/
structure Memory where
  documents : List (String × String)
  failures : List (String × TransportError)
  location : Option String
  locations : List (String × String)
  requests : List Request
deriving Repr

namespace Memory

/-- Sets the document of a URL, or removes it. -/
def serve (m : Memory) (url : String) (text : Option String) : Memory :=
  let others := m.documents.filter (·.1 ≠ url)
  { m with documents := text.elim others fun t => (url, t) :: others }

/-- The failure of a request, if it is to fail. -/
def failure? (m : Memory) (r : Request) : Option TransportError :=
  (m.failures.lookup r.key).or (m.failures.lookup r.url)

/-- Records a request. -/
def record (m : Memory) (r : Request) : Memory := { m with requests := r :: m.requests }

/-- Answers a request for a document. -/
def fetch (m : Memory) (url : String) : Fetched × Memory :=
  let r := Request.ofFetch url
  let m := m.record r
  match m.failure? r, m.documents.lookup url with
  | some e, _ => (.error (.transport e), m)
  | none, some text => ((Json.parse text).mapError .invalidJson, m)
  | none, none => (.error (.transport ⟨404, "Not Found"⟩), m)

/-- Answers a write. -/
def write (m : Memory) (w : Write) : Written × Memory :=
  let r := Request.ofWrite w
  let m := m.record r
  match m.failure? r with
  | some e => (.error (.transport e), m)
  | none => match w.method with
    | .put => (.ok none, m.serve w.url (w.body.map Json.Value.compact))
    | .post => (.ok ((m.locations.lookup w.url).or m.location), m)
    | .delete => (.ok none, m.serve w.url none)

/-- Runs an exchange against the server. -/
def run {α : Type} (m : Memory) (e : Exchange α) : α × Memory :=
  (e.runM (fun url => modifyGet (·.fetch url)) (fun w => modifyGet (·.write w)) :
    StateM Memory α).run m

end Memory

end Cimi.Server
