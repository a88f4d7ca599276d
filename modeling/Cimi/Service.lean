import Cimi.Exchange
import Cimi.Filter.Basic
import Cimi.Page.Basic

/-!
# What is asked of a server

Each use of a server is one request: a document is fetched and shown as a page, or a link of an
operation is written to.  A text that is no JSON is refused before anything is sent.
-/

namespace Cimi

/-- The URL of a collection with a filter added to its query. -/
def filteredUrl (url : String) (f : Filter) : String :=
  let separator := if '?' ∈ url.toList then "&" else "?"
  url ++ separator ++ "$filter=" ++ encodeQueryValue f.canonical

namespace Service

/-- The document in an answer. -/
def document (answer : Fetched) : Except Error Document := do
  let v ← answer
  (Document.ofValue v).mapError .malformed

/-- The page of the document in an answer. -/
def page (b : Endpoint) (l : Location) (m : Mode) (answer : Fetched) : Except Error Page := do
  let d ← document answer
  (Page.build l b d m).mapError .malformed

/-- Fetches the document of a reference. -/
def fetch (b : Endpoint) (r : Reference) : Exchange (Except Error Document) :=
  .fetch (b.fetchUrl r) fun answer => .done (document answer)

/-- Fetches the page of a location. -/
def load (b : Endpoint) (l : Location) (m : Mode) : Exchange (Except Error Page) :=
  .fetch (b.fetchUrl l.reference) fun answer => .done (page b l m answer)

/-- Fetches the page of a location, with the members that a filter chooses. -/
def loadFiltered (b : Endpoint) (l : Location) (f : Filter) (m : Mode) :
    Exchange (Except Error Page) :=
  .fetch (filteredUrl (b.fetchUrl l.reference) f) fun answer => .done (page b l m answer)

/-- The request that replaces a resource. -/
def updateRequest (b : Endpoint) (href : String) (body : Json.Value) : Write :=
  ⟨.put, b.resolve href, some body⟩

/-- The request that creates a resource. -/
def createRequest (b : Endpoint) (href : String) (body : Json.Value) : Write :=
  ⟨.post, b.resolve href, some body⟩

/-- The request that deletes a resource. -/
def deleteRequest (b : Endpoint) (href : String) : Write := ⟨.delete, b.resolve href, none⟩

/-- The request that runs an action. -/
def actionRequest (b : Endpoint) (href : String) : Write := ⟨.post, b.resolve href, none⟩

/-- Sends a request whose body is a text of the user. -/
def send (text : String) (request : Json.Value → Write) :
    Exchange (Except Error (Option String)) :=
  match (Editor.mk text).validate with
  | .ok body => .write (request body) .done
  | .error e => .done (.error e)

/-- Replaces the resource behind a link. -/
def update (b : Endpoint) (href text : String) : Exchange (Except Error Unit) := do
  return (← send text (updateRequest b href)).map fun _ => ()

/-- Creates a resource below a link; the answer may say where it is. -/
def create (b : Endpoint) (href text : String) : Exchange (Except Error (Option String)) :=
  send text (createRequest b href)

/-- Deletes the resource behind a link. -/
def delete (b : Endpoint) (href : String) : Exchange (Except Error Unit) :=
  .write (deleteRequest b href) fun answer => .done (answer.map fun _ => ())

/-- Runs the action behind a link. -/
def run (b : Endpoint) (href : String) : Exchange (Except Error Unit) :=
  .write (actionRequest b href) fun answer => .done (answer.map fun _ => ())

end Service

end Cimi
