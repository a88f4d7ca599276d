import Cimi.Exchange
import Cimi.Http.Header
import Cimi.Http.Status
import Cimi.Http.Url
import Cimi.Json.Printer
import Cimi.Json.Reader

/-!
# Exchanges over HTTP

Every request of an exchange becomes a request of HTTP, and the answer to it is read: a status that
is no success is an error with the phrase of that status, a document is read as JSON, and a created
resource is where the response says.  Redirects are followed, up to ten in a row.
-/

namespace Cimi.Http

/-- A request. -/
structure Request where
  method : String
  url : Url
  accept : String
  contentType : Option String
  userAgent : String
  body : String
deriving DecidableEq, Repr

/-- A response. -/
structure Response where
  status : Nat
  headers : List (String × String)
  body : String
deriving DecidableEq, Repr

namespace Response

/-- The first header of a name; capitals do not matter. -/
def header? (r : Response) (name : String) : Option String :=
  (r.headers.find? fun h => h.1.map Char.toLower = name.map Char.toLower).map (·.2)

/-- Where a response says to go. -/
def location? (r : Response) : Option String := r.header? "location"

end Response

/-- The type of the content that is JSON. -/
def jsonType : String := "application/json"

/-- A client that names itself in every request. -/
structure Client where
  userAgent : String
deriving DecidableEq, Repr

/-- The client of a name, if the name can be sent. -/
def Client.ofUserAgent? (userAgent : String) : Option Client :=
  if isHeaderValue userAgent then some ⟨userAgent⟩ else none

/-- The most redirects in a row. -/
def maxRedirects : Nat := 10

/-- What is said when there is no answer. -/
def networkError (what : String) (u : Url) : TransportError :=
  ⟨0, what ++ " for url (" ++ u.text ++ ")"⟩

/-- What is said of a text that is no URL of a server. -/
def UrlError.transportError : UrlError → TransportError
  | .malformed => ⟨0, "builder error"⟩
  | .otherScheme text => ⟨0, "builder error for url (" ++ text ++ ")"⟩

/-- The request that follows a response, if it says to go on elsewhere. -/
def Request.redirected? (r : Request) (response : Response) : Option Request :=
  match response.location?.map r.url.join with
  | some (.ok url) =>
    if isSeeOther response.status then
      some { r with url := url, method := "GET", contentType := none, body := "" }
    else if isRepeatElsewhere response.status then some { r with url := url }
    else none
  | _ => none

variable {m : Type → Type} [Monad m]

/-- Sends a request and follows redirects. -/
def follow (deliver : Request → m (Option Response)) :
    (redirects : Nat) → Request → m (Except TransportError Response)
  | redirects, r => do
    match ← deliver r with
    | none => return .error (networkError "error sending request" r.url)
    | some response => match r.redirected? response, redirects with
      | none, _ => return .ok response
      | some _, 0 => return .error (networkError "error following redirect" r.url)
      | some next, redirects + 1 => follow deliver redirects next

namespace Client

/-- Sends a request to a URL; only a success is no error. -/
def send (c : Client) (deliver : Request → m (Option Response)) (method url : String)
    (contentType : Option String) (body : String) : m (Except TransportError Response) := do
  match Url.parse url with
  | .error e => return .error e.transportError
  | .ok u =>
    let answer ← follow deliver maxRedirects ⟨method, u, jsonType, contentType, c.userAgent, body⟩
    return answer.bind fun response =>
      if isSuccess response.status then .ok response
      else .error ⟨response.status, reason response.status⟩

/-- Fetches a document. -/
def fetch (c : Client) (deliver : Request → m (Option Response)) (url : String) : m Fetched := do
  match ← c.send deliver "GET" url none "" with
  | .ok response => return (Json.parse response.body).mapError .invalidJson
  | .error e => return .error (.transport e)

/-- Sends a write. -/
def write (c : Client) (deliver : Request → m (Option Response)) (w : Write) : m Written := do
  let contentType := if w.method = .delete then none else some jsonType
  let body := w.body.elim "" Json.Value.compact
  match ← c.send deliver w.method.name w.url contentType body with
  | .ok response =>
    return .ok (if w.method = .post then response.location?.filter isReadable else none)
  | .error e => return .error (.transport e)

/-- Runs an exchange. -/
def run {α : Type} (c : Client) (deliver : Request → m (Option Response)) (e : Exchange α) : m α :=
  e.runM (c.fetch deliver) (c.write deliver)

end Client

end Cimi.Http
