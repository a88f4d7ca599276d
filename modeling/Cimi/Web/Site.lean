import Cimi.Web.Address
import Cimi.Web.Operation

/-!
# The site

A request is routed by its path.  Pages are asked for, and forms are sent to the paths of their
operations; a request for headers alone is answered as one for the page, without the body.
-/

namespace Cimi.Web

/-- A request to the site. -/
structure Request where
  method : String
  address : Address
  contentType : Option String
  body : String
deriving DecidableEq, Repr

/-- Whether a character may stand in the name of a method. -/
def isMethodChar (c : Char) : Bool := c.isAlphanum || c ∈ "!#$%&'*+-.^_|~\x60".toList

/-- The request with the given parts, if they make one. -/
def Request.ofParts? (method address : String) (contentType : Option String) (body : String) :
    Option Request := do
  guard (!method.toList.isEmpty && method.toList.all isMethodChar)
  guard (contentType.all Http.isHeaderValue)
  return ⟨method, ← Address.parse address, contentType, body⟩

/-- What is at a path. -/
inductive Route where
  | health
  | home
  | entryPoint
  /-- A resource, with its reference as it stands in the path. -/
  | resource (escaped : List Char)
  | action (a : Action)
deriving DecidableEq, Repr

/-- The paths that are not those of resources. -/
def Route.fixed : List (String × Route) :=
  [("/health", .health), ("/", .home), (root, .entryPoint)] ++
    [Action.update, .create, .delete, .run].map fun a => (a.path, .action a)

/-- What is at a path, if anything is. -/
def Route.ofPath? (path : String) : Option Route :=
  match (root ++ "/").toList.isPrefixOf? path.toList with
  | some (c :: escaped) => some (.resource (c :: escaped))
  | _ => Route.fixed.lookup path

/-- The methods that a route takes. -/
def Route.methods : Route → List String
  | .action _ => ["POST"]
  | _ => ["GET", "HEAD"]

/-- Shows the page of a reference with the query of a request. -/
def Request.show_ (b : Endpoint) (r : Request) (reference : String) : Exchange Reply :=
  match Query.parse r.address.query with
  | .ok q => Web.show_ b reference q
  | .error e => .done (.plain 400 ("Failed to deserialize query string: " ++ e.message))

/-- The type of the content that is a form. -/
def formType : String := "application/x-www-form-urlencoded"

/-- Whether a request says that its body is a form. -/
def Request.isForm (r : Request) : Bool :=
  r.contentType.any fun t => Http.isReadable t && formType.toList.isPrefixOf t.toList

/-- The longest body, in bytes. -/
def maxBody : Nat := 2097152

/-- The form in the body of a request, or what is answered in its place. -/
def Request.form (r : Request) : Except Reply Form :=
  if !r.isForm then
    .error (.plain 415 s!"Form requests must have \x60Content-Type: {formType}\x60")
  else if Text.Utf8.size r.body.toList > maxBody then
    .error (.plain 413 "Failed to buffer the request body: length limit exceeded")
  else (Form.parse r.body).mapError fun e =>
    .plain 422 ("Failed to deserialize form body: " ++ e.message)

/-- Answers a request at a route that takes its method. -/
def Route.reply (b : Endpoint) (r : Request) : Route → Exchange Reply
  | .health => .done (.plain 200 "OK")
  | .home => .done (.redirect root)
  | .entryPoint => r.show_ b ""
  | .resource escaped =>
    match Text.Percent.decode escaped with
    | some reference => r.show_ b (String.ofList reference)
    | none => .done (.plain 400 "Invalid URL: Invalid UTF-8 in \x60reference\x60")
  | .action a => match r.form with
    | .ok form => a.perform b form
    | .error reply => .done reply

/-- What is answered to a request. -/
def reply (b : Endpoint) (r : Request) : Exchange Reply :=
  match Route.ofPath? r.address.path with
  | none => .done .nowhere
  | some route =>
    if r.method ∈ route.methods then route.reply b r
    else .done (.otherMethods (",".intercalate route.methods))

/-- Answers a request. -/
def respond (b : Endpoint) (r : Request) : Exchange Response := do
  let response := (← reply b r).response
  return if r.method = "HEAD" then response.withoutBody else response

end Cimi.Web
