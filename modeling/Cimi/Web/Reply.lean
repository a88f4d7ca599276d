import Cimi.Error
import Cimi.Http.Header
import Cimi.Web.Html

/-!
# Replies

A reply says what is answered, and a response is that reply with its status, its headers and its
body.  A redirect whose target cannot be a header value is answered as a fault of this program.
-/

namespace Cimi.Web

/-- Why a page cannot be shown. -/
inductive Failure where
  | browser (e : Error)
  | badRequest (message : String)
deriving DecidableEq, Repr

/-- The status of a failure: what the server of the resources did wrong is a bad gateway, but what
it does not have is not found. -/
def Failure.status : Failure → Nat
  | .browser (.transport e) => if e.status = 404 then 404 else 502
  | .browser (.malformed _) => 502
  | .browser (.invalidJson _) => 422
  | .browser (.filter _) | .browser (.transition _) | .browser (.missingOperation _) => 400
  | .badRequest _ => 400

/-- What the reader is shown of a failure. -/
def Failure.message : Failure → String
  | .browser e => e.message
  | .badRequest message => message

/-- What is answered to a request. -/
inductive Reply where
  | page (status : Nat) (view : View)
  | failure (f : Failure)
  | redirect (target : String)
  | plain (status : Nat) (text : String)
  /-- Nothing is at the path. -/
  | nowhere
  /-- What is at the path takes other methods. -/
  | otherMethods (allowed : String)
deriving DecidableEq, Repr

/-- An answer with its headers. -/
structure Response where
  status : Nat
  location : Option String
  contentType : Option String
  allow : Option String
  body : String
deriving DecidableEq, Repr

namespace Response

/-- A page as an answer. -/
def html (status : Nat) (page : Markup) : Response :=
  ⟨status, none, some "text/html; charset=utf-8", none, page.render⟩

/-- A text as an answer. -/
def text (status : Nat) (body : String) : Response :=
  ⟨status, none, some "text/plain; charset=utf-8", none, body⟩

/-- An answer without a body. -/
def empty (status : Nat) : Response := ⟨status, none, none, none, ""⟩

/-- The answer to a request for the headers alone. -/
def withoutBody (r : Response) : Response := { r with body := "" }

end Response

/-- The response that a reply stands for. -/
def Reply.response : Reply → Response
  | .page status view => .html status view.markup
  | .failure f => .html f.status (errorMarkup f.status f.message)
  | .redirect target =>
    if Http.isHeaderValue target then { Response.empty 303 with location := some target }
    else .text 500 Http.badHeaderValue
  | .plain status text => .text status text
  | .nowhere => .empty 404
  | .otherMethods allowed => { Response.empty 405 with allow := some allowed }

end Cimi.Web
