import Cimi.Error

/-!
# Exchanges with the server

A server is asked for a document, or told to change something.  An exchange is a computation that
asks and goes on with the answers; it is run against anything that answers (`Exchange.runM`).
-/

namespace Cimi

/-- How a server is told to change something. -/
inductive WriteMethod where
  | put
  | post
  | delete
deriving DecidableEq, Repr

/-- The name of a method. -/
def WriteMethod.name : WriteMethod → String
  | .put => "PUT"
  | .post => "POST"
  | .delete => "DELETE"

/-- A request that changes something on the server. -/
structure Write where
  method : WriteMethod
  url : String
  body : Option Json.Value
deriving DecidableEq, Repr

/-- What a server answers to a request for a document. -/
abbrev Fetched := Except Error Json.Value

/-- What a server answers to a write: where the new resource is, if it says so. -/
abbrev Written := Except Error (Option String)

/-- A computation that asks a server. -/
inductive Exchange (α : Type) where
  | done (result : α)
  | fetch (url : String) (next : Fetched → Exchange α)
  | write (request : Write) (next : Written → Exchange α)

namespace Exchange

variable {α β : Type}

/-- Goes on with the result. -/
def bind : Exchange α → (α → Exchange β) → Exchange β
  | .done x, f => f x
  | .fetch url next, f => .fetch url fun answer => (next answer).bind f
  | .write request next, f => .write request fun answer => (next answer).bind f

instance : Monad Exchange where
  pure := .done
  bind := bind

/-- Runs an exchange against a server. -/
def runM {m : Type → Type} [Monad m] (fetch : String → m Fetched) (write : Write → m Written) :
    Exchange α → m α
  | .done x => pure x
  | .fetch url next => do runM fetch write (next (← fetch url))
  | .write request next => do runM fetch write (next (← write request))

end Exchange

end Cimi
