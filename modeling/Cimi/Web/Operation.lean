import Cimi.Filter.Parser
import Cimi.Service
import Cimi.Text.Blank
import Cimi.Web.Fields
import Cimi.Web.Reply

/-!
# Showing pages and carrying out operations

A page is fetched and shown.  The form of an operation is answered by a redirect to a page; if the
operation failed, the page shows a message.  Only a text that is no JSON is not lost: the panel is
shown again with the text as it was sent.
-/

namespace Cimi.Web

/-- The filter that a reader typed; blanks alone are none. -/
def parseFilter (text : Option String) : Except Filter.Error (Option Filter) :=
  match text with
  | none => .ok none
  | some text =>
    let trimmed := Text.trim text.toList
    if trimmed.isEmpty then .ok none else (Filter.parse (String.ofList trimmed)).map some

/-- Refuses to open an editor on a page that has no button to save its text. -/
def requireSave (m : Mode) (p : Page) : Except Error Page :=
  match m with
  | .editing =>
    if (p.command? Command.editTarget?).isSome then .ok p else .error (.missingOperation "edit")
  | .adding =>
    if (p.command? Command.addTarget?).isSome then .ok p else .error (.missingOperation "add")
  | _ => .ok p

/-- Fetches the page of a location in a mode, with a filter if one was typed. -/
def load (b : Endpoint) (l : Location) (m : Mode) (filter : Option String) :
    Exchange (Except Error Page) :=
  match parseFilter filter with
  | .error e => .done (.error (.filter e))
  | .ok f => do
    let answer ← match f with
      | some f => Service.loadFiltered b l f m
      | none => Service.load b l m
    return answer.bind (requireSave m)

/-- The mode that a query asks for. -/
def Query.viewMode (q : Query) : Except Mode.Unknown Mode := q.mode.elim (.ok .normal) Mode.parse

/-- Shows the page of a reference. -/
def show_ (b : Endpoint) (reference : String) (q : Query) : Exchange Reply :=
  match q.viewMode with
  | .error unknown => .done (.failure (.badRequest unknown.message))
  | .ok m => do
    match ← load b (locationOf reference) m q.filter with
    | .ok p => return .page 200 (.ofPage p q.message q.filter)
    | .error e => return .failure (.browser e)

/-- Shows the panel again with a text that is no JSON. -/
def Form.reject (b : Endpoint) (form : Form) (m : Mode) (fault : Error) : Exchange Reply := do
  match ← load b (locationOf form.reference) m none with
  | .ok p => return .page 422 ((View.ofPage p (some fault.message) none).withText form.json)
  | .error e => return .failure (.browser e)

/-- Where a resource is shown that was created from the page of a location. -/
def createdUrl (b : Endpoint) (l : Location) : Option String → String
  | some url => (l.withReference (b.referenceOf url)).viewUrl
  | none => l.viewUrl

/-- What is shown after a deletion: the given parent, or the parent of the page's reference. -/
def deletedUrl (l : Location) : Option String → String
  | some parent => (locationOf parent).viewUrl
  | none => l.parentViewUrl

/-- Replaces a resource. -/
def Form.update (b : Endpoint) (form : Form) : Exchange Reply := do
  let l := locationOf form.reference
  match ← Service.update b form.href form.json with
  | .ok () => return .redirect l.viewUrl
  | .error (.invalidJson e) => form.reject b .editing (.invalidJson e)
  | .error _ =>
    return .redirect (withMessage l.viewUrl s!"Update of resource {l.reference.text} failed!")

/-- Creates a resource. -/
def Form.create (b : Endpoint) (form : Form) : Exchange Reply := do
  let l := locationOf form.reference
  match ← Service.create b form.href form.json with
  | .ok created => return .redirect (createdUrl b l created)
  | .error (.invalidJson e) => form.reject b .adding (.invalidJson e)
  | .error _ => return .redirect (withMessage l.viewUrl "Adding resource failed!")

/-- Deletes a resource. -/
def Form.delete (b : Endpoint) (form : Form) : Exchange Reply := do
  let l := locationOf form.reference
  match ← Service.delete b form.href with
  | .ok () => return .redirect (deletedUrl l form.parent)
  | .error _ => return .redirect (withMessage l.viewUrl s!"Delete of resource {form.href} failed!")

/-- Runs an action. -/
def Form.run (b : Endpoint) (form : Form) : Exchange Reply := do
  let l := locationOf form.reference
  match ← Service.run b form.href with
  | .ok () => return .redirect l.viewUrl
  | .error _ => return .redirect (withMessage l.viewUrl s!"Action {form.name} failed!")

/-- Carries out an operation. -/
def Action.perform (b : Endpoint) (form : Form) : Action → Exchange Reply
  | .update => form.update b
  | .create => form.create b
  | .delete => form.delete b
  | .run => form.run b

end Cimi.Web
