import Cimi.Navigator
import Cimi.Service

/-!
# Sessions

A session is what one viewer sees: a location, the page shown there, the mode, the editor and a
message.  A call of the session ends at once, or it sends a request and waits.  What it waits for is
a value of its own (`Reading`, `Writing`), and the call goes on when the answer is handed back
together with the session as it is by then (`Session.resumeFetch`, `Session.resumeWrite`).  So calls
can overlap in any order.  After a write there is at most one more request, and after a fetch none.

Navigations take tickets: the answer to a navigation counts only while its ticket is the newest.
-/

namespace Cimi

/-- What one viewer sees, and the tickets of the navigations. -/
structure Session where
  base : Endpoint
  navigator : Navigator
  location : Location
  mode : Mode
  page : Option Page
  editor : Editor
  message : Option String
deriving DecidableEq, Repr

namespace Session

/-- A session at a location of which nothing has been fetched. -/
def new (base : Endpoint) (l : Location) : Session :=
  ⟨base, .new, l, .normal, none, .empty, none⟩

/-- What a viewer can call for. -/
inductive Call where
  | navigate (target : Location)
  | reload
  | startView
  | finishView
  | startEdit
  | finishEdit
  | cancelEdit
  | startAdd
  | finishAdd
  | cancelAdd
  | delete (confirmed : Bool)
  | runAction (name : String) (confirmed : Bool)
deriving DecidableEq, Repr

/-- How a call ends that does not fail. -/
inductive Outcome where
  /-- The page of a navigation is shown. -/
  | rendered
  /-- A newer navigation has begun. -/
  | superseded
  | done
deriving DecidableEq, Repr

/-- What a call ends with. -/
abbrev Result := Except Error Outcome

/-- What a navigation is for. -/
inductive Purpose where
  /-- The call is the navigation. -/
  | visit
  /-- What was written is shown; how the navigation ends does not matter, unless it fails. -/
  | afterWrite
  /-- The parent of what was deleted is shown; how the navigation ends does not matter. -/
  | afterDelete
deriving DecidableEq, Repr

/-- What a call ends with, from what its navigation ends with. -/
def Purpose.result : Purpose → Result → Result
  | .visit, r => r
  | .afterWrite, r => r.map fun _ => .done
  | .afterDelete, _ => .ok .done

/-- A call that waits for a document. -/
inductive Reading where
  | page (ticket : Ticket) (target : Location) (purpose : Purpose)
  /-- The panel that was opened in this mode waits for its text. -/
  | editor (opened : Mode)
deriving DecidableEq, Repr

/-- A call that waits for the answer to a write. -/
inductive Writing where
  | update (id : String)
  | create
  | delete (href : String) (parent : Location)
  | action (name : String)
deriving DecidableEq, Repr

/-- A call has ended, or waits for the document behind a URL. -/
inductive Next where
  | done (r : Result)
  | fetch (url : String) (reading : Reading)
deriving Repr

/-- A call has ended, waits for a document, or waits for the answer to a write. -/
inductive Step where
  | next (n : Next)
  | write (request : Write) (writing : Writing)
deriving Repr

/-- Changes the mode of the session and of its page. -/
def setMode (s : Session) (m : Mode) : Session :=
  { s with mode := m, page := s.page.map fun p => { p with mode := m } }

/-- Shows a message. -/
def setMessage (s : Session) (text : String) : Session := { s with message := some text }

/-- Changes the text of the editor. -/
def setText (s : Session) (text : String) : Session := { s with editor := ⟨text⟩ }

/-- Formats the text of the editor, and says whether that changed it. -/
def format (s : Session) : Session × Bool :=
  let (editor, changed) := s.editor.format
  ({ s with editor := editor }, changed)

/-- The mode after an event, if the mode of the session allows it. -/
def apply (s : Session) (e : Mode.Event) : Except Error Session :=
  match s.mode.step e with
  | .ok m => .ok (s.setMode m)
  | .error r => .error (.transition r)

/-- Refuses an event outside the only mode in which it is expected. -/
def require (s : Session) (m : Mode) (e : Mode.Event) : Except Error Unit :=
  if s.mode = m then .ok () else .error (.transition ⟨s.mode, e⟩)

/-- The reference of the page that is shown. -/
def shownReference (s : Session) : String :=
  (s.page.map (·.reference)).getD s.location.reference.text

/-- What the first button with such a command does. -/
def command {α : Type} (s : Session) (operation : String) (select : Command → Option α) :
    Except Error α :=
  (s.page.bind (·.command? select)).elim (.error (.missingOperation operation)) .ok

/-- The link that a deletion of the page deletes. -/
def deleteTarget? (s : Session) : Option String :=
  (s.page.bind (·.command? Command.deleteTarget?)).map (·.1)

/-- A call that has failed. -/
def fail (s : Session) (e : Error) : Session × Next := (s, .done (.error e))

/-- Begins a navigation. -/
def visit (s : Session) (target : Location) (purpose : Purpose) : Session × Next :=
  let (navigator, ticket) := s.navigator.begin
  ({ s with navigator := navigator },
    .fetch (s.base.fetchUrl target.reference) (.page ticket target purpose))

/-- Opens a panel and fetches the document for it. -/
def openEditor (s : Session) (e : Mode.Event) : Session × Next :=
  match s.apply e with
  | .error err => s.fail err
  | .ok s => (s, .fetch (s.base.fetchUrl s.location.reference) (.editor s.mode))

/-- Sends the text of the editor, which has to be JSON. -/
def sendText (s : Session) (request : Json.Value → Write) (writing : Writing) : Session × Step :=
  match s.editor.validate with
  | .ok body => (s, .write (request body) writing)
  | .error err => ((s.setMessage err.message), .next (.done (.error err)))

/-- Ends a call that needs no request. -/
def settle (s : Session) : Except Error Session → Session × Step
  | .ok s => (s, .next (.done (.ok .done)))
  | .error err => (s, .next (.done (.error err)))

/-- Saves the edited resource. -/
def finishEdit (s : Session) : Session × Step :=
  match s.require .editing .saved, s.command "edit" Command.editTarget? with
  | .error err, _ | .ok _, .error err => s.settle (.error err)
  | .ok _, .ok href => s.sendText (Service.updateRequest s.base href) (.update s.shownReference)

/-- Adds the new resource. -/
def finishAdd (s : Session) : Session × Step :=
  match s.require .adding .created, s.command "add" Command.addTarget? with
  | .error err, _ | .ok _, .error err => s.settle (.error err)
  | .ok _, .ok href => s.sendText (Service.createRequest s.base href) .create

/-- Closes the editor. -/
def cancel (s : Session) (message : String) : Session × Step :=
  s.settle ((s.apply .cancelled).map fun s => s.setMessage message)

/-- Opens the editor on the template of a new resource. -/
def startAdd (s : Session) : Except Error Session := do
  let _ ← s.command "add" Command.addTarget?
  let s ← s.apply .startAdd
  return { s with editor := .addTemplate }

/-- Deletes the resource that is shown, if the viewer is sure. -/
def delete (s : Session) (confirmed : Bool) : Session × Step :=
  match s.command "delete" Command.deleteTarget? with
  | .error err => s.settle (.error err)
  | .ok (href, parent) =>
    if confirmed then
      (s, .write (Service.deleteRequest s.base href)
        (.delete href (s.location.withReference parent)))
    else s.settle (.ok (s.setMessage "Delete cancelled."))

/-- Runs the first action of a name, if the viewer is sure. -/
def runAction (s : Session) (name : String) (confirmed : Bool) : Session × Step :=
  match s.command name (Command.actionTarget? name) with
  | .error err => s.settle (.error err)
  | .ok href =>
    if confirmed then (s, .write (Service.actionRequest s.base href) (.action name))
    else s.settle (.ok (s.setMessage "Action cancelled."))

/-- A step that sends no write. -/
def reading (r : Session × Next) : Session × Step := (r.1, .next r.2)

/-- Begins a call. -/
def start (s : Session) : Call → Session × Step
  | .navigate target => reading (s.visit target .visit)
  | .reload => reading (s.visit s.location .visit)
  | .startView => reading (s.openEditor .startView)
  | .finishView => s.settle (s.apply .finishView)
  | .startEdit =>
    match s.command "edit" Command.editTarget? with
    | .error err => s.settle (.error err)
    | .ok _ => reading (s.openEditor .startEdit)
  | .finishEdit => s.finishEdit
  | .cancelEdit => s.cancel "Edit resource cancelled."
  | .startAdd => s.settle s.startAdd
  | .finishAdd => s.finishAdd
  | .cancelAdd => s.cancel "Adding resource cancelled."
  | .delete confirmed => s.delete confirmed
  | .runAction name confirmed => s.runAction name confirmed

/-- Goes on with a call when its document is there. -/
def resumeFetch (s : Session) : Reading → Fetched → Session × Result
  | .page ticket target purpose, answer =>
    if s.navigator.isCurrent ticket then
      let s := s.setMode .normal
      match Service.page s.base target .normal answer with
      | .ok p =>
        ({ s with location := target, editor := ⟨p.json⟩, page := some p, message := none },
          purpose.result (.ok .rendered))
      | .error err => (s.setMessage err.message, purpose.result (.error err))
    else (s, purpose.result (.ok .superseded))
  | .editor opened, answer =>
    match Service.document answer with
    | .ok d => (if s.mode = opened then s.setText d.pretty else s, .ok .done)
    | .error err => (s.setMessage err.message, .error err)

/-- Closes the panel after a write that failed. -/
def closeFailed (s : Session) (message : String) (err : Error) : Session × Next :=
  let s := s.setMessage message
  match s.apply .failed with
  | .ok s => s.fail err
  | .error refusal => s.fail refusal

/-- Where a new resource is shown: where the server says it is, or where it was added. -/
def createdAt (s : Session) : Option String → Location
  | some url => s.location.withReference (s.base.referenceOf url)
  | none => s.location

/-- Goes on with a call when the answer to its write is there. -/
def resumeWrite (s : Session) : Writing → Written → Session × Next
  | .update _, .ok _ =>
    match s.apply .saved with
    | .ok s => s.visit s.location .afterWrite
    | .error refusal => s.fail refusal
  | .update id, .error err => s.closeFailed s!"Update of resource {id} failed!" err
  | .create, .ok created =>
    match s.apply .created with
    | .ok s => s.visit (s.createdAt created) .afterWrite
    | .error refusal => s.fail refusal
  | .create, .error err => s.closeFailed "Adding resource failed!" err
  | .delete _ parent, .ok _ => s.visit parent .afterDelete
  | .delete href _, .error err => (s.setMessage s!"Delete of resource {href} failed!").fail err
  | .action _, .ok _ => s.visit s.location .afterWrite
  | .action name, .error err => (s.setMessage s!"Action {name} failed!").fail err

/-- Runs the rest of a call with nothing in between. -/
def finishNext (s : Session) : Next → Exchange (Session × Result)
  | .done r => .done (s, r)
  | .fetch url reading => .fetch url fun answer => .done (s.resumeFetch reading answer)

/-- Runs a call from its beginning to its end with nothing in between. -/
def run (s : Session) (c : Call) : Exchange (Session × Result) :=
  match s.start c with
  | (s, .next n) => s.finishNext n
  | (s, .write request writing) => .write request fun answer =>
    let (s, n) := s.resumeWrite writing answer
    s.finishNext n

end Session

end Cimi
