import Cimi.Page.Basic

/-!
# Resources as pages of the web

A resource is shown below the path `/webui`.  Its view is the page with what a reader can do there:
controls, of which some are links and some send a form, and the panel with its text.
-/

namespace Cimi.Web

/-- The path of the entry point. -/
def root : String := "/webui"

/-- Where a reference is shown. -/
def locationOf (reference : String) : Location :=
  .ofPage root ⟨String.ofList (reference.toList.dropWhile (· = '/'))⟩ .path

/-- A URL with a value added to its query. -/
def withQuery (url key value : String) : String :=
  let separator := if '?' ∈ url.toList then "&" else "?"
  url ++ separator ++ key ++ "=" ++ encodeQueryValue value

/-- A URL with a message to show. -/
def withMessage (url message : String) : String := withQuery url "message" message

/-- A URL with the mode in which to show it. -/
def withMode (url : String) (m : Mode) : String := withQuery url "mode" m.name

/-- An operation that a form can ask for. -/
inductive Action where
  | update
  | create
  | delete
  | run
deriving DecidableEq, Repr

/-- The path to which the form of an operation is sent. -/
def Action.path : Action → String
  | .update => "/actions/update"
  | .create => "/actions/create"
  | .delete => "/actions/delete"
  | .run => "/actions/run"

/-- A form without any text to fill in. -/
structure Post where
  action : Action
  href : String
  name : String
  parent : Option String
deriving DecidableEq, Repr

/-- Where a control leads. -/
inductive Target where
  | link (url : String)
  | post (p : Post)
deriving DecidableEq, Repr

/-- A button or a link that stands for a button. -/
structure Control where
  label : String
  target : Target
deriving DecidableEq, Repr

/-- Where a command leads on a page with the given URL; what saves the panel's text belongs to the
panel. -/
def Target.ofCommand? (viewUrl : String) : Command → Option Target
  | .startView => some (.link (withMode viewUrl .viewing))
  | .finishView => some (.link viewUrl)
  | .startEdit => some (.link (withMode viewUrl .editing))
  | .cancelEdit => some (.link (withMessage viewUrl "Edit resource cancelled."))
  | .startAdd => some (.link (withMode viewUrl .adding))
  | .cancelAdd => some (.link (withMessage viewUrl "Adding resource cancelled."))
  | .delete href parent => some (.post ⟨.delete, href, "", some parent.text⟩)
  | .action name href => some (.post ⟨.run, href, name, none⟩)
  | .saveEdit _ | .saveAdd _ => none

/-- The control of a button. -/
def Control.ofButton? (viewUrl : String) (b : Button) : Option Control :=
  (Target.ofCommand? viewUrl b.command).map fun target => ⟨b.label, target⟩

/-- What a panel's text is for: to be read, or to be changed and sent. -/
inductive Purpose where
  | read
  | send (action : Action) (href label : String)
deriving DecidableEq, Repr

/-- The panel. -/
structure Panel where
  text : String
  purpose : Purpose
deriving DecidableEq, Repr

/-- Sends the text by the first button that saves it. -/
def Purpose.ofButtons (buttons : List Button) (action : Action)
    (select : Command → Option String) : Purpose :=
  (buttons.findSome? fun b => (select b.command).map fun href => .send action href b.label).getD
    .read

/-- The panel of a page, if one is open. -/
def Panel.ofPage? (p : Page) : Option Panel :=
  match p.mode with
  | .normal => none
  | .viewing => some ⟨p.editor, .read⟩
  | .editing => some ⟨p.editor, .ofButtons p.buttons .update Command.editTarget?⟩
  | .adding => some ⟨p.editor, .ofButtons p.buttons .create Command.addTarget?⟩

/-- All that a page of the web shows. -/
structure View where
  page : Page
  message : Option String
  controls : List Control
  panel : Option Panel
  /-- The filter of a collection, as it was typed. -/
  filter : Option String
deriving DecidableEq, Repr

namespace View

/-- The view of a page; only a collection has a filter. -/
def ofPage (p : Page) (message filter : Option String) : View where
  page := p
  message := message
  controls := p.visibleButtons.filterMap (Control.ofButton? p.viewUrl)
  panel := Panel.ofPage? p
  filter := if p.kind = .collection then some (filter.getD "") else none

/-- The view with another text in its panel. -/
def withText (v : View) (text : String) : View :=
  { v with panel := v.panel.map fun p => { p with text := text } }

end View

end Cimi.Web
