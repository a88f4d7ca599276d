import Cimi.Session.Basic
import Cimi.Terminal.Input
import Cimi.Terminal.Screen
import Cimi.Text.Lines

/-!
# Browsing at a terminal

The browser shows the page of a session and reads lines.  A line is a command, or the answer to a
question that was asked before something is deleted or run.  Each line is fed to the browser
(`Browser.feed`), which may ask the server and says what to print; the end of the input is fed as
`none`.
-/

namespace Cimi.Terminal

/-- What the next line is read as. -/
inductive Awaiting where
  | command
  /-- The answer to the question whether to delete. -/
  | deleteAnswer
  /-- The answer to the question whether to run an action. -/
  | runAnswer (action : String)
  /-- There is no next line. -/
  | nothing
deriving DecidableEq, Repr

/-- A browser at a terminal. -/
structure Browser where
  color : Bool
  session : Session
  awaiting : Awaiting
deriving DecidableEq, Repr

namespace Browser

/-- The list of the commands, without the end of its last line. -/
def help : String :=
  "\n".intercalate [
    "commands:",
    "  open <reference>   go to a resource (MachineCollection/abc)",
    "  up | root          go to the parent resource or the entry point",
    "  reload             fetch the current resource again",
    "  view | done        open or close the JSON panel",
    "  edit | add         open the editor on this resource or a new one",
    "  set <json>         replace the editor contents",
    "  format             re-indent the editor contents",
    "  save | cancel      write or discard the editor contents",
    "  delete             delete this resource",
    "  run <action>       trigger an action",
    "  help | quit"]

/-- What is printed before a command. -/
def prompt : String := "> "

/-- What is printed before an answer. -/
def question (text : String) : String := s!"{text} [y/N] "

/-- A line in red. -/
def complaint (b : Browser) (text : String) : String :=
  String.ofList (line (paint b.color .red text))

/-- What is printed of a call that failed. -/
def report (b : Browser) : Session.Result → String
  | .ok _ => ""
  | .error e => b.complaint e.message

/-- What is printed of the page, with the text of the editor in the panel. -/
def show_ (b : Browser) : String :=
  match b.session.page with
  | none => ""
  | some p =>
    let p := if p.mode.showsEditor then { p with editor := b.session.editor.text } else p
    screen b.color p b.session.message ++ "\n"

/-- The browser after a call, what is printed of it, and the next prompt. -/
def after (b : Browser) (s : Session) (printed : String) : Browser × String :=
  let b : Browser := { b with session := s, awaiting := .command }
  (b, printed ++ b.show_ ++ prompt)

/-- Makes a call of the session. -/
def call (b : Browser) (c : Session.Call) : Exchange (Browser × String) := do
  let (s, r) ← b.session.run c
  return b.after s (b.report r)

/-- The call of an input that needs no confirmation. -/
def callOf? (s : Session) : Input → Option Session.Call
  | .open r => some (.navigate (s.location.withReference ⟨r⟩))
  | .up => some (.navigate (s.location.withReference s.location.reference.parent))
  | .root => some (.navigate (s.location.withReference .root))
  | .reload => some .reload
  | .view => some .startView
  | .done => some .finishView
  | .edit => some .startEdit
  | .add => some .startAdd
  | .save => some (if s.mode = .adding then .finishAdd else .finishEdit)
  | .cancel => some (if s.mode = .adding then .cancelAdd else .cancelEdit)
  | _ => none

/-- Formats the text of the editor. -/
def format (b : Browser) : Browser × String :=
  let (s, changed) := b.session.format
  b.after s (if changed then ""
    else String.ofList (line (paint b.color .yellow "editor does not hold valid JSON")))

/-- Carries out a command. -/
def command (b : Browser) (input : Input) : Exchange (Browser × String) :=
  match input with
  | .quit => pure ({ b with awaiting := .nothing }, "")
  | .help => pure (b, help ++ "\n" ++ prompt)
  | .set text => pure (b.after (b.session.setText text) "")
  | .format => pure b.format
  | .delete =>
    match b.session.deleteTarget? with
    | some href =>
      pure ({ b with awaiting := .deleteAnswer }, question s!"Delete resource {href}?")
    | none => b.call (.delete false)
  | .run action =>
    pure ({ b with awaiting := .runAnswer action }, question s!"Run action {action}?")
  | input => match callOf? b.session input with
    | some c => b.call c
    | none => pure (b, prompt)

/-- Carries out a line that is no answer. -/
def commandLine (b : Browser) (text : String) : Exchange (Browser × String) :=
  if (Text.trim text.toList).isEmpty then pure (b, prompt)
  else match Input.parse text with
    | .ok input => b.command input
    | .error unknown => pure (b, b.complaint unknown.message ++ prompt)

/-- Whether a line agrees; the end of the input does not. -/
def agrees (text : Option String) : Bool := text.any Input.isYes

/-- Takes the next line, or the end of the input. -/
def feed (b : Browser) (text : Option String) : Exchange (Browser × String) :=
  match b.awaiting with
  | .nothing => pure (b, "")
  | .deleteAnswer => b.call (.delete (agrees text))
  | .runAnswer action => b.call (.runAction action (agrees text))
  | .command => match text with
    | none => pure ({ b with awaiting := .nothing }, "")
    | some text => b.commandLine text

/-- Begins to browse: the page of the session is fetched and shown. -/
def begin (color : Bool) (s : Session) : Exchange (Browser × String) :=
  Browser.call ⟨color, s, .command⟩ .reload

/-- Takes lines until there are no more or the browser stops, and collects what is printed.  A line
that could not be read ends the browsing as a failure. -/
def feedAll {ε : Type} : (b : Browser) → (lines : List (Except ε String)) →
    Exchange (Except ε Unit × String)
  | b, [] => do
    let (b, printed) ← b.feed none
    let (_, more) ← b.feed none
    return (.ok (), printed ++ more)
  | b, .error e :: _ =>
    if b.awaiting = .nothing then pure (.ok (), "") else pure (.error e, "")
  | b, .ok text :: lines => do
    let (b, printed) ← b.feed (some text)
    let (result, more) ← feedAll b lines
    return (result, printed ++ more)

/-- Browses with the given bytes as input. -/
def browse (color : Bool) (s : Session) (bytes : List UInt8) :
    Exchange (Except Text.Utf8.Fault Unit × String) := do
  let (b, printed) ← begin color s
  let (result, more) ← feedAll b (Text.Lines.ofBytes bytes)
  return (result, printed ++ more)

end Browser

end Cimi.Terminal
