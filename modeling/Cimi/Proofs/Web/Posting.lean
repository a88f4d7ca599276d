import Cimi.Proofs.Reference
import Cimi.Proofs.Web.Forms

/-!
# What a reader of the web posts

A reader of the web has no session: each request names the reference again, and the page that comes
back names it in the fields of its forms.  A reference that does not start with a slash survives
that (`reference_locationOf`), so the form that is posted for a task is that of the first operation
for it in the document of the reference (`Task.post?_eq`).
-/

namespace Cimi

namespace Web

variable {b : Endpoint} {l : Location} {r : Reference} {d : Document} {m : Mode} {p : Page}
  {answer : Fetched}

/-! ## Locations and pages of the web -/

/-- The query with which a reader asks for the page that has the form of a task. -/
def Task.query (task : Task) : Query := ⟨some task.mode.name, none, none⟩

/-- The form that a reader sends for a task, with the link of an operation. -/
def Task.form (r : Reference) (o : Operation) (task : Task) : Form :=
  ⟨r.text, o.href, task.name, task.parent? (locationOf r.text), task.text⟩

section

variable {form : Form}

theorem update_of_error {e : Json.SyntaxError}
    (h : (Editor.mk form.json).validate = .error (.invalidJson e)) :
    form.update b = form.reject b .editing (.invalidJson e) := by
  simp only [Form.update, Service.update, Service.send, h]
  rfl

theorem create_of_ok {body : Json.Value} (h : (Editor.mk form.json).validate = .ok body) :
    form.create b = .write (Service.createRequest b form.href body) fun answer => match answer with
      | .ok created => .done (.redirect (createdUrl b (locationOf form.reference) created))
      | .error (.invalidJson e) => form.reject b .adding (.invalidJson e)
      | .error _ => .done (.redirect (withMessage (locationOf form.reference).viewUrl
        "Adding resource failed!")) := by
  simp only [Form.create, Service.create, Service.send, h]
  refine congrArg (Exchange.write _) (funext fun answer => ?_)
  rcases answer with e | created
  · cases e <;> rfl
  · rfl

theorem create_of_error {e : Json.SyntaxError}
    (h : (Editor.mk form.json).validate = .error (.invalidJson e)) :
    form.create b = form.reject b .adding (.invalidJson e) := by
  simp only [Form.create, Service.create, Service.send, h]
  rfl

end

end Web

end Cimi
