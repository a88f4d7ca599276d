import Cimi.Error
import Cimi.Json.Printer
import Cimi.Json.Reader

/-!
# The editor

The editor holds the text of the open panel.  Formatting a text that is JSON writes it on indented
lines; a text that is no JSON stays as it was typed.
-/

namespace Cimi

/-- The text of the panel. -/
structure Editor where
  text : String
deriving DecidableEq, Repr, Inhabited

namespace Editor

/-- An editor without any text. -/
def empty : Editor := ⟨""⟩

/-- What the editor holds when a new resource is begun. -/
def addTemplate : Editor := ⟨"\x7b\"key\": \"value\"\x7d\n"⟩

/-- The value that the text spells. -/
def validate (e : Editor) : Except Error Json.Value := (Json.parse e.text).mapError .invalidJson

/-- The editor with its text on indented lines. -/
def formatted (e : Editor) : Editor :=
  match e.validate with
  | .ok v => ⟨v.pretty⟩
  | .error _ => e

/-- The formatted editor, and whether formatting changed it. -/
def format (e : Editor) : Editor × Bool := (e.formatted, e.formatted ≠ e)

variable {e : Editor} {v : Json.Value}

theorem validate_of_parse (h : Json.parse e.text = .ok v) : e.validate = .ok v := by
  rw [validate, h]
  rfl

theorem validate_of_fault {fault : Json.SyntaxError} (h : Json.parse e.text = .error fault) :
    e.validate = .error (.invalidJson fault) := by
  rw [validate, h]
  rfl

end Editor

end Cimi
