/-!
# View modes

A viewer looks at a rendered resource, or has a panel open that shows its JSON, edits it, or
composes a new resource.  An event opens the panel or closes it; any other event is refused and
leaves the mode as it is.
-/

namespace Cimi

/-- Which panel is open. -/
inductive Mode where
  | normal
  | viewing
  | editing
  | adding
deriving DecidableEq, Repr, Inhabited

namespace Mode

/-- What happens to a panel. -/
inductive Event where
  | startView
  | finishView
  | startEdit
  | startAdd
  | saved
  | created
  | cancelled
  | failed
deriving DecidableEq, Repr

/-- The name of an event. -/
def Event.name : Event → String
  | .startView => "StartView"
  | .finishView => "FinishView"
  | .startEdit => "StartEdit"
  | .startAdd => "StartAdd"
  | .saved => "Saved"
  | .created => "Created"
  | .cancelled => "Cancelled"
  | .failed => "Failed"

/-- The name of a mode. -/
def name : Mode → String
  | .normal => "normal"
  | .viewing => "view"
  | .editing => "edit"
  | .adding => "add"

/-- The mode of a name. -/
def ofName? : String → Option Mode
  | "normal" => some .normal
  | "view" => some .viewing
  | "edit" => some .editing
  | "add" => some .adding
  | _ => none

/-- A name that no mode has. -/
structure Unknown where
  name : String
deriving DecidableEq, Repr

/-- The words for a name that no mode has. -/
def Unknown.message (u : Unknown) : String := s!"unknown view mode \x60{u.name}\x60"

/-- The mode of a name. -/
def parse (name : String) : Except Unknown Mode := (ofName? name).elim (.error ⟨name⟩) .ok

/-- Whether the panel stands in the place of the rendered resource. -/
def showsEditor : Mode → Bool
  | .normal => false
  | _ => true

/-- An event that a mode does not allow. -/
structure Refusal where
  mode : Mode
  event : Event
deriving DecidableEq, Repr

/-- The words for a refusal. -/
def Refusal.message (r : Refusal) : String := s!"cannot apply {r.event.name} while {r.mode.name}"

/-- The mode after an event, if the mode allows it. -/
def step? : Mode → Event → Option Mode
  | .normal, .startView => some .viewing
  | .normal, .startEdit => some .editing
  | .normal, .startAdd => some .adding
  | .viewing, .finishView => some .normal
  | .editing, .saved | .editing, .cancelled | .editing, .failed => some .normal
  | .adding, .created | .adding, .cancelled | .adding, .failed => some .normal
  | _, _ => none

/-- The mode after an event. -/
def step (m : Mode) (e : Event) : Except Refusal Mode := (m.step? e).elim (.error ⟨m, e⟩) .ok

end Mode

end Cimi
