import Cimi.Proofs.Session.Writes
import Cimi.Proofs.Web.Forms

/-!
# What a viewer of a session does

The tasks of a reader of the web are calls of a session (`Session.perform`).  A session that shows
the page of a document goes on showing it until it has moved elsewhere (`At.keeps`).  So a panel is
opened, and its text sent, with the first operation of that document for the task
(`At.perform_save`, `At.perform_add`), and without one nothing is sent (`At.perform_none`).
-/

namespace Cimi.Session

variable {s s' : Session} {c : Call} {b : Endpoint} {page : String} {r : Reference} {d : Document}
  {m : Mode}

/-- What a viewer does for a task: opens the panel, types the text and sends it, or calls for the
operation and is sure. -/
def perform (s : Session) : Web.Task → Exchange (Session × Result)
  | .save text => do
    let (s, _) ← s.run .startEdit
    (s.setText text).run .finishEdit
  | .add text => do
    let (s, _) ← s.run .startAdd
    (s.setText text).run .finishAdd
  | .delete => s.run (.delete true)
  | .run name => s.run (.runAction name true)

/-- The page of a document is shown at a reference, and a panel may be open there. -/
structure At (b : Endpoint) (page : String) (r : Reference) (d : Document) (m : Mode)
    (s : Session) : Prop where
  base : s.base = b
  location : s.location = ⟨page, r, .fragment⟩
  mode : s.mode = m
  shows : s.Shows d

theorem At.keeps (h : s.At b page r d m) (hk : s.Keeps s') : s'.At b page r d s'.mode :=
  ⟨(keeps_base hk).trans h.base, (keeps_location hk).trans h.location, rfl, h.shows.keeps hk⟩

theorem At.shownReference (h : s.At b page r d m) : s.shownReference = r.text := by
  obtain ⟨p, hp, hs⟩ := h.shows
  rw [Session.shownReference, hs, h.location]
  have := (Page.build_ok hp).2.1
  rw [h.location] at this
  exact this

section

variable {α β : Type} {select : Command → Option α} {found : Option β} {f : β → α}

theorem At.command (h : s.At b page r d m) (operation : String)
    (hf : ∀ p : Page, p.buttons = Button.all ⟨page, r, .fragment⟩ b d.operations →
      p.command? select = found.map f) :
    s.command operation select =
      (found.map f).elim (.error (.missingOperation operation)) .ok := by
  refine congrArg (Option.elim · _ _) (h.shows.bind_command? fun p hp => hf p ?_)
  rw [hp, h.location, h.base]

end

theorem At.setMode (h : s.At b page r d .normal) (hm : s.Offers m) :
    (s.setMode m).At b page r d m :=
  h.keeps (keeps_setMode hm (.inr (.inl h.mode)))

theorem At.setText (h : s.At b page r d m) (text : String) : (s.setText text).At b page r d m :=
  h.mode ▸ h.keeps (.still ⟨text⟩ s.message)

end Cimi.Session
