import Cimi.Session.Basic
import Mathlib.Tactic.Common

/-!
# Steps of a session

What a step can do to a session is said once, and what holds of all sessions follows from it.  A
step that shows no page keeps the location and all of the page but its mode (`Keeps`); it opens the
panels for editing and adding only on a page that offers them, and none while another one is open.
A call that begins, or goes on after a write, ends, begins a navigation, opens a panel or sends a
write (`Proceeds`).
-/

namespace Cimi

/-- The mode stays, or a panel is opened or closed: no panel takes the place of another one. -/
def Mode.Turns (m m' : Mode) : Prop := m' = m ∨ m = .normal ∨ m' = .normal

theorem Mode.turns_of_step? {m m' : Mode} {e : Event} (h : m.step? e = some m') : m.Turns m' := by
  unfold step? at h
  split at h <;> cases h <;> simp [Turns]

end Cimi

namespace Cimi.Session

variable {s s' : Session}

/-! ## What a step can do -/

/-- Whether the page that is shown has what the panel of a mode needs: a link to save to. -/
def Offers (s : Session) : Mode → Prop
  | .editing => ∃ href, s.command "edit" Command.editTarget? = .ok href
  | .adding => ∃ href, s.command "add" Command.addTarget? = .ok href
  | .normal | .viewing => True

/-- A step that shows no page changes the editor and the message, and may open or close a panel. -/
inductive Keeps (s : Session) : Session → Prop
  | still (e : Editor) (text : Option String) : Keeps s { s with editor := e, message := text }
  | moves {m : Mode} (h : s.Offers m) (ht : s.mode.Turns m) (e : Editor) (text : Option String) :
    Keeps s { s.setMode m with editor := e, message := text }

/-- What a call does until it waits or ends, and where that leaves it. -/
inductive Proceeds (s : Session) : Session → Step → Prop
  | ends {s' : Session} (h : s.Keeps s') (r : Result) : Proceeds s s' (.next (.done r))
  | visits {s' : Session} (h : s.Keeps s') (target : Location) (purpose : Purpose) :
    Proceeds s (s'.visit target purpose).1 (.next (s'.visit target purpose).2)
  | opens {s' : Session} (h : s.Keeps s') (url : String) :
    Proceeds s s' (.next (.fetch url (.editor s'.mode)))
  | sends (request : Write) (writing : Writing) : Proceeds s s (.write request writing)

theorem keeps_self (s : Session) : s.Keeps s := .still s.editor s.message

theorem keeps_setMessage (s : Session) (text : String) : s.Keeps (s.setMessage text) :=
  .still s.editor (some text)

theorem keeps_setMode {m : Mode} (h : s.Offers m) (ht : s.mode.Turns m) :
    s.Keeps (s.setMode m) :=
  .moves h ht s.editor s.message

theorem keeps_base (h : s.Keeps s') : s'.base = s.base := by
  cases h <;> rfl

theorem keeps_navigator (h : s.Keeps s') : s'.navigator = s.navigator := by
  cases h <;> rfl

theorem keeps_location (h : s.Keeps s') : s'.location = s.location := by
  cases h <;> rfl

theorem keeps_mode (h : s.Keeps s') : s.mode.Turns s'.mode := by
  cases h with
  | still => exact .inl rfl
  | moves _ ht => exact ht

theorem keeps_page_none (h : s.Keeps s') (hp : s.page = none) :
    s'.page = none := by
  cases h with
  | still => exact hp
  | moves => simp only [setMode, hp, Option.map_none]

theorem keeps_page_some (h : s.Keeps s') {p : Page}
    (hp : s.page = some { p with mode := s.mode }) : s'.page = some { p with mode := s'.mode } := by
  cases h with
  | still => exact hp
  | moves => simp only [setMode, hp, Option.map_some]

/-- An event that the mode allows changes the mode, and nothing else. -/
theorem apply_ok {e : Mode.Event} (h : s.apply e = .ok s') :
    ∃ m, s.mode.step? e = some m ∧ s' = s.setMode m := by
  unfold apply Mode.step at h
  rcases hm : s.mode.step? e with _ | m <;> rw [hm] at h <;> cases h
  exact ⟨m, rfl, rfl⟩

theorem apply_eq_ok {e : Mode.Event} {m : Mode} (h : s.mode.step? e = some m) :
    s.apply e = .ok (s.setMode m) := by
  rw [apply, Mode.step, h]
  rfl

theorem apply_eq_error {e : Mode.Event} (h : s.mode.step? e = none) :
    s.apply e = .error (.transition ⟨s.mode, e⟩) := by
  rw [apply, Mode.step, h]
  rfl

/-- Only the events that open them lead to the panels for editing and adding. -/
theorem offers_of_step? {e : Mode.Event} {m : Mode} (h : s.mode.step? e = some m)
    (he : e ≠ .startEdit) (ha : e ≠ .startAdd) : s.Offers m := by
  unfold Mode.step? at h
  split at h <;> cases h <;> trivial

theorem eq_editing_of_step? {m m' : Mode} (h : m.step? .startEdit = some m') : m' = .editing := by
  cases m <;> cases h
  rfl

theorem eq_adding_of_step? {m m' : Mode} (h : m.step? .startAdd = some m') : m' = .adding := by
  cases m <;> cases h
  rfl

theorem keeps_of_apply {e : Mode.Event} (h : s.apply e = .ok s')
    (he : e ≠ .startEdit) (ha : e ≠ .startAdd) : s.Keeps s' := by
  obtain ⟨m, hm, rfl⟩ := apply_ok h
  exact keeps_setMode (offers_of_step? hm he ha) (Mode.turns_of_step? hm)

theorem proceeds_settle {r : Except Error Session}
    (h : ∀ s', r = .ok s' → s.Keeps s') : Proceeds s (s.settle r).1 (s.settle r).2 := by
  rcases r with e | s'
  · exact .ends (keeps_self s) _
  · exact .ends (h s' rfl) _

theorem proceeds_openEditor {e : Mode.Event}
    (h : ∀ m, s.mode.step? e = some m → s.Offers m) :
    Proceeds s (s.openEditor e).1 (.next (s.openEditor e).2) := by
  unfold openEditor
  rcases hs : s.apply e with err | s'
  · exact .ends (keeps_self s) _
  · obtain ⟨m, hm, rfl⟩ := apply_ok hs
    exact .opens (keeps_setMode (h m hm) (Mode.turns_of_step? hm)) _

theorem proceeds_cancel (s : Session) (text : String) :
    Proceeds s (s.cancel text).1 (s.cancel text).2 := by
  refine proceeds_settle fun s' h => ?_
  rcases hs : s.apply .cancelled with err | s₁ <;> rw [hs] at h <;> cases h
  obtain ⟨m, hm, rfl⟩ := apply_ok hs
  exact .moves (offers_of_step? hm (by simp) (by simp)) (Mode.turns_of_step? hm) s.editor
    (some text)

theorem proceeds_sendText (s : Session) (request : Json.Value → Write) (writing : Writing) :
    Proceeds s (s.sendText request writing).1 (s.sendText request writing).2 := by
  unfold sendText
  split
  · exact .sends _ _
  · exact .ends (keeps_setMessage s _) _

theorem sendText_ok {body : Json.Value} (h : s.editor.validate = .ok body)
    (request : Json.Value → Write) (w : Writing) :
    s.sendText request w = (s, .write (request body) w) := by
  rw [sendText, h]

theorem sendText_error {e : Error} (h : s.editor.validate = .error e)
    (request : Json.Value → Write) (w : Writing) :
    s.sendText request w = (s.setMessage e.message, .next (.done (.error e))) := by
  rw [sendText, h]

/-- The call that opens the editor asks for the document that is shown. -/
theorem start_startEdit {href : String} (hm : s.mode = .normal)
    (hc : s.command "edit" Command.editTarget? = .ok href) :
    s.start .startEdit = (s.setMode .editing,
      .next (.fetch (s.base.fetchUrl s.location.reference) (.editor .editing))) := by
  have ha : s.apply .startEdit = .ok (s.setMode .editing) := apply_eq_ok (by rw [hm]; rfl)
  rw [start, hc]
  simp only [openEditor, ha]
  rfl

/-- The call that saves an edit sends the text that is in the editor as it begins. -/
theorem start_finishEdit {href : String} (hm : s.mode = .editing)
    (hc : s.command "edit" Command.editTarget? = .ok href) :
    s.start .finishEdit =
      s.sendText (Service.updateRequest s.base href) (.update s.shownReference) := by
  rw [start, finishEdit, require, if_pos hm, hc]

theorem start_finishAdd {href : String} (hm : s.mode = .adding)
    (hc : s.command "add" Command.addTarget? = .ok href) :
    s.start .finishAdd = s.sendText (Service.createRequest s.base href) .create := by
  rw [start, finishAdd, require, if_pos hm, hc]

theorem proceeds_start (s : Session) (c : Call) : Proceeds s (s.start c).1 (s.start c).2 := by
  cases c with
  | navigate target => exact .visits (keeps_self s) target .visit
  | reload => exact .visits (keeps_self s) s.location .visit
  | startView =>
    exact proceeds_openEditor fun m hm => offers_of_step? hm (by simp) (by simp)
  | finishView =>
    exact proceeds_settle fun s' h => keeps_of_apply h (by simp) (by simp)
  | startEdit =>
    unfold start
    simp only
    rcases hc : s.command "edit" Command.editTarget? with err | href
    · exact .ends (keeps_self s) _
    · refine proceeds_openEditor fun m hm => ?_
      rw [eq_editing_of_step? hm]
      exact ⟨href, hc⟩
  | finishEdit =>
    unfold start finishEdit
    simp only
    split
    · exact .ends (keeps_self s) _
    · exact .ends (keeps_self s) _
    · exact proceeds_sendText s _ _
  | cancelEdit => exact proceeds_cancel s _
  | startAdd =>
    refine proceeds_settle fun s' h => ?_
    unfold startAdd at h
    rcases hc : s.command "add" Command.addTarget? with err | href <;> rw [hc] at h
    · cases h
    · rcases hs : s.apply .startAdd with err | s₁ <;> rw [hs] at h <;> cases h
      obtain ⟨m, hm, rfl⟩ := apply_ok hs
      refine .moves ?_ (Mode.turns_of_step? hm) _ _
      rw [eq_adding_of_step? hm]
      exact ⟨href, hc⟩
  | finishAdd =>
    unfold start finishAdd
    simp only
    split
    · exact .ends (keeps_self s) _
    · exact .ends (keeps_self s) _
    · exact proceeds_sendText s _ _
  | cancelAdd => exact proceeds_cancel s _
  | delete confirmed =>
    unfold start delete
    simp only
    split
    · exact .ends (keeps_self s) _
    · split
      · exact .sends _ _
      · exact .ends (keeps_setMessage s _) _
  | runAction name confirmed =>
    unfold start runAction
    simp only
    split
    · exact .ends (keeps_self s) _
    · split
      · exact .sends _ _
      · exact .ends (keeps_setMessage s _) _

theorem proceeds_closeFailed (s : Session) (text : String) (err : Error) :
    Proceeds s (s.closeFailed text err).1 (.next (s.closeFailed text err).2) := by
  unfold closeFailed
  simp only
  rcases hs : (s.setMessage text).apply .failed with refusal | s₁
  · exact .ends (keeps_setMessage s text) _
  · obtain ⟨m, hm, rfl⟩ := apply_ok hs
    have hoffers : s.Offers m := offers_of_step? hm (by simp) (by simp)
    exact .ends (.moves hoffers (Mode.turns_of_step? hm) s.editor (some text)) _

/-- A write that has been answered lets its call end, or go on to show what was written. -/
theorem proceeds_resumeWrite (s : Session) (w : Writing) (answer : Written) :
    Proceeds s (s.resumeWrite w answer).1 (.next (s.resumeWrite w answer).2) := by
  match w, answer with
  | .update _, .ok _ =>
    unfold resumeWrite
    simp only
    rcases hs : s.apply .saved with err | s₁
    · exact .ends (keeps_self s) _
    · exact .visits (keeps_of_apply hs (by simp) (by simp)) _ _
  | .update id, .error err => exact proceeds_closeFailed s _ err
  | .create, .ok created =>
    unfold resumeWrite
    simp only
    rcases hs : s.apply .created with err | s₁
    · exact .ends (keeps_self s) _
    · exact .visits (keeps_of_apply hs (by simp) (by simp)) _ _
  | .create, .error err => exact proceeds_closeFailed s _ err
  | .delete href parent, .ok _ => exact .visits (keeps_self s) _ _
  | .delete href parent, .error err => exact .ends (keeps_setMessage s _) _
  | .action name, .ok _ => exact .visits (keeps_self s) _ _
  | .action name, .error err => exact .ends (keeps_setMessage s _) _

/-! ## Navigations that end -/

section

variable {t : Ticket} {l : Location} {purpose : Purpose} {answer : Fetched}

theorem resumeFetch_superseded (h : s.navigator.isCurrent t = false) :
    s.resumeFetch (.page t l purpose) answer = (s, purpose.result (.ok .superseded)) := by
  simp only [resumeFetch, h, Bool.false_eq_true, ↓reduceIte]

theorem resumeFetch_rendered (h : s.navigator.isCurrent t = true) {p : Page}
    (hp : Service.page s.base l .normal answer = .ok p) :
    s.resumeFetch (.page t l purpose) answer =
      ({ s with location := l, mode := .normal, page := some p, editor := ⟨p.json⟩,
                message := none }, purpose.result (.ok .rendered)) := by
  simp only [resumeFetch, h, ↓reduceIte, setMode, hp]

theorem resumeFetch_failed (h : s.navigator.isCurrent t = true) {e : Error}
    (hp : Service.page s.base l .normal answer = .error e) :
    s.resumeFetch (.page t l purpose) answer =
      ((s.setMode .normal).setMessage e.message, purpose.result (.error e)) := by
  simp only [resumeFetch, h, ↓reduceIte, setMode, hp]

end

/-- What a navigation is for decides what its call ends with, and nothing else. -/
theorem resumeFetch_page (s : Session) (t : Ticket) (l : Location) (purpose : Purpose)
    (answer : Fetched) :
    s.resumeFetch (.page t l purpose) answer = ((s.resumeFetch (.page t l .visit) answer).1,
      purpose.result (s.resumeFetch (.page t l .visit) answer).2) := by
  rcases hc : s.navigator.isCurrent t with _ | _
  · simp only [resumeFetch_superseded hc, Purpose.result]
  · rcases hp : Service.page s.base l .normal answer with e | p
    · simp only [resumeFetch_failed hc hp, Purpose.result]
    · simp only [resumeFetch_rendered hc hp, Purpose.result]

theorem keeps_resumeEditor (s : Session) (opened : Mode) (answer : Fetched) :
    s.Keeps (s.resumeFetch (.editor opened) answer).1 := by
  unfold resumeFetch
  simp only
  split
  · split_ifs
    · exact .still _ _
    · exact keeps_self s
  · exact keeps_setMessage s _

/-! ## A call from its beginning to its end -/

variable {c : Call}

/-- Goes on to the end with a call whose write has been answered. -/
def resumed (s : Session) (w : Writing) (answer : Written) : Exchange (Session × Result) :=
  (s.resumeWrite w answer).1.finishNext (s.resumeWrite w answer).2

theorem run_done {r : Result} (h : s.start c = (s', .next (.done r))) :
    s.run c = .done (s', r) := by
  rw [run, h]
  rfl

theorem run_fetch {url : String} {reading : Reading}
    (h : s.start c = (s', .next (.fetch url reading))) :
    s.run c = .fetch url fun answer => .done (s'.resumeFetch reading answer) := by
  rw [run, h]
  rfl

theorem run_write {request : Write} {w : Writing} (h : s.start c = (s', .write request w)) :
    s.run c = .write request (s'.resumed w) := by
  rw [run, h]
  rfl

end Cimi.Session
