import Cimi.Proofs.Session.Panels

/-!
# Panels that are closed by answers

The call that saves what is in a panel leaves the panel open and waits.  Its answer closes a panel if
one is open by then that it can close: after a success one of the same mode, after a failure one for
editing or adding (`closes`).  That is the panel that has been saved, or one that has been opened
since (`Run.answer_closes`).  In the second case the viewer is still at work in the panel that is
closed, and after a success the navigation that follows replaces the text as well
(`late_answer_closes`).
-/

namespace Cimi.Session

variable {b : Endpoint} {l : Location} {ms : List Moment} {o : Overlap} {s : Session}

/-- What waits for the answer to the text of a panel is a call that has been made in that panel. -/
theorem Moment.saves_panel {m : Moment} {name : String} {request : Write} {w : Writing} {p : Mode}
    (hn : m.action.name? = some name) (hp : m.progress = some (.waits (.writing request w)))
    (hw : w.panel? = some p) :
    (m.action = .call name .finishEdit ∨ m.action = .call name .finishAdd) ∧
      m.before.session.mode = p ∧ m.after.session = m.before.session := by
  obtain ⟨c, hc, hbegins⟩ := Moment.begins_of_waits hn hp (by simp)
  generalize hs : m.after.session = s' at hbegins ⊢
  rw [Waiting.step] at hbegins
  cases hbegins with
  | saves hm =>
    cases hw
    exact ⟨.inl hc, hm, rfl⟩
  | adds hm =>
    cases hw
    exact ⟨.inr hc, hm, rfl⟩
  | sends _ _ hw' =>
    rw [hw] at hw'
    cases hw'

/-- A viewer has changed the text of a disk. -/
def editing : Overlap :=
  [.call "load" .reload, .fetched "load" (disk "disk/1"), .call "edit" .startEdit,
    .fetched "edit" (disk "disk/1"), .setText "\x7b\x7d"].foldl (fun o a => (o.act a).1)
    (.ofSession (.new ⟨"http://host/api/"⟩ ⟨"page", ⟨"disk/1"⟩, .fragment⟩))

/-- What waits once that text is saved. -/
def saving : Waiting :=
  .writing (Service.updateRequest ⟨"http://host/api/"⟩ "disk/1" (.object [])) (.update "disk/1")

theorem run_editing :
    ∃ ms, Run ⟨"http://host/api/"⟩ ⟨"page", ⟨"disk/1"⟩, .fragment⟩ ms editing :=
  ⟨_, Run.start.step _ |>.step _ |>.step _ |>.step _ |>.step _⟩

theorem act_saving :
    editing.act (.call "save" .finishEdit) =
      (⟨editing.session, [("save", saving)]⟩, some (.waits saving)) := by
  have hv : Editor.validate ⟨"\x7b\x7d"⟩ = .ok (.object []) := by
    cbv
  have hstart := start_finishEdit (s := editing.session) rfl rfl
  rw [sendText_ok (s := editing.session) hv] at hstart
  have hs : editing.session.start .finishEdit = (editing.session, saving.step) := hstart
  rw [Overlap.act, Overlap.call, hs]
  rfl

theorem answered_saving (ms between : List Moment) (o : Overlap) (answer : Written)
    (hb : ∀ x ∈ between, x.action.name? ≠ some "save") (ho : o.waiting? "save" = some saving) :
    Answered (ms ++ ⟨editing, .call "save" .finishEdit⟩ :: (between ++ [⟨o, .written "save" answer⟩]))
      ⟨editing, .call "save" .finishEdit⟩ between ⟨o, .written "save" answer⟩ "save" saving :=
  ⟨⟨ms, [], rfl⟩, ⟨rfl, congrArg Prod.snd act_saving⟩, fun x hx hn => absurd hn (hb x hx), ho⟩

/-! ## Answers -/

/-- Whether an answer to the text of a panel of the mode `p` closes a panel of the mode `q`. -/
def closes (p : Mode) : Written → Mode → Bool
  | .ok _, q => q = p
  | .error _, q => q = .editing ∨ q = .adding

/-- A call that goes on with a navigation. -/
def Next.navigates : Next → Bool
  | .fetch _ (.page _ _ _) => true
  | _ => false

/-- An answer to the text of a panel closes a panel or none, and leaves the text in the editor.  A
navigation follows after a success that closes a panel. -/
theorem resumeWrite_panel (s : Session) {w : Writing} {p : Mode} (hw : w.panel? = some p)
    (answer : Written) :
    (s.resumeWrite w answer).1.mode = (if closes p answer s.mode then .normal else s.mode) ∧
      (s.resumeWrite w answer).1.editor = s.editor ∧
      (s.resumeWrite w answer).2.navigates = (answer.isOk && closes p answer s.mode) := by
  obtain ⟨base, navigator, location, mode, page, editor, message⟩ := s
  rcases w with id | _ | _ | _ <;> cases hw <;> rcases answer with e | created <;> cases mode <;>
    exact ⟨rfl, rfl, rfl⟩

theorem Moment.after_written {m : Moment} {name : String} {request : Write} {w : Writing}
    {answer : Written} (hm : m.action = .written name answer)
    (hw : m.before.waiting? name = some (.writing request w)) :
    m.after.session = (m.before.session.resumeWrite w answer).1 ∧
      m.begins?.isSome = (m.before.session.resumeWrite w answer).2.navigates := by
  have hact : m.before.act m.action =
      ((m.before.settle name (m.before.session.resumeWrite w answer).1
        (.next (m.before.session.resumeWrite w answer).2)).1,
      some (m.before.settle name (m.before.session.resumeWrite w answer).1
        (.next (m.before.session.resumeWrite w answer).2)).2) := by
    rw [hm, Overlap.act, Overlap.written]
    simp only [hw]
  refine ⟨by rw [Moment.after, hact, Overlap.session_settle], ?_⟩
  rw [Moment.begins?, Moment.progress, hact]
  rcases (m.before.session.resumeWrite w answer).2 with r | ⟨url, _ | _⟩ <;> rfl

/-- The answer to the text of a panel closes that panel, or one that has been opened since: only the
mode decides. -/
theorem Run.answer_closes (h : Run b l ms o) {k m : Moment} {between : List Moment} {name : String}
    {request : Write} {w : Writing} {p : Mode} {answer : Written}
    (ha : Answered ms k between m name (.writing request w)) (hw : w.panel? = some p)
    (hm : m.action = .written name answer) :
    (k.action = .call name .finishEdit ∨ k.action = .call name .finishAdd) ∧
      k.before.session.mode = p ∧
      (m.after.session.mode =
        if closes p answer m.before.session.mode then .normal else m.before.session.mode) ∧
      m.after.session.editor = m.before.session.editor ∧
      m.begins?.isSome = (answer.isOk && closes p answer m.before.session.mode) ∧
      ∀ q, q ≠ .normal →
        (m.before.session.mode = q ↔ (p = q ∧ StaysOpen between) ∨ Opens q between) := by
  obtain ⟨hcall, hk, hsame⟩ := Moment.saves_panel ha.comes.1 ha.comes.2 hw
  obtain ⟨hafter, hbegins⟩ := Moment.after_written hm ha.awaited
  obtain ⟨hmode, heditor, hnext⟩ := resumeWrite_panel m.before.session hw answer
  rw [hafter]
  refine ⟨hcall, hk, hmode, heditor, hbegins.trans hnext, fun q hq => ?_⟩
  rw [ha.mode_iff h hq, hsame, hk]

/-- The answer closes the panel from which the text was sent. -/
theorem answer_closes_editing :
    ∃ ms o k m, Run ⟨"http://host/api/"⟩ ⟨"page", ⟨"disk/1"⟩, .fragment⟩ ms o ∧
      Answered ms k [] m "save" saving ∧ m.action = .written "save" (.ok none) ∧
      m.before.session.mode = .editing ∧ m.after.session.mode = .normal ∧
      m.begins?.isSome = true := by
  obtain ⟨ms, h⟩ := run_editing
  have hs := h.step (.call "save" .finishEdit)
  rw [act_saving] at hs
  have hanswer := hs.step (.written "save" (.ok none))
  rw [List.append_assoc] at hanswer
  have ha := answered_saving ms [] ⟨editing.session, [("save", saving)]⟩ (.ok none) (by simp) rfl
  have hcloses := hanswer.answer_closes ha rfl rfl
  exact ⟨_, _, _, _, hanswer, ha, rfl, rfl, hcloses.2.2.1, hcloses.2.2.2.2.1⟩

/-- An answer to the text of a panel closes no panel and leaves the editor alone when that panel has
been closed before. -/
def SparesLaterPanels (ms : List Moment) : Prop :=
  ∀ k between m name request w p answer, Answered ms k between m name (.writing request w) →
    w.panel? = some p → m.action = .written name answer → ¬StaysOpen between →
    m.after.session.mode = m.before.session.mode ∧
      m.after.session.editor = m.before.session.editor

/-- An edit is saved and cancelled, and the resource is edited again.  Then the answer to the first
text comes, and closes the second panel, whatever it is. -/
theorem late_answer_closes :
    ∃ ms o, Run ⟨"http://host/api/"⟩ ⟨"page", ⟨"disk/1"⟩, .fragment⟩ ms o ∧
      o.session.mode = .editing ∧ o.session.editor = ⟨"typed"⟩ ∧
      ∀ answer, ¬SparesLaterPanels (ms ++ [⟨o, .written "save" answer⟩]) := by
  obtain ⟨ms, h⟩ := run_editing
  have hs := h.step (.call "save" .finishEdit)
  rw [act_saving] at hs
  have hlate := hs.step (.call "cancel" .cancelEdit)
    |>.step (.call "again" .startEdit)
    |>.step (.fetched "again" (disk "disk/1"))
    |>.step (.setText "typed")
  refine ⟨_, _, hlate, rfl, rfl, fun answer hspares => ?_⟩
  simp only [List.append_assoc, List.cons_append, List.nil_append] at hspares
  have := hspares _ [_, _, _, _] ⟨_, .written "save" answer⟩ "save" _ (.update "disk/1") .editing
    answer (answered_saving ms [_, _, _, _] _ answer ?_ rfl) rfl rfl ?_
  · rcases answer with e | created <;> exact Mode.noConfusion this.1
  · simp [Action.name?]
  · exact fun hopen => hopen _ (.head _) rfl

end Cimi.Session
