import Cimi.Proofs.Editor
import Cimi.Proofs.Session.Writes

/-!
# Saving what was not changed

A viewer opens the editor on a document and saves its text as it is.  What is sent is the document,
with the order of all its keys: its text is read back as it was written (`Editor.validate_pretty`),
and nothing else happens to it on the way (`Shows.resave_lossless`).
-/

namespace Cimi.Session

variable {s : Session} {d shown : Document} {href : String} {o : Operation}

/-- Opens the editor and saves what is in it. -/
def resave (s : Session) : Exchange (Session × Result) := do
  let (s, _) ← s.run .startEdit
  s.run .finishEdit

/-- The editor, opened on a document, holds its text. -/
theorem resumeEditor_ok (h : s.mode = .editing) (d : Document) :
    s.resumeFetch (.editor .editing) (.ok d.toValue) = (s.setText d.pretty, .ok .done) := by
  rw [resumeFetch, Service.document]
  simp only [bind, Except.bind, Document.toValue, Document.ofValue, Except.mapError, if_pos h]

/-- A text that is JSON is sent to the link of the edit. -/
theorem run_finishEdit_ok {body : Json.Value} (hmode : s.mode = .editing)
    (hedit : s.command "edit" Command.editTarget? = .ok href)
    (hbody : s.editor.validate = .ok body) :
    ∃ after, s.run .finishEdit = .write ⟨.put, s.base.resolve href, some body⟩ after := by
  have hstart := start_finishEdit hmode hedit
  rw [sendText_ok hbody] at hstart
  exact ⟨_, run_write hstart⟩

theorem Shows.command_edit (h : s.Shows shown)
    (ho : shown.operations.find? (·.rel = "edit") = some o) :
    s.command "edit" Command.editTarget? = .ok o.href := by
  have hpage := h.bind_command? fun p hp => Page.command?_edit hp
  rw [command, hpage, ho]
  rfl

/-- What is saved unchanged is sent as it came. -/
theorem Shows.resave_lossless (h : s.Shows shown) (hmode : s.mode = .normal)
    (ho : shown.operations.find? (·.rel = "edit") = some o)
    (hexact : d.toValue.all Json.Value.isExact = true)
    (hkeyed : d.toValue.all Json.Value.isKeyed = true) (hdepth : d.toValue.depth < 128) :
    ∃ next after, s.resave = .fetch (s.base.fetchUrl s.location.reference) next ∧
      next (.ok d.toValue) = .write ⟨.put, s.base.resolve o.href, some d.toValue⟩ after := by
  have hedit := h.command_edit ho
  have hopened : (s.setMode .editing).command "edit" Command.editTarget? = .ok o.href :=
    (command_setMode s .editing "edit" Command.editTarget?).trans hedit
  obtain ⟨after, hafter⟩ := run_finishEdit_ok (s := (s.setMode .editing).setText d.pretty) rfl
    hopened (Editor.validate_pretty hexact hkeyed hdepth)
  refine ⟨fun answer => ((s.setMode .editing).resumeFetch (.editor .editing) answer).1.run
    .finishEdit, after, ?_, ?_⟩
  · rw [Session.resave, run_fetch (start_startEdit hmode hedit)]
    rfl
  · simp only [resumeEditor_ok (s := s.setMode .editing) rfl d]
    exact hafter

/-- Escapes, the least and the greatest integer, empty containers and keys out of order come back
as they were. -/
theorem resave_disk :
    ∃ (s : Session) (d : Document) (next : Fetched → Exchange (Session × Result))
      (after : Written → Exchange (Session × Result)),
      d = ⟨[("size", .array [.number (.int (2 ^ 64 - 1)), .number (.int (-2 ^ 63)), .array []]),
        ("name", .string "a\n\"b\\"), ("extra", .object [("z", .null), ("a", .object [])])]⟩ ∧
      s.resave = .fetch "http://host/api/disk/1" next ∧
      next (.ok d.toValue) = .write ⟨.put, "http://host/api/disk/1", some d.toValue⟩ after := by
  let shown : Document := ⟨[("resourceURI", .string "Disk"), ("operations",
    .array [.object [("rel", .string "edit"), ("href", .string "disk/1")]])]⟩
  let l : Location := ⟨"page", ⟨"disk/1"⟩, .fragment⟩
  let s : Session :=
    { Session.new ⟨"http://host/api/"⟩ l with
      page := (Page.build l ⟨"http://host/api/"⟩ shown .normal).toOption }
  have hs : s.Shows shown := ⟨_, rfl, rfl⟩
  obtain ⟨next, after, hfetch, hwrite⟩ := hs.resave_lossless (o := ⟨"edit", "disk/1"⟩) rfl rfl
    (d := ⟨[("size", .array [.number (.int (2 ^ 64 - 1)), .number (.int (-2 ^ 63)), .array []]),
      ("name", .string "a\n\"b\\"), ("extra", .object [("z", .null), ("a", .object [])])]⟩)
    rfl rfl (by decide)
  have hurl : s.base.fetchUrl s.location.reference = "http://host/api/disk/1" := by decide
  have hlink : s.base.resolve "disk/1" = "http://host/api/disk/1" := by decide
  rw [hurl] at hfetch
  rw [hlink] at hwrite
  exact ⟨s, _, next, after, rfl, hfetch, hwrite⟩

end Cimi.Session
