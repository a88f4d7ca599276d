import Cimi.Proofs.Web.Answering
import Mathlib

/-!
# A text that is typed and is no JSON

Nothing is sent of a text that is no JSON.  To show it again the page is fetched once more
(`respond_rejected_eq`), and what the server answers then decides what becomes of the text.  It
stands in the field of the page that comes back if the document has a page that still offers the
operation, and it is lost in all other cases (`respond_rejected`).
-/

namespace Cimi.Web

variable {b : Endpoint} {l : Location} {d : Document} {p : Page} {form : Form} {r : Request}
  {task : Task} {answer : Fetched} {fault : Json.SyntaxError}

/-! ## The field of a page -/

namespace Markup

/-- What stands before the text in the field of a page. -/
def fieldStart : String := "\n  <textarea name=\"json\" spellcheck=\"false\">"

/-- What stands after it, with the button that sends the text. -/
def fieldEnd : String := "</textarea>\n  <button type=\"submit\">"

/-- A page has one field for text, in which the given text stands. -/
def HasField (m : Markup) (text : String) : Prop :=
  ∃ before after, m = before ++ [.markup fieldStart, .text text, .markup fieldEnd] ++ after ∧
    .markup fieldStart ∉ before ∧ .markup fieldStart ∉ after

variable {m n : Markup} {text : String}

theorem HasField.append_right (h : m.HasField text) (hn : .markup fieldStart ∉ n) :
    HasField (m ++ n) text := by
  obtain ⟨before, after, rfl, hbefore, hafter⟩ := h
  exact ⟨before, after ++ n, by simp only [List.append_assoc], hbefore, by simp [hafter, hn]⟩

theorem HasField.append_left (h : n.HasField text) (hm : .markup fieldStart ∉ m) :
    HasField (m ++ n) text := by
  obtain ⟨before, after, rfl, hbefore, hafter⟩ := h
  exact ⟨m ++ before, after, by simp only [List.append_assoc], by simp [hbefore, hm], hafter⟩

end Markup

open Markup

theorem notMem_trail (crumbs : List Crumb) : .markup fieldStart ∉ Html.trail crumbs := by
  cases crumbs <;> simp [Html.trail, Html.anchor, Html.crumb, fieldStart]

theorem notMem_message (text : Option String) : .markup fieldStart ∉ Html.message text := by
  cases text <;> simp [Html.message, fieldStart]

theorem notMem_parent (r : Option String) : .markup fieldStart ∉ Html.parent r := by
  cases r <;> simp [Html.parent, Html.hidden, fieldStart]

theorem notMem_control (reference : String) (c : Control) :
    .markup fieldStart ∉ Html.control reference c := by
  unfold Html.control
  split
  · simp [fieldStart]
  · next post _ =>
    have hparent := notMem_parent post.parent
    unfold fieldStart at hparent ⊢
    simp [Html.sending, Html.hidden, hparent]

theorem hasField_panel (reference text : String) (a : Action) (href label : String) :
    (Html.panel reference ⟨text, .send a href label⟩).HasField text := by
  refine ⟨.markup "\n\n" :: Html.sending a ++ .markup "  " :: Html.hidden "reference" reference ++
    .markup "\n  " :: Html.hidden "href" href, [.text label, .markup "</button>\n</form>\n\n"],
    rfl, ?_, ?_⟩
  · simp [Html.sending, Html.hidden, fieldStart]
  · simp [fieldStart]

theorem hasField_frame {title content : Markup} {text : String}
    (htitle : .markup fieldStart ∉ title) (h : content.HasField text) :
    (Html.frame title content).HasField text := by
  unfold Html.frame
  refine (h.append_left ?_).append_right (by simp [fieldStart])
  have hstyle : fieldStart ≠ Html.style := by decide
  have hhead : fieldStart ≠ Html.head := by decide
  unfold fieldStart at hstyle hhead htitle ⊢
  simp [htitle, hstyle, hhead]

/-- The text of a panel that is sent stands in the one field of the page. -/
theorem View.hasField {v : View} {text href label : String} {a : Action}
    (h : v.panel = some ⟨text, .send a href label⟩) : v.markup.HasField text := by
  refine hasField_frame (by simp) ?_
  have hbody : (Html.body v).HasField text := by
    rw [Html.body, h]
    exact hasField_panel _ _ _ _ _
  have hrest : HasField (.markup "\n</div>\n\n" :: Html.body v) text :=
    hbody.append_left (m := [_]) (by simp [fieldStart])
  refine (hrest.append_left ?_).append_right (by simp [fieldStart])
  have htrail := notMem_trail v.page.trail
  have hmessage := notMem_message v.message
  have hcontrols := notMem_control v.page.reference
  unfold fieldStart at htrail hmessage hcontrols ⊢
  simp [htrail, hmessage, hcontrols]

/-! ## What becomes of the text -/

/-- A task that sends a text. -/
def Task.Types (task : Task) (text : String) : Prop := task = .save text ∨ task = .add text

/-- What is answered to the form of a text that is no JSON, from the answer of the server. -/
def Form.rejected (b : Endpoint) (form : Form) (m : Mode) (fault : Error) (answer : Fetched) :
    Reply :=
  match (Service.page b (locationOf form.reference) m answer).bind (requireSave m) with
  | .ok p => .page 422 ((View.ofPage p (some fault.message) none).withText form.json)
  | .error e => .failure (.browser e)

theorem reject_eq_rejected (b : Endpoint) (form : Form) (m : Mode) (fault : Error) :
    form.reject b m fault = .fetch (b.fetchUrl (locationOf form.reference).reference) fun answer =>
      .done (form.rejected b m fault answer) := by
  refine congrArg (Exchange.fetch _) (funext fun answer => ?_)
  unfold Form.rejected
  change (Exchange.done ((Service.page b _ m answer).bind (requireSave m))).bind _ = _
  rw [Exchange.bind]
  cases (Service.page b (locationOf form.reference) m answer).bind (requireSave m) <;> rfl

theorem perform_of_fault (ht : task.Types form.json)
    (hj : Json.parse form.json = .error fault) :
    task.action.perform b form = form.reject b task.mode (.invalidJson fault) := by
  have hv : (Editor.mk form.json).validate = .error (.invalidJson fault) :=
    Editor.validate_of_fault hj
  rcases ht with rfl | rfl
  · exact update_of_error hv
  · exact create_of_error hv

theorem respond_rejected_eq (ht : task.Types form.json) (hm : r.method = "POST")
    (hpath : r.address.path = task.action.path) (hform : r.form = .ok form)
    (hj : Json.parse form.json = .error fault) :
    respond b r = .fetch (b.fetchUrl (locationOf form.reference).reference) fun answer =>
      .done (form.rejected b task.mode (.invalidJson fault) answer).response := by
  rw [respond_post hm hpath hform, perform_of_fault ht hj, reject_eq_rejected]
  rfl

theorem ofButtons_of_command? {select : Command → Option String} {href : String}
    (h : p.command? select = some href) (a : Action) :
    ∃ label, Purpose.ofButtons p.buttons a select = .send a href label := by
  unfold Page.command? at h
  unfold Purpose.ofButtons
  generalize p.buttons = buttons at h ⊢
  induction buttons with
  | nil => cases h
  | cons button buttons ih =>
    rw [List.findSome?_cons] at h ⊢
    rcases hb : select button.command with _ | href' <;> rw [hb] at h
    · exact ih h
    · cases h
      exact ⟨button.label, rfl⟩

/-- Both kinds of panel are opened for the link of the first operation that does the task. -/
theorem exists_select {text : String} (ht : task.Types text)
    (hp : Page.build l b d task.mode = .ok p) :
    ∃ select rel, p.command? select = (d.operations.find? task.isDoneBy).map (·.href) ∧
      requireSave task.mode p = (if (p.command? select).isSome then .ok p
        else .error (.missingOperation rel)) ∧
      Panel.ofPage? p = some ⟨p.editor, .ofButtons p.buttons task.action select⟩ := by
  have hb := Page.buttons_of_build hp
  have hm := Page.mode_of_build hp
  rcases ht with rfl | rfl
  · exact ⟨Command.editTarget?, "edit", Page.command?_edit hb, rfl,
      by rw [Panel.ofPage?, hm]; rfl⟩
  · exact ⟨Command.addTarget?, "add", Page.command?_add hb, rfl,
      by rw [Panel.ofPage?, hm]; rfl⟩

theorem requireSave_of_some {text : String} {o : Operation} (ht : task.Types text)
    (hp : Page.build l b d task.mode = .ok p) (ho : d.operations.find? task.isDoneBy = some o) :
    requireSave task.mode p = .ok p ∧
      ∃ label, Panel.ofPage? p = some ⟨p.editor, .send task.action o.href label⟩ := by
  obtain ⟨select, rel, hcommand, hsave, hpanel⟩ := exists_select ht hp
  rw [ho, Option.map_some] at hcommand
  obtain ⟨label, hsend⟩ := ofButtons_of_command? hcommand task.action
  exact ⟨by simp [hsave, hcommand], label, by rw [hpanel, hsend]⟩

theorem requireSave_of_none {text : String} (ht : task.Types text)
    (hp : Page.build l b d task.mode = .ok p) (ho : d.operations.find? task.isDoneBy = none) :
    ∃ e, requireSave task.mode p = .error e := by
  obtain ⟨select, rel, hcommand, hsave, -⟩ := exists_select ht hp
  exact ⟨.missingOperation rel, by simp [hsave, hcommand, ho]⟩

/-- The server answers with a document that has a page, and with an operation that does the task. -/
def Offers (b : Endpoint) (l : Location) (task : Task) (answer : Fetched) : Prop :=
  ∃ d p, Service.document answer = .ok d ∧ Page.build l b d task.mode = .ok p ∧
    (d.operations.find? task.isDoneBy).isSome

/-- The panel of an operation is shown again, and the one field on its page holds the text. -/
def Reply.Keeps (x : Reply) (a : Action) (text : String) : Prop :=
  ∃ v href label, x = .page 422 v ∧ v.panel = some ⟨text, .send a href label⟩ ∧
    v.markup.HasField text

theorem keeps_of_offers (ht : task.Types form.json)
    (h : Offers b (locationOf form.reference) task answer) (fault : Error) :
    (form.rejected b task.mode fault answer).Keeps task.action form.json := by
  obtain ⟨d, p, hd, hp, ho⟩ := h
  obtain ⟨o, ho⟩ := Option.isSome_iff_exists.1 ho
  obtain ⟨hsave, label, hpanel⟩ := requireSave_of_some ht hp ho
  have hshown : ((View.ofPage p (some fault.message) none).withText form.json).panel =
      some ⟨form.json, .send task.action o.href label⟩ := by
    simp [View.withText, View.ofPage, hpanel]
  refine ⟨_, o.href, label, ?_, hshown, View.hasField hshown⟩
  rw [Form.rejected, Service.page_of_build hd hp]
  simp only [Except.bind, hsave]

theorem failure_of_not_offers (ht : task.Types form.json)
    (h : ¬Offers b (locationOf form.reference) task answer) (fault : Error) :
    ∃ e, form.rejected b task.mode fault answer = .failure (.browser e) := by
  unfold Form.rejected
  rcases hpage : Service.page b (locationOf form.reference) task.mode answer with e | p
  · exact ⟨e, rfl⟩
  · obtain ⟨d, hd, hp⟩ := Service.page_ok hpage
    rcases ho : d.operations.find? task.isDoneBy with _ | o
    · obtain ⟨e, he⟩ := requireSave_of_none ht hp ho
      exact ⟨e, by simp only [Except.bind, he]⟩
    · exact absurd ⟨d, p, hd, hp, by rw [ho]; rfl⟩ h

/-- A text that is no JSON is not sent.  The page is fetched again, and the text is kept just if the
document that the server answers with has a page that offers the operation; if not, the reader is
shown a failure in place of the panel. -/
theorem respond_rejected (ht : task.Types form.json) (hm : r.method = "POST")
    (hpath : r.address.path = task.action.path) (hform : r.form = .ok form)
    (hj : Json.parse form.json = .error fault) :
    ∃ next, respond b r = .fetch (b.fetchUrl (locationOf form.reference).reference) next ∧
      ∀ answer, ∃ x : Reply, next answer = .done x.response ∧
        (x.Keeps task.action form.json ↔ Offers b (locationOf form.reference) task answer) ∧
        (¬Offers b (locationOf form.reference) task answer → ∃ e, x = .failure (.browser e)) := by
  refine ⟨_, respond_rejected_eq ht hm hpath hform hj, fun answer => ⟨_, rfl, ?_, ?_⟩⟩
  · refine ⟨fun hkeeps => ?_, fun h => keeps_of_offers ht h _⟩
    by_contra h
    obtain ⟨v, href, label, hpage, -⟩ := hkeeps
    obtain ⟨e, he⟩ := failure_of_not_offers ht h (.invalidJson fault)
    cases he.symm.trans hpage
  · exact fun h => failure_of_not_offers ht h _

/-- The form in which a text that opens an object is saved to a disk. -/
def opening : Form := ⟨"disk/1", "disk/1", "", none, "\x7b"⟩

/-- The request with that form. -/
def openingRequest : Request :=
  ⟨"POST", ⟨Action.update.path, ""⟩, some formType, opening.body⟩

theorem form_openingRequest : openingRequest.form = .ok opening := by
  have hisForm : openingRequest.isForm = true := by decide
  have hsize : ¬ Text.Utf8.size openingRequest.body.toList > maxBody := by decide
  rw [Request.form, if_neg (by simp [hisForm]), if_neg hsize, openingRequest, Form.parse_body]
  rfl

theorem types_opening : (Task.save opening.json).Types opening.json := .inl rfl

theorem parse_opening : ∃ fault, Json.parse opening.json = .error fault := ⟨_, by cbv⟩

/-- A disk that can be edited. -/
def editable : Fetched :=
  .ok (.object [("resourceURI", .string "Disk"), ("operations",
    .array [.object [("rel", .string "edit"), ("href", .string "disk/1")]])])

theorem respond_rejected_editable :
    ∃ next, respond ⟨"http://host/api/"⟩ openingRequest =
        .fetch "http://host/api/disk/1" next ∧
      (∃ x : Reply, next editable = .done x.response ∧ x.Keeps .update "\x7b") ∧
      ∃ e, next (.error (.transport ⟨404, "Not Found"⟩)) =
        .done (Reply.failure (.browser e)).response := by
  obtain ⟨fault, hfault⟩ := parse_opening
  obtain ⟨next, hnext, hanswer⟩ := respond_rejected (b := ⟨"http://host/api/"⟩) types_opening
    rfl rfl form_openingRequest hfault
  have hurl : Endpoint.fetchUrl ⟨"http://host/api/"⟩ (locationOf opening.reference).reference =
      "http://host/api/disk/1" := by decide
  obtain ⟨x, hx, hkeeps, -⟩ := hanswer editable
  obtain ⟨y, hy, -, hlost⟩ := hanswer (.error (.transport ⟨404, "Not Found"⟩))
  have hoffers : Offers ⟨"http://host/api/"⟩ (locationOf opening.reference) (.save opening.json)
      editable := ⟨_, _, rfl, rfl, rfl⟩
  obtain ⟨e, rfl⟩ := hlost (by rintro ⟨d, p, hd, -⟩; cases hd)
  exact ⟨next, hurl ▸ hnext, ⟨x, hx, hkeeps.2 hoffers⟩, e, hy⟩

/-- Whatever the server answers, a text that is no JSON is shown again. -/
def KeepsTyped : Prop :=
  ∀ (b : Endpoint) (r : Request) (form : Form) (task : Task) (fault : Json.SyntaxError),
    task.Types form.json → r.method = "POST" → r.address.path = task.action.path →
    r.form = .ok form → Json.parse form.json = .error fault →
    ∃ url next, respond b r = .fetch url next ∧
      ∀ answer, ∃ x : Reply, next answer = .done x.response ∧ x.Keeps task.action form.json

/-- The text is lost if the server does not answer just then. -/
theorem typed_lost : ¬KeepsTyped := by
  intro h
  obtain ⟨fault, hfault⟩ := parse_opening
  have hsame := respond_rejected_eq (b := ⟨"http://host/api/"⟩) types_opening rfl rfl
    form_openingRequest hfault
  obtain ⟨url, next, hnext, hanswer⟩ := h ⟨"http://host/api/"⟩ _ _ _ fault types_opening rfl rfl
    form_openingRequest hfault
  obtain ⟨x, hx, v, href, label, rfl, -⟩ :=
    hanswer (.error (.transport ⟨503, "Service Unavailable"⟩))
  rw [hsame] at hnext
  cases hnext
  have hstatus := congrArg Response.status (Exchange.done.inj hx)
  cases hstatus

end Cimi.Web
