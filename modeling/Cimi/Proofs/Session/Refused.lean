import Cimi.Proofs.Session.Closing
import Cimi.Proofs.Session.Writes
import Cimi.Server.Memory
import Mathlib

/-!
# Calls that are refused

A call that cannot be carried out is refused before it asks the server for anything.  It leaves the
session as it was, but for a message where the text is no JSON or the viewer is not sure
(`Run.refused_inert`).

Once something has been asked, no call ends with a refusal: a panel whose text is sent is still open
when the answer comes, if nothing happens in between, and what a client fails with is no refusal
(`isRefusal_resumeWrite`, `isRefusal_resumeFetch`).
-/

namespace Cimi

/-- Whether an error says that the mode or the page does not allow what has been called for. -/
def Error.isRefusal : Error → Bool
  | .transition _ | .missingOperation _ => true
  | _ => false

/-- Whether an error is one that a client fails with. -/
def Error.isOfClient : Error → Bool
  | .transport _ | .invalidJson _ => true
  | _ => false

/-- An answer is a success, or an error that a client fails with. -/
def OfClient {α : Type} (answer : Except Error α) : Prop :=
  ∀ e, answer = .error e → e.isOfClient = true

theorem Error.isRefusal_of_isOfClient {e : Error} (h : e.isOfClient = true) :
    e.isRefusal = false := by
  cases e <;> first | rfl | cases h

/-- An exchange with a server that answers by a client: what has been asked, and the result. -/
inductive Exchange.Plays {α : Type} : Exchange α → List Server.Request → α → Prop
  | done (x : α) : Plays (.done x) [] x
  | fetch {url : String} {next : Fetched → Exchange α} {answer : Fetched}
    {asked : List Server.Request} {x : α} (ha : OfClient answer) (h : (next answer).Plays asked x) :
    Plays (.fetch url next) (.ofFetch url :: asked) x
  | write {request : Write} {next : Written → Exchange α} {answer : Written}
    {asked : List Server.Request} {x : α} (ha : OfClient answer) (h : (next answer).Plays asked x) :
    Plays (.write request next) (.ofWrite request :: asked) x

theorem Exchange.Plays.of_done {α : Type} {x y : α} {asked : List Server.Request}
    (h : (Exchange.done x).Plays asked y) : asked = [] ∧ y = x := by
  cases h
  exact ⟨rfl, rfl⟩

theorem Service.isRefusal_document {answer : Fetched} {e : Error} (ha : OfClient answer)
    (h : document answer = .error e) : e.isRefusal = false := by
  rcases of_bind_eq_error h with h | ⟨v, -, h⟩
  · exact Error.isRefusal_of_isOfClient (ha e h)
  · obtain ⟨_, -, rfl⟩ := of_mapError_eq_error h
    rfl

theorem Service.isRefusal_page {b : Endpoint} {l : Location} {m : Mode} {answer : Fetched}
    {e : Error} (ha : OfClient answer) (h : page b l m answer = .error e) :
    e.isRefusal = false := by
  rcases of_bind_eq_error h with h | ⟨d, -, h⟩
  · exact isRefusal_document ha h
  · obtain ⟨_, -, rfl⟩ := of_mapError_eq_error h
    rfl

namespace Session

variable {b : Endpoint} {l : Location} {ms : List Moment} {o : Overlap} {s s' : Session} {c : Call}
  {r : Result} {e : Error}

/-- A call is refused: its text is no JSON, the viewer is not sure, or it fails because the mode or
the page does not allow it. -/
inductive Refused (s : Session) : Call → Result → Prop
  | save {e : Error} (h : s.editor.validate = .error e) (r : Result) : Refused s .finishEdit r
  | add {e : Error} (h : s.editor.validate = .error e) (r : Result) : Refused s .finishAdd r
  | delete (r : Result) : Refused s (.delete false) r
  | action (name : String) (r : Result) : Refused s (.runAction name false) r
  | fails {e : Error} (h : e.isRefusal = true) (c : Call) : Refused s c (.error e)

/-- What is wrong with the text of the editor, if it is no JSON. -/
def complaint? (s : Session) : Option String :=
  match s.editor.validate with
  | .ok _ => none
  | .error err => some err.message

/-- The message of a refused call: what is wrong with the text of the open panel, or that an operation
of the page has not been confirmed. -/
def notice? (s : Session) : Call → Option String
  | .finishEdit => if s.mode = .editing then s.complaint? else none
  | .finishAdd => if s.mode = .adding then s.complaint? else none
  | .delete false =>
    (s.page.bind (·.command? Command.deleteTarget?)).map fun _ => "Delete cancelled."
  | .runAction name false =>
    (s.page.bind (·.command? (Command.actionTarget? name))).map fun _ => "Action cancelled."
  | _ => none

/-! ## Errors after a request -/

theorem eq_error_of_result {purpose : Purpose} (h : purpose.result r = .error e) :
    r = .error e := by
  cases purpose with
  | visit => exact h
  | afterWrite =>
    rcases r with e' | x
    · cases h
      rfl
    · cases h
  | afterDelete => cases h

theorem isRefusal_resumeFetch {reading : Reading} {answer : Fetched} (ha : OfClient answer)
    (h : (s.resumeFetch reading answer).2 = .error e) : e.isRefusal = false := by
  cases reading with
  | page t target purpose =>
    rw [resumeFetch_page] at h
    have h := eq_error_of_result h
    rcases hc : s.navigator.isCurrent t with _ | _
    · rw [resumeFetch_superseded hc] at h
      cases h
    · rcases hp : Service.page s.base target .normal answer with e' | p
      · rw [resumeFetch_failed hc hp] at h
        cases h
        exact Service.isRefusal_page ha hp
      · rw [resumeFetch_rendered hc hp] at h
        cases h
  | editor opened =>
    unfold resumeFetch at h
    simp only at h
    split at h
    · cases h
    · next hd =>
      cases h
      exact Service.isRefusal_document ha hd

theorem closeFailed_of_panel (hm : s.mode = .editing ∨ s.mode = .adding) (text : String)
    (err : Error) : (s.closeFailed text err).2 = .done (.error err) := by
  have hstep : s.mode.step? .failed = some .normal := by rcases hm with hm | hm <;> rw [hm] <;> rfl
  have happly : (s.setMessage text).apply .failed = .ok ((s.setMessage text).setMode .normal) :=
    apply_eq_ok hstep
  rw [closeFailed]
  simp only [happly, fail]

/-- While the panel whose text has been sent is open, its answer is not refused. -/
theorem isRefusal_resumeWrite {w : Writing} {answer : Written} (ha : OfClient answer)
    (hw : ∀ p, w.panel? = some p → s.mode = p)
    (h : (s.resumeWrite w answer).2 = .done (.error e)) : e.isRefusal = false := by
  have hclient (err : Error) (herr : answer = .error err) : err.isRefusal = false :=
    Error.isRefusal_of_isOfClient (ha err herr)
  match w, answer with
  | .update _, .ok _ =>
    have happly : s.apply .saved = .ok (s.setMode .normal) := apply_eq_ok (by rw [hw _ rfl]; rfl)
    rw [resumeWrite, happly] at h
    cases h
  | .update _, .error err =>
    rw [resumeWrite, closeFailed_of_panel (.inl (hw _ rfl))] at h
    cases h
    exact hclient e rfl
  | .create, .ok _ =>
    have happly : s.apply .created = .ok (s.setMode .normal) := apply_eq_ok (by rw [hw _ rfl]; rfl)
    rw [resumeWrite, happly] at h
    cases h
  | .create, .error err =>
    rw [resumeWrite, closeFailed_of_panel (.inr (hw _ rfl))] at h
    cases h
    exact hclient e rfl
  | .delete _ _, .ok _ => cases h
  | .delete _ _, .error err =>
    cases h
    exact hclient e rfl
  | .action _, .ok _ => cases h
  | .action _, .error err =>
    cases h
    exact hclient e rfl

/-! ## Calls that ask for nothing -/

/-- The session after a call that is refused. -/
def noticed (s : Session) (c : Call) : Session := { s with message := (s.notice? c).or s.message }

theorem noticed_of_none (h : s.notice? c = none) : s.noticed c = s := by
  rw [noticed, h, Option.none_or]

theorem noticed_of_some {text : String} (h : s.notice? c = some text) :
    s.noticed c = s.setMessage text := by
  rw [noticed, h, Option.some_or, setMessage]

/-- The text of the panel for a mode is sent; without the panel, or if it is no JSON, it is
refused. -/
theorem start_of_panel {m : Mode} (hn : s.notice? c = if s.mode = m then s.complaint? else none)
    (hopen : s.mode = m → ∃ request w, s.start c = s.sendText request w)
    (hclosed : s.mode ≠ m → ∃ e, s.start c = (s, .next (.done (.error e)))) :
    (∃ r, s.start c = (s.noticed c, .next (.done r))) ∨
      ∃ v request w, s.editor.validate = .ok v ∧ s.start c = (s, .write request w) := by
  by_cases hm : s.mode = m
  · obtain ⟨request, w, hstart⟩ := hopen hm
    rcases hv : s.editor.validate with err | v
    · rw [sendText_error hv] at hstart
      have hnotice : s.notice? c = some err.message := by simp [hn, hm, complaint?, hv]
      rw [hstart, noticed_of_some hnotice]
      exact .inl ⟨_, rfl⟩
    · rw [sendText_ok hv] at hstart
      exact .inr ⟨v, _, w, rfl, hstart⟩
  · obtain ⟨e, hstart⟩ := hclosed hm
    rw [hstart, noticed_of_none (by simp [hn, hm])]
    exact .inl ⟨_, rfl⟩

theorem Coherent.start_finishEdit_cases (hs : s.Coherent) :
    (∃ r, s.start .finishEdit = (s.noticed .finishEdit, .next (.done r))) ∨
      ∃ v request w, s.editor.validate = .ok v ∧ s.start .finishEdit = (s, .write request w) := by
  refine start_of_panel rfl (fun hm => ?_) fun hm => ?_
  · obtain ⟨href, hc⟩ : s.Offers .editing := hm ▸ hs.offers
    exact ⟨_, _, start_finishEdit hm hc⟩
  · rw [start, finishEdit, require, if_neg hm]
    exact ⟨_, rfl⟩

theorem Coherent.start_finishAdd_cases (hs : s.Coherent) :
    (∃ r, s.start .finishAdd = (s.noticed .finishAdd, .next (.done r))) ∨
      ∃ v request w, s.editor.validate = .ok v ∧ s.start .finishAdd = (s, .write request w) := by
  refine start_of_panel rfl (fun hm => ?_) fun hm => ?_
  · obtain ⟨href, hc⟩ : s.Offers .adding := hm ▸ hs.offers
    exact ⟨_, _, start_finishAdd hm hc⟩
  · rw [start, finishAdd, require, if_neg hm]
    exact ⟨_, rfl⟩

/-- What is not confirmed sets a message if the page has the command. -/
theorem noticed_of_command {α : Type} {text : String} {select : Command → Option α}
    (operation : String)
    (hn : s.notice? c = (s.page.bind (·.command? select)).map fun _ => text) :
    s.noticed c =
      match s.command operation select with
      | .error _ => s
      | .ok _ => s.setMessage text := by
  rw [← toOption_command s operation] at hn
  rcases hc : s.command operation select with err | x <;> rw [hc] at hn
  · exact noticed_of_none hn
  · exact noticed_of_some hn

theorem start_delete_unconfirmed (s : Session) :
    ∃ r, s.start (.delete false) = (s.noticed (.delete false), .next (.done r)) := by
  rw [start, delete, noticed_of_command "delete" rfl]
  rcases s.command "delete" Command.deleteTarget? with err | target <;> exact ⟨_, rfl⟩

theorem start_runAction_unconfirmed (s : Session) (name : String) :
    ∃ r, s.start (.runAction name false) = (s.noticed (.runAction name false), .next (.done r)) := by
  rw [start, runAction, noticed_of_command name rfl]
  rcases s.command name (Command.actionTarget? name) with err | href <;> exact ⟨_, rfl⟩

theorem settle_error {x : Except Error Session} (h : s.settle x = (s', .next (.done (.error e)))) :
    s' = s := by
  rcases x with err | s₁
  · cases h
    rfl
  · cases h

theorem openEditor_error {event : Mode.Event}
    (h : reading (s.openEditor event) = (s', .next (.done (.error e)))) : s' = s := by
  rw [openEditor] at h
  rcases ha : s.apply event with err | s₁ <;> rw [ha] at h <;> cases h
  rfl

/-- A call that fails as it begins sets a message, or changes nothing. -/
theorem Coherent.start_error (hs : s.Coherent)
    (h : s.start c = (s', .next (.done (.error e)))) : s' = s.noticed c := by
  cases c with
  | navigate target => cases h
  | reload => cases h
  | startView => exact openEditor_error h
  | finishView => exact settle_error h
  | startEdit =>
    rw [start] at h
    rcases hc : s.command "edit" Command.editTarget? with err | href <;> rw [hc] at h
    · exact settle_error h
    · exact openEditor_error h
  | finishEdit =>
    rcases hs.start_finishEdit_cases with ⟨r, hr⟩ | ⟨v, request, w, -, hr⟩ <;> rw [hr] at h <;> cases h
    rfl
  | cancelEdit => exact settle_error h
  | startAdd => exact settle_error h
  | finishAdd =>
    rcases hs.start_finishAdd_cases with ⟨r, hr⟩ | ⟨v, request, w, -, hr⟩ <;> rw [hr] at h <;> cases h
    rfl
  | cancelAdd => exact settle_error h
  | delete confirmed =>
    cases confirmed with
    | false =>
      obtain ⟨r, hr⟩ := start_delete_unconfirmed s
      rw [hr] at h
      cases h
      rfl
    | true =>
      rw [start, delete] at h
      rcases hc : s.command "delete" Command.deleteTarget? with err | target <;> rw [hc] at h
      · exact settle_error h
      · cases h
  | runAction name confirmed =>
    cases confirmed with
    | false =>
      obtain ⟨r, hr⟩ := start_runAction_unconfirmed s name
      rw [hr] at h
      cases h
      rfl
    | true =>
      rw [start, runAction] at h
      rcases hc : s.command name (Command.actionTarget? name) with err | href <;> rw [hc] at h
      · exact settle_error h
      · cases h

/-- A call that is refused ends as it begins, or fails because the mode or the page does not allow
it. -/
theorem Coherent.start_refused (hs : s.Coherent) (hr : Refused s c r) :
    (∃ r₁, s.start c = (s.noticed c, .next (.done r₁))) ∨ ∃ e, e.isRefusal = true ∧ r = .error e := by
  cases hr with
  | save hv =>
    rcases hs.start_finishEdit_cases with hends | ⟨v, -, -, hok, -⟩
    · exact .inl hends
    · rw [hv] at hok
      cases hok
  | add hv =>
    rcases hs.start_finishAdd_cases with hends | ⟨v, -, -, hok, -⟩
    · exact .inl hends
    · rw [hv] at hok
      cases hok
  | delete => exact .inl (start_delete_unconfirmed s)
  | action name => exact .inl (start_runAction_unconfirmed s name)
  | @fails e he => exact .inr ⟨e, he, rfl⟩

theorem mode_of_start_write {request : Write} {w : Writing} (h : s.start c = (s', .write request w)) :
    s' = s ∧ ∀ p, w.panel? = some p → s.mode = p := by
  have hb := begins_start s c
  rw [h] at hb
  cases hb with
  | saves hm =>
    refine ⟨rfl, fun p hp => ?_⟩
    cases hp
    exact hm
  | adds hm =>
    refine ⟨rfl, fun p hp => ?_⟩
    cases hp
    exact hm
  | sends _ _ hw =>
    refine ⟨rfl, fun p hp => ?_⟩
    rw [hw] at hp
    cases hp

theorem plays_of_start_done (h : s.start c = (s', .next (.done r))) :
    (s.run c).Plays [] (s', r) := by
  rw [run_done h]
  exact .done _

theorem isRefusal_finishNext {n : Next} {asked : List Server.Request}
    (hp : (s.finishNext n).Plays asked (s', .error e))
    (hn : ∀ e, n = .done (.error e) → e.isRefusal = false) : e.isRefusal = false := by
  cases n with
  | done r =>
    cases hp
    exact hn e rfl
  | fetch url reading =>
    cases hp with
    | fetch ha hp =>
      exact isRefusal_resumeFetch ha (congrArg Prod.snd hp.of_done.2.symm)

theorem isRefusal_run {asked : List Server.Request} (hp : (s.run c).Plays asked (s', .error e))
    (hstart : ∀ s₁ r₁, s.start c ≠ (s₁, .next (.done r₁))) : e.isRefusal = false := by
  rcases h : s.start c with ⟨s₁, (r₁ | ⟨url, reading⟩) | ⟨request, w⟩⟩
  · exact absurd h (hstart s₁ r₁)
  · rw [run_fetch h] at hp
    exact isRefusal_finishNext (n := .fetch url reading) hp (by simp)
  · obtain ⟨rfl, hw⟩ := mode_of_start_write h
    rw [run_write h] at hp
    cases hp with
    | write ha hp => exact isRefusal_finishNext hp fun e => isRefusal_resumeWrite ha hw

/-- In every state of every run, a call that is played to its end with nothing in between, and is
refused, asks for nothing and leaves the session as it was, but for the message. -/
theorem Run.refused_inert (h : Run b l ms o) {asked : List Server.Request}
    (hp : (o.session.run c).Plays asked (s', r)) (hr : Refused o.session c r) :
    asked = [] ∧ s' = { o.session with
      message := (o.session.notice? c).or o.session.message } := by
  change asked = [] ∧ s' = o.session.noticed c
  rcases h.coherent.start_refused hr with ⟨r₁, hstart⟩ | ⟨e, he, rfl⟩
  · rw [run_done hstart] at hp
    cases hp
    exact ⟨rfl, rfl⟩
  · by_cases hends : ∃ s₁ r₁, o.session.start c = (s₁, .next (.done r₁))
    · obtain ⟨s₁, r₁, hstart⟩ := hends
      rw [run_done hstart] at hp
      cases hp
      exact ⟨rfl, h.coherent.start_error hstart⟩
    · push Not at hends
      rw [isRefusal_run hp hends] at he
      cases he

/-- A viewer has mistyped the text of a disk. -/
def mistyped : Overlap := (editing.act (.setText "\x7b\x7d\x7d")).1

/-- What was mistyped is not sent, and stays in the panel. -/
theorem refused_inert_mistyped :
    ∃ ms e s', Run ⟨"http://host/api/"⟩ ⟨"page", ⟨"disk/1"⟩, .fragment⟩ ms mistyped ∧
      (mistyped.session.run .finishEdit).Plays [] (s', .error e) ∧
      Refused mistyped.session .finishEdit (.error e) ∧
      s' = { mistyped.session with
        message := some "invalid JSON: trailing characters at line 1 column 3" } := by
  obtain ⟨ms, h⟩ := run_editing
  have hrun : Run _ _ _ mistyped := h.step (.setText "\x7b\x7d\x7d")
  have hv : mistyped.session.editor.validate = .error (.invalidJson ⟨.trailingCharacters, 1, 3⟩) := by
    change Editor.validate ⟨"\x7b\x7d\x7d"⟩ = _
    cbv
  have hm : mistyped.session.mode = .editing := rfl
  have hnotice : mistyped.session.notice? .finishEdit =
      some "invalid JSON: trailing characters at line 1 column 3" := by
    rw [notice?, if_pos hm, complaint?, hv]
    rfl
  have hstart := start_finishEdit hm rfl
  rw [sendText_error hv] at hstart
  have hplays := plays_of_start_done hstart
  have hinert := (hrun.refused_inert hplays (.save hv _)).2
  rw [hnotice] at hinert
  exact ⟨_, _, _, hrun, hplays, .save hv _, hinert⟩

end Session

end Cimi
