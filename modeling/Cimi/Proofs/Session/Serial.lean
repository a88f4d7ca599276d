import Cimi.Proofs.Session.Contacts
import Cimi.Proofs.Session.Panels

/-!
# One call after the other

A viewer who lets every call end before the next one begins takes the session from one state to the
next by turns (`Serial`).  A panel that is open has been opened in one of these turns, and has
stayed open since (`Serial.exists_opening`).

The panel for viewing or editing shows what its fetch has brought, unless the viewer has typed into
it.  If that fetch failed, the panel is open all the same, and shows what was in the editor before
(`Serial.panel_text`): that may be the template of a new resource (`template_in_panel`).
-/

namespace Cimi

theorem Mode.eq_of_turns {m m' : Mode} (h : m.Turns m') (hm : m ≠ .normal) (hm' : m' ≠ .normal) :
    m' = m := by
  rcases h with h | h | h
  · exact h
  · exact absurd h hm
  · exact absurd h hm'

end Cimi

namespace Cimi.Session

variable {b : Endpoint} {l : Location} {s s' s₁ : Session} {c : Call} {cs : List Contact}
  {r : Result} {w : Writing}

/-- What a viewer does with a session. -/
inductive Deed where
  | call (c : Call) (contacts : List Contact)
  | setText (text : String)
  | format

/-- What a deed makes of a session, whatever the server answers. -/
inductive Does (s : Session) : Deed → Session → Prop
  | call {c : Call} {cs : List Contact} {s' : Session} {r : Result}
    (h : (s.run c).Yields cs (s', r)) : Does s (.call c cs) s'
  | setText (text : String) : Does s (.setText text) (s.setText text)
  | format : Does s .format s.format.1

/-- A deed with the sessions before and after it. -/
structure Turn where
  before : Session
  deed : Deed
  after : Session

/-- The contacts of the call that is made in a turn. -/
def Turn.contacts (t : Turn) : List Contact :=
  match t.deed with
  | .call _ cs => cs
  | _ => []

/-- The runs in which no two calls overlap, with the turns of each. -/
inductive Serial (b : Endpoint) (l : Location) : List Turn → Session → Prop
  | start : Serial b l [] (.new b l)
  | step {ts : List Turn} {s s' : Session} {deed : Deed} (h : Serial b l ts s)
    (hd : s.Does deed s') : Serial b l (ts ++ [⟨s, deed, s'⟩]) s'

variable {ts past since : List Turn} {t : Turn}

/-- No call waits when one of these turns has been taken. -/
theorem Serial.run (h : Serial b l ts s) : ∃ ms, Run b l ms (.ofSession s) := by
  induction h with
  | start => exact ⟨_, .start⟩
  | step h hd ih =>
    obtain ⟨ms, hrun⟩ := ih
    cases hd with
    | call hy => exact hrun.call_ends hy
    | setText text => exact ⟨_, hrun.step (.setText text)⟩
    | format => exact ⟨_, hrun.step .format⟩

/-! ## Panels that stay open -/

/-- A panel is opened in a turn, and stays open in the turns that follow. -/
structure Opening (t : Turn) (since : List Turn) : Prop where
  closed : t.before.mode = .normal
  opened : t.after.mode ≠ .normal
  stays : ∀ u ∈ since, u.after.mode ≠ .normal

/-- The text of the editor is neither set nor formatted in these turns. -/
def Untouched (since : List Turn) : Prop := ∀ u ∈ since, ∃ c cs, u.deed = .call c cs

theorem Serial.exists_opening (h : Serial b l ts s) (hm : s.mode ≠ .normal) :
    ∃ past t since, ts = past ++ t :: since ∧ Opening t since := by
  -- The last turn opens the panel, or finds it open and leaves it so.
  induction h with
  | start => exact absurd rfl hm
  | @step ts s s' deed h hd ih =>
    by_cases hs : s.mode = .normal
    · exact ⟨ts, ⟨s, deed, s'⟩, [], rfl, hs, hm, by simp⟩
    · obtain ⟨past, t, since, rfl, ho⟩ := ih hs
      refine ⟨past, t, since ++ [⟨s, deed, s'⟩], by simp, ho.closed, ho.opened, fun u hu => ?_⟩
      rcases List.mem_append.1 hu with hu | hu
      · exact ho.stays u hu
      · rw [List.mem_singleton.1 hu]
        exact hm

/-- What a navigation leaves open it has not touched: it was overtaken. -/
theorem eq_of_resumePage {ticket : Ticket} {target : Location} {purpose : Purpose}
    {answer : Fetched} (h : s.resumeFetch (.page ticket target purpose) answer = (s', r))
    (hm : s'.mode ≠ .normal) : s' = s := by
  obtain rfl : (s.resumeFetch (.page ticket target purpose) answer).1 = s' := congrArg Prod.fst h
  rcases hc : s.navigator.isCurrent ticket with _ | _
  · rw [resumeFetch_superseded hc]
  · rcases hp : Service.page s.base target .normal answer with e | p
    · rw [resumeFetch_failed hc hp] at hm
      exact absurd rfl hm
    · rw [resumeFetch_rendered hc hp] at hm
      exact absurd rfl hm

theorem editor_resumeWrite (s : Session) (w : Writing) (answer : Written) :
    (s.resumeWrite w answer).1.editor = s.editor := by
  obtain ⟨base, navigator, location, mode, page, editor, message⟩ := s
  rcases w with id | _ | _ | _ <;> rcases answer with e | created <;> cases mode <;> rfl

/-- While a panel is open no other one is opened. -/
theorem step?_of_open {m : Mode} (hm : m ≠ .normal) {e : Mode.Event}
    (he : e = .startView ∨ e = .startEdit ∨ e = .startAdd) : m.step? e = none := by
  rcases he with rfl | rfl | rfl <;> cases m <;> first | rfl | exact absurd rfl hm

/-- A step leaves the text of the editor as it is, and waits for no other. -/
structure Spares (s s' : Session) (step : Step) : Prop where
  editor : s'.editor = s.editor
  awaits : ∀ url m, step ≠ .next (.fetch url (.editor m))

theorem spares_ends (h : s'.editor = s.editor) (r : Result) : s.Spares s' (.next (.done r)) :=
  ⟨h, by simp⟩

theorem spares_settle {x : Except Error Session} (h : ∀ s', x = .ok s' → s'.editor = s.editor) :
    s.Spares (s.settle x).1 (s.settle x).2 := by
  rcases x with e | s'
  · exact spares_ends rfl _
  · exact spares_ends (h s' rfl) _

theorem editor_of_apply {e : Mode.Event} (h : s.apply e = .ok s') : s'.editor = s.editor := by
  obtain ⟨m, -, rfl⟩ := apply_ok h
  rfl

theorem spares_cancel (s : Session) (text : String) :
    s.Spares (s.cancel text).1 (s.cancel text).2 := by
  refine spares_settle fun s' h => ?_
  obtain ⟨s₁, hs, rfl⟩ := of_map_eq_ok h
  have := editor_of_apply hs
  exact this

theorem spares_sendText (s : Session) (request : Json.Value → Write) (w : Writing) :
    s.Spares (s.sendText request w).1 (s.sendText request w).2 := by
  rcases hv : s.editor.validate with e | v
  · rw [sendText_error hv]
    exact ⟨rfl, by simp⟩
  · rw [sendText_ok hv]
    exact ⟨rfl, by simp⟩

theorem spares_openEditor (hm : s.mode ≠ .normal) {e : Mode.Event}
    (he : e = .startView ∨ e = .startEdit ∨ e = .startAdd) :
    s.Spares (reading (s.openEditor e)).1 (reading (s.openEditor e)).2 := by
  rw [openEditor, apply_eq_error (step?_of_open hm he)]
  exact spares_ends rfl _

/-- No call changes the text while a panel is open. -/
theorem spares_start (hm : s.mode ≠ .normal) (c : Call) :
    s.Spares (s.start c).1 (s.start c).2 := by
  cases c with
  | navigate target => exact ⟨rfl, by simp [start, reading, visit]⟩
  | reload => exact ⟨rfl, by simp [start, reading, visit]⟩
  | startView => exact spares_openEditor hm (.inl rfl)
  | finishView => exact spares_settle fun s' h => editor_of_apply h
  | startEdit =>
    rw [start]
    rcases s.command "edit" Command.editTarget? with err | href
    · exact spares_ends rfl _
    · exact spares_openEditor hm (.inr (.inl rfl))
  | finishEdit =>
    rw [start, finishEdit]
    split
    · exact spares_ends rfl _
    · exact spares_ends rfl _
    · exact spares_sendText s _ _
  | cancelEdit => exact spares_cancel s _
  | startAdd =>
    refine spares_settle fun s' h => ?_
    obtain ⟨href, -, h⟩ := of_bind_eq_ok h
    obtain ⟨s₁, hs, -⟩ := of_bind_eq_ok h
    rw [apply_eq_error (step?_of_open hm (.inr (.inr rfl)))] at hs
    cases hs
  | finishAdd =>
    rw [start, finishAdd]
    split
    · exact spares_ends rfl _
    · exact spares_ends rfl _
    · exact spares_sendText s _ _
  | cancelAdd => exact spares_cancel s _
  | delete confirmed =>
    rw [start, delete]
    split
    · exact spares_ends rfl _
    · split_ifs
      · exact ⟨rfl, by simp⟩
      · exact ⟨rfl, by simp [settle]⟩
  | runAction name confirmed =>
    rw [start, runAction]
    split
    · exact spares_ends rfl _
    · split_ifs
      · exact ⟨rfl, by simp⟩
      · exact ⟨rfl, by simp [settle]⟩

theorem spares_of_start {step : Step} (hm : s.mode ≠ .normal) (h : s.start c = (s₁, step)) :
    s.Spares s₁ step := by
  have := spares_start hm c
  rwa [h] at this

/-- What is fetched after a write is a page. -/
theorem eq_page_of_followed {answer : Written} {url : String} {reading : Reading}
    (h : s.resumeWrite w answer = (s', .fetch url reading)) :
    ∃ ticket target purpose, reading = .page ticket target purpose :=
  eq_page_of_resumeWrite (congrArg Prod.snd h)

theorem mode_of_start {step : Step} (hm : s.mode ≠ .normal) (h : s.start c = (s₁, step))
    (hm' : s₁.mode ≠ .normal) : s₁.mode = s.mode :=
  Mode.eq_of_turns (proceeds_of_start h).mode hm hm'

theorem mode_of_resumeWrite {answer : Written} {n : Next} (hm : s.mode ≠ .normal)
    (h : s.resumeWrite w answer = (s', n)) (hm' : s'.mode ≠ .normal) : s'.mode = s.mode :=
  Mode.eq_of_turns (proceeds_of_resumeWrite h).mode hm hm'

theorem eq_of_start_write {request : Write} (h : s.start c = (s₁, .write request w)) : s₁ = s := by
  cases proceeds_of_start h with
  | sends => rfl

theorem editor_of_resumeWrite {answer : Written} {n : Next} (h : s.resumeWrite w answer = (s', n)) :
    s'.editor = s.editor := by
  have := editor_resumeWrite s w answer
  rwa [h] at this

/-- A call leaves an open panel as it is, or closes it. -/
theorem kept_by_run (hm : s.mode ≠ .normal) (h : (s.run c).Yields cs (s', r))
    (hm' : s'.mode ≠ .normal) : s'.mode = s.mode ∧ s'.editor = s.editor := by
  -- A fetched page closes the panel, and the text of a panel is fetched only as one is opened.
  cases ends_of_run h with
  | unasked hstart => exact ⟨mode_of_start hm hstart hm', (spares_of_start hm hstart).editor⟩
  | @fetched s₁ _ _ url reading answer hstart hr =>
    have hspares := spares_of_start hm hstart
    cases reading with
    | page ticket target purpose =>
      obtain rfl := eq_of_resumePage hr hm'
      exact ⟨mode_of_start hm hstart hm', hspares.editor⟩
    | editor opened => exact absurd rfl (hspares.awaits url opened)
  | written hstart hw =>
    obtain rfl := eq_of_start_write hstart
    exact ⟨mode_of_resumeWrite hm hw hm', editor_of_resumeWrite hw⟩
  | followed hstart hw hr =>
    obtain rfl := eq_of_start_write hstart
    obtain ⟨ticket, target, purpose, rfl⟩ := eq_page_of_followed hw
    obtain rfl := eq_of_resumePage hr hm'
    exact ⟨mode_of_resumeWrite hm hw hm', editor_of_resumeWrite hw⟩

/-- A call that leaves a panel open has not moved the session. -/
theorem location_of_run (h : (s.run c).Yields cs (s', r)) (hm' : s'.mode ≠ .normal) :
    s'.location = s.location := by
  cases ends_of_run h with
  | unasked hstart => exact (proceeds_of_start hstart).location
  | @fetched s₁ _ _ url reading answer hstart hr =>
    cases reading with
    | page ticket target purpose =>
      rw [eq_of_resumePage hr hm', (proceeds_of_start hstart).location]
    | editor opened =>
      have hkeeps := keeps_location (keeps_resumeEditor s₁ opened answer)
      rw [hr] at hkeeps
      exact hkeeps.trans (proceeds_of_start hstart).location
  | written hstart hw =>
    rw [(proceeds_of_resumeWrite hw).location, (proceeds_of_start hstart).location]
  | followed hstart hw hr =>
    obtain ⟨ticket, target, purpose, rfl⟩ := eq_page_of_followed hw
    rw [eq_of_resumePage hr hm', (proceeds_of_resumeWrite hw).location,
      (proceeds_of_start hstart).location]

/-- While a panel stays open the session stays where it is, and so does the text of the panel if it
is not touched. -/
structure Stays (s : Session) (since : List Turn) (s' : Session) : Prop where
  mode : s'.mode = s.mode
  location : s'.location = s.location
  editor : Untouched since → s'.editor = s.editor

theorem Does.stays {deed : Deed} (h : s.Does deed s') (hm : s.mode ≠ .normal)
    (hm' : s'.mode ≠ .normal) : s.Stays [⟨s, deed, s'⟩] s' := by
  cases h with
  | call hy =>
    obtain ⟨hmode, heditor⟩ := kept_by_run hm hy hm'
    exact ⟨hmode, location_of_run hy hm', fun _ => heditor⟩
  | setText text =>
    refine ⟨rfl, rfl, fun huntouched => ?_⟩
    obtain ⟨c, cs, hcall⟩ := huntouched _ (List.mem_singleton.2 rfl)
    cases hcall
  | format =>
    refine ⟨rfl, rfl, fun huntouched => ?_⟩
    obtain ⟨c, cs, hcall⟩ := huntouched _ (List.mem_singleton.2 rfl)
    cases hcall

theorem Stays.concat {u : Turn} (h : s.Stays since s₁) (hu : s₁.Stays [u] s') :
    s.Stays (since ++ [u]) s' := by
  refine ⟨hu.mode.trans h.mode, hu.location.trans h.location, fun huntouched => ?_⟩
  rw [hu.editor fun v hv => huntouched v (List.mem_append_right _ hv),
    h.editor fun v hv => huntouched v (List.mem_append_left _ hv)]

theorem Serial.stays (h : Serial b l ts s) :
    ∀ {past since : List Turn} {t : Turn}, ts = past ++ t :: since → Opening t since →
      t.after.Stays since s := by
  induction h with
  | start => intro past since t he; simp at he
  | @step ts s s' deed h hd ih =>
    intro past since t he ho
    -- The panel is opened in the last turn, or before it.
    rcases since.eq_nil_or_concat with rfl | ⟨since, u, rfl⟩
    · obtain ⟨-, ht⟩ := List.append_inj' he rfl
      cases ht
      exact ⟨rfl, rfl, fun _ => rfl⟩
    · rw [List.concat_eq_append] at he ho ⊢
      rw [← List.cons_append, ← List.append_assoc] at he
      obtain ⟨rfl, hu⟩ := List.append_inj' he rfl
      cases hu
      have hs := ih rfl ⟨ho.closed, ho.opened, fun u hu => ho.stays u (by simp [hu])⟩
      exact hs.concat (hd.stays (hs.mode ▸ ho.opened) (ho.stays ⟨s, deed, s'⟩ (by simp)))

/-! ## Panels that are opened -/

/-- How a call begins while no panel is open: it opens the panel of a document and asks for the
text, or the panel of a new resource, or none. -/
inductive BeginsClosed (s : Session) : Call → Session → Step → Prop
  | opens {c : Call} {s' : Session} {m : Mode} (hc : c = .startView ∨ c = .startEdit)
    (hs : s' = s.setMode m) :
    BeginsClosed s c s' (.next (.fetch (s.base.fetchUrl s.location.reference) (.editor m)))
  | adds {s' : Session} (hm : s'.mode = .adding) (r : Result) :
    BeginsClosed s .startAdd s' (.next (.done r))
  | other {c : Call} {s' : Session} {step : Step} (hm : s'.mode = .normal)
    (ha : ∀ url m, step ≠ .next (.fetch url (.editor m))) : BeginsClosed s c s' step

theorem beginsClosed_ends (hm : s'.mode = .normal) (c : Call) (r : Result) :
    s.BeginsClosed c s' (.next (.done r)) :=
  .other hm (by simp)

theorem beginsClosed_start (hm : s.mode = .normal) (c : Call) :
    s.BeginsClosed c (s.start c).1 (s.start c).2 := by
  cases c with
  | navigate target => exact .other hm (by simp [start, reading, visit])
  | reload => exact .other hm (by simp [start, reading, visit])
  | startView =>
    rw [start, openEditor, apply_eq_ok (m := .viewing) (by rw [hm]; rfl)]
    exact .opens (.inl rfl) rfl
  | finishView =>
    rw [start, apply_eq_error (by rw [hm]; rfl)]
    exact beginsClosed_ends hm _ _
  | startEdit =>
    rw [start]
    rcases s.command "edit" Command.editTarget? with err | href
    · exact beginsClosed_ends hm _ _
    · have hopen : s.apply .startEdit = .ok (s.setMode .editing) := apply_eq_ok (by rw [hm]; rfl)
      simp only [openEditor, hopen]
      exact .opens (.inr rfl) rfl
  | finishEdit =>
    rw [start, finishEdit, require, if_neg (by simp [hm])]
    exact beginsClosed_ends hm _ _
  | cancelEdit =>
    rw [start, cancel, apply_eq_error (by rw [hm]; rfl)]
    exact beginsClosed_ends hm _ _
  | startAdd =>
    have hopen : s.apply .startAdd = .ok (s.setMode .adding) := apply_eq_ok (by rw [hm]; rfl)
    simp only [start, startAdd, hopen]
    rcases s.command "add" Command.addTarget? with err | href
    · exact beginsClosed_ends hm _ _
    · exact .adds rfl _
  | finishAdd =>
    rw [start, finishAdd, require, if_neg (by simp [hm])]
    exact beginsClosed_ends hm _ _
  | cancelAdd =>
    rw [start, cancel, apply_eq_error (by rw [hm]; rfl)]
    exact beginsClosed_ends hm _ _
  | delete confirmed =>
    rw [start, delete]
    split
    · exact beginsClosed_ends hm _ _
    · split_ifs
      · exact .other hm (by simp)
      · exact .other hm (by simp [settle])
  | runAction name confirmed =>
    rw [start, runAction]
    split
    · exact beginsClosed_ends hm _ _
    · split_ifs
      · exact .other hm (by simp)
      · exact .other hm (by simp [settle])

theorem beginsClosed_of_start {step : Step} (hm : s.mode = .normal)
    (h : s.start c = (s₁, step)) : s.BeginsClosed c s₁ step := by
  have := beginsClosed_start hm c
  rwa [h] at this

theorem normal_of_start_write {request : Write} (hm : s.mode = .normal)
    (h : s.start c = (s₁, .write request w)) : s₁.mode = .normal := by
  cases beginsClosed_of_start hm h with
  | other hnormal => exact hnormal

theorem normal_of_resumeWrite {answer : Written} {n : Next} (hm : s.mode = .normal)
    (h : s.resumeWrite w answer = (s', n)) : s'.mode = .normal := by
  obtain rfl : (s.resumeWrite w answer).1 = s' := congrArg Prod.fst h
  obtain ⟨base, navigator, location, mode, page, editor, message⟩ := s
  obtain rfl : mode = .normal := hm
  rcases w with id | _ | _ | _ <;> rcases answer with e | created <;> rfl

/-- A panel for viewing or editing is opened by a call that asks for the document at the location,
and is open whatever the answer is. -/
theorem opened_by_run (hm : s.mode = .normal) (h : (s.run c).Yields cs (s', r))
    (hm' : s'.mode = .viewing ∨ s'.mode = .editing) :
    (c = .startView ∨ c = .startEdit) ∧ ∃ answer,
      cs = [.fetched (s.base.fetchUrl s.location.reference) answer] ∧
        s'.editor = filled s.editor answer := by
  have hopen : s'.mode ≠ .normal := by rcases hm' with h | h <;> simp [h]
  cases ends_of_run h with
  | unasked hstart =>
    cases beginsClosed_of_start hm hstart with
    | adds hadding => simp [hadding] at hm'
    | other hnormal => exact absurd hnormal hopen
  | @fetched s₁ _ _ url reading answer hstart hr =>
    cases beginsClosed_of_start hm hstart with
    | @opens _ _ m hc hs =>
      have heditor := editor_resumeEditor s₁ m answer
      rw [hr, if_pos (by rw [hs]; rfl), hs] at heditor
      exact ⟨hc, answer, rfl, heditor⟩
    | other hnormal ha =>
      cases reading with
      | page ticket target purpose =>
        rw [eq_of_resumePage hr hopen] at hopen
        exact absurd hnormal hopen
      | editor opened => exact absurd rfl (ha url opened)
  | written hstart hw =>
    exact absurd (normal_of_resumeWrite (normal_of_start_write hm hstart) hw) hopen
  | followed hstart hw hr =>
    obtain ⟨ticket, target, purpose, rfl⟩ := eq_page_of_followed hw
    rw [eq_of_resumePage hr hopen] at hopen
    exact absurd (normal_of_resumeWrite (normal_of_start_write hm hstart) hw) hopen

theorem Does.opens {deed : Deed} (h : s.Does deed s') (hm : s.mode = .normal)
    (hm' : s'.mode = .viewing ∨ s'.mode = .editing) :
    ∃ c answer, (c = .startView ∨ c = .startEdit) ∧
      deed = .call c [.fetched (s.base.fetchUrl s.location.reference) answer] ∧
      s'.editor = filled s.editor answer ∧ s'.location = s.location := by
  cases h with
  | call hy =>
    obtain ⟨hc, answer, rfl, heditor⟩ := opened_by_run hm hy hm'
    have hopen : s'.mode ≠ .normal := by rcases hm' with h | h <;> simp [h]
    exact ⟨_, answer, hc, rfl, heditor, location_of_run hy hopen⟩
  | setText text => simp [Session.setText, hm] at hm'
  | format => simp [Session.format, hm] at hm'

/-! ## What an open panel shows -/

theorem Coherent.shownReference (h : s.Coherent) :
    s.shownReference = s.location.reference.text := by
  rw [Session.shownReference]
  rcases hp : s.page with _ | p
  · rfl
  · obtain ⟨d, q, hq, rfl⟩ := h.made hp
    exact (Page.build_ok hq).2.1

/-- The session before a turn is reached by the turns before it. -/
theorem Serial.turn (h : Serial b l ts s) :
    ∀ {past since : List Turn} {t : Turn}, ts = past ++ t :: since →
      Serial b l past t.before ∧ t.before.Does t.deed t.after := by
  induction h with
  | start => intro past since t he; simp at he
  | @step ts s s' deed h hd ih =>
    intro past since t he
    rcases since.eq_nil_or_concat with rfl | ⟨since, u, rfl⟩
    · obtain ⟨rfl, ht⟩ := List.append_inj' he rfl
      cases ht
      exact ⟨h, hd⟩
    · rw [List.concat_eq_append, ← List.cons_append, ← List.append_assoc] at he
      exact ih (List.append_inj' he rfl).1

theorem Serial.base (h : Serial b l ts s) : s.base = b := by
  obtain ⟨ms, hrun⟩ := h.run
  exact hrun.base

/-- The text is that of a document that has been fetched from a URL in these turns. -/
def Returned (ts : List Turn) (url text : String) : Prop :=
  ∃ answer d, .fetched url answer ∈ ts.flatMap Turn.contacts ∧ Service.document answer = .ok d ∧
    text = d.pretty

theorem filled_ok {e : Editor} {answer : Fetched} {d : Document}
    (h : Service.document answer = .ok d) : filled e answer = ⟨d.pretty⟩ := by
  rw [filled, h]

theorem filled_error {e : Editor} {answer : Fetched} {err : Error}
    (h : Service.document answer = .error err) : filled e answer = e := by
  rw [filled, h]

/-- What an answer makes of the text of a panel has been returned if the answer is a document, or if
the text was returned before. -/
theorem returned_filled_iff {url : String} {answer : Fetched} (e : Editor) {u : Turn} (hu : u ∈ ts)
    (hdeed : u.deed = .call c [.fetched url answer]) :
    Returned ts url (filled e answer).text ↔
      (∃ d, Service.document answer = .ok d) ∨ Returned ts url e.text := by
  rcases hd : Service.document answer with err | d
  · simp [filled_error hd]
  · have hcontact : .fetched url answer ∈ u.contacts := by simp [Turn.contacts, hdeed]
    have : Returned ts url d.pretty :=
      ⟨answer, d, List.mem_flatMap.2 ⟨u, hu, hcontact⟩, hd, rfl⟩
    simp [filled_ok hd, this]

/-- The panel for viewing or editing has been opened by a call that asked for the document of the
page that is shown.  If nobody touches its text, that is the text of a document returned for this
page exactly if the call was answered with one, or if such a text was in the editor before. -/
theorem Serial.panel_text (h : Serial b l ts s) (hm : s.mode = .viewing ∨ s.mode = .editing) :
    (∃ past t since, ts = past ++ t :: since ∧ Opening t since) ∧
      ∀ past t since, ts = past ++ t :: since → Opening t since →
        ∃ c answer, (c = .startView ∨ c = .startEdit) ∧
          t.deed = .call c [.fetched (b.fetchUrl ⟨s.shownReference⟩) answer] ∧
          (Untouched since → s.editor = filled t.before.editor answer ∧
            (Returned ts (b.fetchUrl ⟨s.shownReference⟩) s.editor.text ↔
              (∃ d, Service.document answer = .ok d) ∨
                Returned ts (b.fetchUrl ⟨s.shownReference⟩) t.before.editor.text)) := by
  refine ⟨h.exists_opening (by rcases hm with hm | hm <;> simp [hm]), fun past t since he ho => ?_⟩
  obtain ⟨hpast, hdoes⟩ := h.turn he
  have hstays := h.stays he ho
  obtain ⟨ms, hrun⟩ := h.run
  have hshown : s.shownReference = s.location.reference.text := hrun.coherent.shownReference
  obtain ⟨c, answer, hc, hdeed, heditor, hlocation⟩ := hdoes.opens ho.closed (hstays.mode ▸ hm)
  rw [hpast.base, ← hlocation, ← hstays.location] at hdeed
  rw [hshown]
  refine ⟨c, answer, hc, hdeed, fun huntouched => ?_⟩
  have htext := (hstays.editor huntouched).trans heditor
  exact ⟨htext, htext ▸ returned_filled_iff t.before.editor (he ▸ by simp) hdeed⟩

/-- A disk is viewed once its page is shown. -/
theorem panel_text_viewing :
    ∃ ts s, Serial ⟨"http://host/api/"⟩ ⟨"page", ⟨"disk/1"⟩, .fragment⟩ ts s ∧ s.mode = .viewing ∧
      (∃ past t since, ts = past ++ t :: since ∧ Opening t since) ∧
      Returned ts "http://host/api/disk/1" s.editor.text := by
  have h := (Serial.start (b := ⟨"http://host/api/"⟩) (l := ⟨"page", ⟨"disk/1"⟩, .fragment⟩)).step
    (.call (c := .reload) (.fetch (disk "disk/1") (.done _)))
    |>.step (.call (c := .startView) (.fetch (disk "disk/1") (.done _)))
  have hpanel := h.panel_text (.inl rfl)
  obtain ⟨c, answer, -, hdeed, htext⟩ := hpanel.2 [_] _ [] rfl
    ⟨rfl, by exact Mode.noConfusion, by simp⟩
  cases hdeed
  exact ⟨_, _, h, rfl, hpanel.1, (htext (by simp [Untouched])).2.2 (.inl ⟨_, rfl⟩)⟩

/-- The template is the text of no document: it breaks no line after the bracket. -/
theorem addTemplate_ne_pretty (d : Document) : Editor.addTemplate.text ≠ d.pretty := by
  obtain ⟨fields⟩ := d
  intro h
  have h := congrArg String.toList h
  rw [Document.pretty, Json.Value.pretty, String.toList_ofList, Document.toValue] at h
  rcases fields with _ | ⟨⟨k, v⟩, ms⟩
  · simp [Json.write, Editor.addTemplate] at h
  · simp [Json.write, Editor.addTemplate, Json.Layout.inner, Json.Layout.lineBreak] at h

/-- A panel that is open, and whose text nobody has touched, shows a document that was returned for
the page. -/
def PanelShowsDocument (ts : List Turn) (s : Session) : Prop :=
  (s.mode = .viewing ∨ s.mode = .editing) → ∀ past t since, ts = past ++ t :: since →
    Opening t since → Untouched since →
    Returned ts (s.base.fetchUrl ⟨s.shownReference⟩) s.editor.text

/-- A disk that can be edited, and to which can be added. -/
def shelf : Fetched :=
  .ok (.object [("resourceURI", .string "Disk"), ("operations", .array [
    .object [("rel", .string "edit"), ("href", .string "disk/1")],
    .object [("rel", .string "add"), ("href", .string "disks")]])])

/-- A new resource is begun and given up.  Then the disk on the page is to be edited, but cannot be
fetched: its panel is open on the template of the new resource. -/
theorem template_in_panel :
    ∃ ts s, Serial ⟨"http://host/api/"⟩ ⟨"page", ⟨"disk/1"⟩, .fragment⟩ ts s ∧
      ¬PanelShowsDocument ts s ∧ s.mode = .editing ∧ s.editor = .addTemplate := by
  have h := (Serial.start (b := ⟨"http://host/api/"⟩) (l := ⟨"page", ⟨"disk/1"⟩, .fragment⟩)).step
    (.call (c := .reload) (.fetch shelf (.done _)))
    |>.step (.call (c := .startAdd) (.done _))
    |>.step (.call (c := .cancelAdd) (.done _))
    |>.step (.call (c := .startEdit) (.fetch (.error (.transport ⟨404, "Not Found"⟩)) (.done _)))
  refine ⟨_, _, h, fun hshows => ?_, rfl, rfl⟩
  obtain ⟨answer, d, -, -, htext⟩ := hshows (.inr rfl) [_, _, _] _ [] rfl
    ⟨rfl, by exact Mode.noConfusion, by simp⟩ (by simp [Untouched])
  exact addTemplate_ne_pretty d htext

end Cimi.Session
