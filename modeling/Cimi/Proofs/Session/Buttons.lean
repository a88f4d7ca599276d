import Cimi.Proofs.Session.Refused
import Cimi.Proofs.Web.Forms

/-!
# Buttons and calls

A viewer opens a panel, closes it or saves what is in it by a button, which makes a call of the
session.  A button is seen if its mode is that of the page and the page has an operation for it; the
call is taken if the session is in that mode and finds such an operation.  In every state of every
run these are the same: a call fails because the mode or the page does not allow it exactly if no
button for it is seen (`Run.refused_iff_hidden`).
-/

namespace Cimi

/-- The call that opens a panel, closes the panel for viewing or saves, if a command is for that. -/
def Command.call? : Command → Option Session.Call
  | .startView => some .startView
  | .finishView => some .finishView
  | .startEdit => some .startEdit
  | .saveEdit _ => some .finishEdit
  | .startAdd => some .startAdd
  | .saveAdd _ => some .finishAdd
  | .cancelEdit | .cancelAdd | .delete _ _ | .action _ _ => none

namespace Session

variable {b : Endpoint} {l : Location} {ms : List Moment} {o : Overlap} {s s' : Session} {c : Call}
  {d : Document} {os : List Operation} {r : Result} {p : Page}

/-- The mode in which a call of a button is made. -/
def Call.mode : Call → Mode
  | .finishView => .viewing
  | .finishEdit => .editing
  | .finishAdd => .adding
  | _ => .normal

/-- Whether a page with the given operations has a button for a call. -/
def Call.IsOffered (os : List Operation) : Call → Prop
  | .startView | .finishView => True
  | .startEdit | .finishEdit => ∃ o ∈ os, o.rel = "edit"
  | .startAdd | .finishAdd => ∃ o ∈ os, o.rel = "add"
  | _ => False

/-! ## Buttons that are seen -/

theorem mode_of_call? {command : Command} (h : command.call? = some c) : command.mode = c.mode := by
  cases command <;> cases h <;> rfl

theorem call?_ofOperation (l : Location) (b : Endpoint) (o : Operation) :
    (∃ button ∈ Button.ofOperation l b o, button.command.call? = some c) ↔
      (o.rel = "edit" ∧ (c = .startEdit ∨ c = .finishEdit)) ∨
        (o.rel = "add" ∧ (c = .startAdd ∨ c = .finishAdd)) := by
  unfold Button.ofOperation
  rcases o.kind_cases with ⟨hr, hk⟩ | ⟨hr, hk⟩ | ⟨hr, hk⟩ | ⟨hr, hk⟩
  · simp [hk, hr, Command.call?, eq_comm]
  · simp [hk, hr, Command.call?, eq_comm]
  · simp [hk, hr, Command.call?]
  · simp only [List.mem_cons, List.not_mem_nil, or_false, not_or] at hr
    simp [hk, hr.1, hr.2.1, Command.call?]

/-- A page has a button for a call if it has an operation for it. -/
theorem call?_all (l : Location) (b : Endpoint) (os : List Operation) :
    (∃ button ∈ Button.all l b os, button.command.call? = some c) ↔ c.IsOffered os := by
  have hops : (∃ button ∈ os.flatMap (Button.ofOperation l b), button.command.call? = some c) ↔
      ∃ o ∈ os, (o.rel = "edit" ∧ (c = .startEdit ∨ c = .finishEdit)) ∨
        (o.rel = "add" ∧ (c = .startAdd ∨ c = .finishAdd)) := by
    simp only [← call?_ofOperation l b, List.mem_flatMap]
    constructor
    · rintro ⟨button, ⟨o, ho, hbutton⟩, hcall⟩
      exact ⟨o, ho, button, hbutton, hcall⟩
    · rintro ⟨o, ho, button, hbutton, hcall⟩
      exact ⟨button, ⟨o, ho, hbutton⟩, hcall⟩
  simp only [Button.all, List.mem_cons, or_and_right, exists_or, exists_eq_left, hops]
  cases c <;> simp [Call.IsOffered, Command.call?]

/-- A button for a call is seen if the page is in the mode of the call and offers it. -/
theorem Shows.hidden_iff (h : s.Shows d) (hp : s.page = some p) :
    (∀ button ∈ p.visibleButtons, button.command.call? ≠ some c) ↔
      ¬(s.mode = c.mode ∧ c.IsOffered d.operations) := by
  obtain ⟨q, hbuild, hq⟩ := h
  obtain rfl : { q with mode := s.mode } = p := Option.some.inj (hq.symm.trans hp)
  have hbuttons : q.buttons = _ := Page.buttons_of_build hbuild
  rw [← call?_all s.location s.base]
  simp only [Page.visibleButtons, hbuttons, List.mem_filter, decide_eq_true_eq, ne_eq, not_and,
    not_exists]
  constructor
  · intro hhidden hmode button hbutton hcall
    refine hhidden button ⟨hbutton, ?_⟩ hcall
    rw [Button.mode_eq hbutton, mode_of_call? hcall, hmode]
  · rintro hhidden button ⟨hbutton, hmode⟩ hcall
    rw [Button.mode_eq hbutton, mode_of_call? hcall] at hmode
    exact hhidden hmode.symm button hbutton hcall

/-! ## Calls that are refused -/

/-- A call fails as it begins, because the mode or the page does not allow it. -/
def Refuses (s : Session) (c : Call) : Prop :=
  ∃ e : Error, (s.start c).2 = .next (.done (.error e)) ∧ e.isRefusal = true

/-- A call that is played to its end fails with a refusal only as it begins. -/
theorem refused_iff_refuses {asked : List Server.Request} (hp : (s.run c).Plays asked (s', r)) :
    (∃ e : Error, r = .error e ∧ e.isRefusal = true) ↔ s.Refuses c := by
  constructor
  · rintro ⟨e, rfl, he⟩
    by_cases hends : ∃ s₁ r₁, s.start c = (s₁, .next (.done r₁))
    · obtain ⟨s₁, r₁, hstart⟩ := hends
      rw [run_done hstart] at hp
      obtain ⟨-, hr⟩ := hp.of_done
      cases hr
      exact ⟨e, by rw [hstart], he⟩
    · push Not at hends
      rw [isRefusal_run hp hends] at he
      cases he
  · rintro ⟨e, hstart, he⟩
    have hends : s.start c = ((s.start c).1, .next (.done (.error e))) := Prod.ext rfl hstart
    rw [run_done hends] at hp
    obtain ⟨-, hr⟩ := hp.of_done
    cases hr
    exact ⟨e, rfl, he⟩

theorem refuses_openEditor {e : Mode.Event} (h : s.start c = reading (s.openEditor e)) :
    s.Refuses c ↔ s.mode.step? e = none := by
  rw [Refuses, h, reading, openEditor, apply, Mode.step]
  rcases s.mode.step? e with _ | m <;> simp [fail, Error.isRefusal]

theorem refuses_settle {x : Except Error Session} (h : s.start c = s.settle x) :
    s.Refuses c ↔ ∃ e, x = .error e ∧ e.isRefusal = true := by
  rw [Refuses, h]
  rcases x with e | s' <;> simp [settle]

theorem Shows.command_cases {α : Type} {select : Command → Option α} {is : Operation → Bool}
    {f : Operation → α} (h : s.Shows d) (operation : String) (hf : ∀ p : Page,
      p.buttons = Button.all s.location s.base d.operations →
        p.command? select = (d.operations.find? is).map f) :
    (∃ x, s.command operation select = .ok x ∧ ∃ o ∈ d.operations, is o = true) ∨
      (s.command operation select = .error (.missingOperation operation) ∧
        ¬∃ o ∈ d.operations, is o = true) := by
  rw [command, h.bind_command? hf]
  rcases hfind : d.operations.find? is with _ | o
  · exact .inr ⟨rfl, by simpa using hfind⟩
  · exact .inl ⟨f o, rfl, o, List.mem_of_find?_eq_some hfind, List.find?_some hfind⟩

theorem refuses_sendText {request : Json.Value → Write} {w : Writing}
    (h : s.start c = s.sendText request w) : ¬s.Refuses c := by
  rintro ⟨e, he, href⟩
  rw [h] at he
  rcases hv : s.editor.validate with err | v
  · rw [sendText_error hv] at he
    cases he
    obtain ⟨fault, -, rfl⟩ := of_mapError_eq_error hv
    cases href
  · rw [sendText_ok hv] at he
    cases he

/-- A call that saves is refused without its panel, and without an operation for it. -/
theorem refuses_save {m : Mode} {e : Mode.Event} {operation : String}
    {select : Command → Option String} {request : String → Json.Value → Write} {w : Writing}
    {IsOffered : Prop}
    (hstart : s.start c = match s.require m e, s.command operation select with
      | .error err, _ | .ok _, .error err => s.settle (.error err)
      | .ok _, .ok href => s.sendText (request href) w)
    (hcommand : (∃ href, s.command operation select = .ok href ∧ IsOffered) ∨
      (s.command operation select = .error (.missingOperation operation) ∧ ¬IsOffered)) :
    s.Refuses c ↔ ¬(s.mode = m ∧ IsOffered) := by
  rw [require] at hstart
  split_ifs at hstart with hm
  · rcases hcommand with ⟨href, hok, ho⟩ | ⟨herror, ho⟩
    · rw [hok] at hstart
      simp [refuses_sendText hstart, hm, ho]
    · rw [herror] at hstart
      simp [refuses_settle hstart, ho, Error.isRefusal]
  · simp [refuses_settle hstart, hm, Error.isRefusal]

theorem Shows.refuses_iff (h : s.Shows d) {command : Command} (hc : command.call? = some c) :
    s.Refuses c ↔ ¬(s.mode = c.mode ∧ c.IsOffered d.operations) := by
  have hedit := h.command_cases "edit" fun p hp => Page.command?_edit hp
  have hadd := h.command_cases "add" fun p hp => Page.command?_add hp
  simp only [decide_eq_true_eq] at hedit hadd
  cases command <;> cases hc
  case startView =>
    rw [refuses_openEditor rfl]
    cases s.mode <;> simp [Mode.step?, Call.mode, Call.IsOffered]
  case finishView =>
    rw [refuses_settle rfl, apply, Mode.step]
    cases s.mode <;> simp [Mode.step?, Call.mode, Call.IsOffered, Error.isRefusal]
  case startEdit =>
    rcases hedit with ⟨href, hcommand, ho⟩ | ⟨hcommand, ho⟩
    · rw [refuses_openEditor (by rw [start, hcommand])]
      cases s.mode <;> simp [Mode.step?, Call.mode, Call.IsOffered, ho]
    · rw [refuses_settle (by rw [start, hcommand])]
      simp [Call.IsOffered, ho, Error.isRefusal]
  case saveEdit => exact refuses_save rfl hedit
  case startAdd =>
    rw [refuses_settle rfl, startAdd]
    rcases hadd with ⟨href, hcommand, ho⟩ | ⟨hcommand, ho⟩
    · simp only [hcommand, apply, Mode.step]
      cases s.mode <;>
        simp [Mode.step?, Call.mode, Call.IsOffered, ho, Error.isRefusal, bind, Except.bind, pure,
          Except.pure]
    · simp [hcommand, Call.IsOffered, ho, Error.isRefusal, bind, Except.bind]
  case saveAdd => exact refuses_save rfl hadd

/-- In every state of every run, a call of a button that is played to its end is refused exactly if
no button for it is seen, whatever other calls wait. -/
theorem Run.refused_iff_hidden (h : Run b l ms o) (hp : o.session.page = some p)
    {k : Command} (hc : k.call? = some c) {asked : List Server.Request}
    (hplays : (o.session.run c).Plays asked (s', r)) :
    (∃ e : Error, r = .error e ∧ e.isRefusal = true) ↔
      ∀ button ∈ p.visibleButtons, button.command.call? ≠ some c := by
  rcases h.coherent.shows with hnone | ⟨d, hd⟩
  · rw [hnone] at hp
    cases hp
  · rw [refused_iff_refuses hplays, hd.refuses_iff hc, hd.hidden_iff hp]

/-- A viewer looks at a disk. -/
def looking : Overlap :=
  [.call "load" .reload, .fetched "load" (disk "disk/1")].foldl (fun o a => (o.act a).1)
    (.ofSession (.new ⟨"http://host/api/"⟩ ⟨"page", ⟨"disk/1"⟩, .fragment⟩))

/-- The button that edits a disk is seen, even if the server then fails; the one that saves is
not. -/
theorem refused_iff_hidden_disk :
    ∃ ms p edited saved, Run ⟨"http://host/api/"⟩ ⟨"page", ⟨"disk/1"⟩, .fragment⟩ ms looking ∧
      looking.session.page = some p ∧
      (looking.session.run .startEdit).Plays [.ofFetch "http://host/api/disk/1"]
        (edited, .error (.transport ⟨500, "Internal Server Error"⟩)) ∧
      (∃ button ∈ p.visibleButtons, button.command.call? = some .startEdit) ∧
      (looking.session.run .finishEdit).Plays [] (saved, .error (.transition ⟨.normal, .saved⟩)) ∧
      ∀ button ∈ p.visibleButtons, button.command.call? ≠ some .finishEdit := by
  have h : Run _ _ _ looking := Run.start.step _ |>.step _
  obtain ⟨p, hp⟩ : ∃ p, looking.session.page = some p := ⟨_, rfl⟩
  have hfails : OfClient (.error (.transport ⟨500, "Internal Server Error"⟩) : Fetched) := by
    rintro e he
    cases he
    rfl
  have hurl : looking.session.base.fetchUrl looking.session.location.reference =
      "http://host/api/disk/1" := by
    decide
  have hedit : ∃ edited, (looking.session.run .startEdit).Plays [.ofFetch "http://host/api/disk/1"]
      (edited, .error (.transport ⟨500, "Internal Server Error"⟩)) := by
    rw [run_fetch (start_startEdit (s := looking.session) rfl rfl), hurl]
    exact ⟨_, .fetch hfails (.done _)⟩
  obtain ⟨edited, hedit⟩ := hedit
  have hsave := plays_of_start_done (s := looking.session) (c := .finishEdit) rfl
  refine ⟨_, p, _, _, h, hp, hedit, ?_, hsave, ?_⟩
  · have hiff := h.refused_iff_hidden hp (k := .startEdit) rfl hedit
    by_contra hnone
    push Not at hnone
    obtain ⟨e, he, hrefusal⟩ := hiff.2 hnone
    cases he
    cases hrefusal
  · exact (h.refused_iff_hidden hp (k := .saveEdit "") rfl hsave).1 ⟨_, rfl, rfl⟩

end Session

end Cimi
