import Cimi.Proofs.Page.Operations
import Cimi.Proofs.Session.Run

/-!
# What is shown

In every state of every run, the page that is shown is the one made of some document for the
location of the session, seen in the mode of the session, and it offers what the open panel needs
(`Coherent`).
-/

namespace Cimi.Session

variable {b : Endpoint} {l : Location} {ms : List Moment} {o : Overlap} {s s' : Session}

/-- The page that is shown is that of a document. -/
def Shows (s : Session) (d : Document) : Prop :=
  ∃ p, Page.build s.location s.base d .normal = .ok p ∧ s.page = some { p with mode := s.mode }

/-- If a page is shown it is that of a document, and it offers what the panel needs. -/
structure Coherent (s : Session) : Prop where
  shows : s.page = none ∨ ∃ d, s.Shows d
  offers : s.Offers s.mode

/-! ## Commands -/

theorem command_setMode {α : Type} (s : Session) (m : Mode) (operation : String)
    (select : Command → Option α) :
    (s.setMode m).command operation select = s.command operation select := by
  unfold command setMode
  rcases s.page with _ | p <;> rfl

theorem offers_setMode (m m' : Mode) : (s.setMode m').Offers m ↔ s.Offers m := by
  cases m <;> simp only [Offers, command_setMode]

/-! ## Steps -/

theorem coherent_new (b : Endpoint) (l : Location) : Coherent (.new b l) :=
  ⟨.inl rfl, trivial⟩

theorem Shows.keeps {d : Document} (h : s.Shows d) (hk : s.Keeps s') : s'.Shows d := by
  obtain ⟨p, hd, hp⟩ := h
  refine ⟨p, ?_, keeps_page_some hk hp⟩
  rwa [keeps_location hk, keeps_base hk]

theorem Coherent.keeps (h : s.Coherent) (hk : s.Keeps s') : s'.Coherent := by
  constructor
  · rcases h.shows with hp | ⟨d, hd⟩
    · exact .inl (keeps_page_none hk hp)
    · exact .inr ⟨d, hd.keeps hk⟩
  · cases hk with
    | still e text => exact h.offers
    | moves hm ht e text => exact (offers_setMode _ _).2 hm

theorem Coherent.step {m : Moment} (h : m.before.session.Coherent) : m.after.session.Coherent := by
  rcases m.effect with ⟨hk, -, -⟩ | ⟨hk, target, purpose, hs, -, -⟩ | ⟨x, p, -, -, -, hp, hs⟩
  · exact h.keeps hk
  · have := h.keeps hk
    rw [hs]
    exact ⟨this.shows, this.offers⟩
  · obtain ⟨d, -, hd⟩ := Service.page_ok hp
    rw [hs]
    refine ⟨.inr ⟨d, p, hd, ?_⟩, trivial⟩
    rw [← Service.mode_page hp]

theorem Run.coherent (h : Run b l ms o) : o.session.Coherent := by
  induction h with
  | start => exact coherent_new b l
  | step h a ih => exact ih.step (m := ⟨_, a⟩)

/-! ## What the open panel needs -/

/-- A command is that of a button of the page that is shown. -/
theorem button_of_command {α : Type} {operation : String} {select : Command → Option α} {x : α}
    (h : s.command operation select = .ok x) :
    ∃ p, s.page = some p ∧ ∃ button ∈ p.buttons, select button.command = some x := by
  unfold command at h
  rcases hp : s.page with _ | p
  · rw [hp] at h
    cases h
  · rcases hx : p.command? select with _ | y <;> rw [hp, Option.bind_some, hx] at h <;> cases h
    exact ⟨p, rfl, List.exists_of_findSome?_eq_some hx⟩

theorem eq_saveEdit {c : Command} {href : String} (h : c.editTarget? = some href) :
    c = .saveEdit href := by
  cases c <;> cases h
  rfl

theorem eq_saveAdd {c : Command} {href : String} (h : c.addTarget? = some href) :
    c = .saveAdd href := by
  cases c <;> cases h
  rfl

/-- A text is sent, or it is no JSON. -/
theorem sendText_ne_missing (s : Session) (request : Json.Value → Write) (writing : Writing)
    (operation : String) :
    (s.sendText request writing).2 ≠ .next (.done (.error (.missingOperation operation))) := by
  unfold sendText Editor.validate
  rcases Json.parse s.editor.text with e | v <;> simp [Except.mapError]

theorem finishEdit_ne_missing (hm : s.mode = .editing) (h : s.Offers .editing)
    (operation : String) :
    (s.start .finishEdit).2 ≠ .next (.done (.error (.missingOperation operation))) := by
  obtain ⟨href, hc⟩ := h
  rw [start_finishEdit hm hc]
  exact sendText_ne_missing s _ _ operation

theorem finishAdd_ne_missing (hm : s.mode = .adding) (h : s.Offers .adding)
    (operation : String) :
    (s.start .finishAdd).2 ≠ .next (.done (.error (.missingOperation operation))) := by
  obtain ⟨href, hc⟩ := h
  rw [start_finishAdd hm hc]
  exact sendText_ne_missing s _ _ operation

/-! ## The state of a session -/

/-- How the page that is shown, the mode and the location of a session stand to each other. -/
structure Consistent (b : Endpoint) (s : Session) : Prop where
  mode : ∀ p, s.page = some p → p.mode = s.mode
  made : ∀ p, s.page = some p →
    ∃ d q, Page.build s.location b d .normal = .ok q ∧ p = { q with mode := s.mode }
  located : ∀ p, s.page = some p → p.reference = s.location.reference.text ∧
    p.viewUrl = s.location.viewUrl ∧ p.trail = s.location.trail ∧
    p.resourceUrl = b.fetchUrl s.location.reference
  editing : s.mode = .editing →
    ∃ p href, s.page = some p ∧ ∃ button ∈ p.buttons, button.command = .saveEdit href
  adding : s.mode = .adding →
    ∃ p href, s.page = some p ∧ ∃ button ∈ p.buttons, button.command = .saveAdd href
  finishEdit : s.mode = .editing → ∀ operation,
    (s.start .finishEdit).2 ≠ .next (.done (.error (.missingOperation operation)))
  finishAdd : s.mode = .adding → ∀ operation,
    (s.start .finishAdd).2 ≠ .next (.done (.error (.missingOperation operation)))

theorem Coherent.made (h : s.Coherent) {p : Page} (hp : s.page = some p) :
    ∃ d q, Page.build s.location s.base d .normal = .ok q ∧ p = { q with mode := s.mode } := by
  rcases h.shows with hn | ⟨d, q, hd, hq⟩
  · rw [hn] at hp
    cases hp
  · rw [hq, Option.some.injEq] at hp
    exact ⟨d, q, hd, hp.symm⟩

theorem Run.consistent (h : Run b l ms o) : Consistent b o.session where
  mode p hp := by
    obtain ⟨d, q, -, rfl⟩ := h.coherent.made hp
    rfl
  made p hp := by
    rw [← h.base]
    exact h.coherent.made hp
  located p hp := by
    obtain ⟨d, q, hq, rfl⟩ := h.coherent.made hp
    obtain ⟨-, href, hview, hurl, htrail, -⟩ := Page.build_ok hq
    rw [← h.base]
    exact ⟨href, hview, htrail, hurl⟩
  editing hm := by
    have hoffers := h.coherent.offers
    rw [hm] at hoffers
    obtain ⟨href, hc⟩ := hoffers
    obtain ⟨p, hp, button, hb, hsave⟩ := button_of_command hc
    exact ⟨p, href, hp, button, hb, eq_saveEdit hsave⟩
  adding hm := by
    have hoffers := h.coherent.offers
    rw [hm] at hoffers
    obtain ⟨href, hc⟩ := hoffers
    obtain ⟨p, hp, button, hb, hsave⟩ := button_of_command hc
    exact ⟨p, href, hp, button, hb, eq_saveAdd hsave⟩
  finishEdit hm := finishEdit_ne_missing hm (hm ▸ h.coherent.offers)
  finishAdd hm := finishAdd_ne_missing hm (hm ▸ h.coherent.offers)

/-- A page that offers to be edited is edited, while an answer to an older navigation comes. -/
theorem consistent_editing :
    ∃ ms o, Run ⟨"http://host/api/"⟩ ⟨"page", .root, .fragment⟩ ms o ∧
      Consistent ⟨"http://host/api/"⟩ o.session ∧ o.session.mode = .editing ∧
      o.session.page.isSome := by
  have h := (Run.start (b := ⟨"http://host/api/"⟩) (l := ⟨"page", .root, .fragment⟩)).step
    (.call "old" (.navigate ⟨"page", ⟨"disk/1"⟩, .fragment⟩))
    |>.step (.call "new" .reload)
    |>.step (.fetched "new" (.ok (.object [("resourceURI", .string "Disk"), ("operations",
      .array [.object [("rel", .string "edit"), ("href", .string "disk/2")]])])))
    |>.step (.call "edit" .startEdit)
    |>.step (.fetched "old" (.error (.missingOperation "")))
  exact ⟨_, _, h, h.consistent, rfl, rfl⟩

end Cimi.Session
