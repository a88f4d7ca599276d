import Cimi.Proofs.Session.Run

/-!
# Panels in a run

A panel is open while the mode is not the normal one, and no panel takes the place of another one
(`Moment.turns`).  So a panel that is open in a state of a run has been open since an earlier state
or has been opened since (`Run.mode_since`).

A call that waits for an answer has come to wait in an earlier moment (`Answered`).  The text that
comes for a panel goes into the editor if a panel of its mode is open then.  That is the panel which
waits for the text, or one that has been opened in the same mode since (`Run.text_arrives`), and in
the second case the text is that of another panel (`late_text_replaces`).
-/

namespace Cimi.Session

variable {b : Endpoint} {l : Location} {ms : List Moment} {o : Overlap} {s : Session}

/-! ## Panels that stay open -/

theorem Moment.turns (m : Moment) : m.before.session.mode.Turns m.after.session.mode := by
  rcases m.effect with ⟨h, -, -⟩ | ⟨h, target, purpose, hs, -, -⟩ | ⟨x, p, -, -, -, -, hs⟩
  · exact keeps_mode h
  · have := keeps_mode h
    rw [hs]
    exact this
  · rw [hs]
    exact .inr (.inr rfl)

/-- After a moment a panel of a mode is open if it was open before and has not been closed, or if it
has been opened. -/
theorem Moment.mode_after_iff (m : Moment) {p : Mode} (hp : p ≠ .normal) :
    m.after.session.mode = p ↔
      (m.before.session.mode = p ∧ m.after.session.mode ≠ .normal) ∨
        (m.before.session.mode = .normal ∧ m.after.session.mode = p) := by
  -- Either the mode stays, or it is the normal one before or after the moment.
  rcases m.turns with ht | ht | ht
  · rw [ht]
    constructor
    · rintro rfl
      exact .inl ⟨rfl, hp⟩
    · rintro (⟨hm, -⟩ | ⟨-, hm⟩)
      · exact hm
      · exact hm
  · rw [ht]
    simp [hp.symm]
  · rw [ht]
    simp [hp.symm]

/-- In none of these moments the panel is closed. -/
def StaysOpen (ms : List Moment) : Prop := ∀ m ∈ ms, m.after.session.mode ≠ .normal

/-- In these moments a panel of a mode is opened, and it stays open. -/
def Opens (p : Mode) (ms : List Moment) : Prop :=
  ∃ past m since, ms = past ++ m :: since ∧ m.before.session.mode = .normal ∧
    m.after.session.mode = p ∧ StaysOpen since

theorem staysOpen_concat {m : Moment} :
    StaysOpen (ms ++ [m]) ↔ StaysOpen ms ∧ m.after.session.mode ≠ .normal := by
  simp [StaysOpen, or_imp, forall_and]

theorem opens_concat {p : Mode} {m : Moment} :
    Opens p (ms ++ [m]) ↔ (Opens p ms ∧ m.after.session.mode ≠ .normal) ∨
      (m.before.session.mode = .normal ∧ m.after.session.mode = p) := by
  constructor
  · rintro ⟨past, k, since, he, hn, hp, hs⟩
    -- The panel is opened in the last moment, or before it.
    rcases since.eq_nil_or_concat with rfl | ⟨since, x, rfl⟩
    · obtain ⟨-, hk⟩ := List.append_inj' he rfl
      cases hk
      exact .inr ⟨hn, hp⟩
    · rw [List.concat_eq_append, ← List.cons_append, ← List.append_assoc] at he
      obtain ⟨rfl, hx⟩ := List.append_inj' he rfl
      cases hx
      rw [List.concat_eq_append, staysOpen_concat] at hs
      exact .inl ⟨⟨past, k, since, rfl, hn, hp, hs.1⟩, hs.2⟩
  · rintro (⟨⟨past, k, since, rfl, hn, hp, hs⟩, hm⟩ | ⟨hn, hp⟩)
    · exact ⟨past, k, since ++ [m], by simp, hn, hp, staysOpen_concat.2 ⟨hs, hm⟩⟩
    · exact ⟨ms, m, [], rfl, hn, hp, by simp [StaysOpen]⟩

/-- What holds after a moment of a run, and is kept by every moment after it, holds at the end. -/
theorem Run.since {P : List Moment → Overlap → Prop} {k : Moment} (start : P [] k.after)
    (step : ∀ between m, P between m.before → P (between ++ [m]) m.after) (h : Run b l ms o) :
    ∀ {early between : List Moment}, ms = early ++ k :: between → P between o := by
  induction h with
  | start => intro early between he; simp at he
  | step h a ih =>
    intro early between he
    rcases between.eq_nil_or_concat with rfl | ⟨between, m, rfl⟩
    · obtain ⟨-, hk⟩ := List.append_inj' he rfl
      cases hk
      exact start
    · rw [List.concat_eq_append, ← List.cons_append, ← List.append_assoc] at he
      obtain ⟨hms, hm⟩ := List.append_inj' he rfl
      cases hm
      rw [List.concat_eq_append]
      exact step between ⟨_, a⟩ (ih hms)

/-- A panel of a mode is open if one was open after a moment and has stayed open since, or if one
has been opened since and has stayed open. -/
theorem Run.mode_since (h : Run b l ms o) {early between : List Moment} {k : Moment}
    (hms : ms = early ++ k :: between) {p : Mode} (hp : p ≠ .normal) :
    o.session.mode = p ↔
      (k.after.session.mode = p ∧ StaysOpen between) ∨ Opens p between := by
  refine h.since (P := fun between o => o.session.mode = p ↔
    (k.after.session.mode = p ∧ StaysOpen between) ∨ Opens p between) ?_ (fun between m ih => ?_) hms
  · simp [StaysOpen, Opens]
  · rw [m.mode_after_iff hp, ih, staysOpen_concat, opens_concat, or_and_right, and_assoc, or_assoc]

/-- A panel of a mode is open in a state of a run exactly if one has been opened and has stayed
open. -/
theorem Run.mode_iff_opens (h : Run b l ms o) {p : Mode} (hp : p ≠ .normal) :
    o.session.mode = p ↔ Opens p ms := by
  induction h with
  | start =>
    have hnone : ¬Opens p [] := by simp [Opens]
    exact iff_of_false hp.symm hnone
  | @step ms o h a ih =>
    have hafter := Moment.mode_after_iff ⟨o, a⟩ hp
    rwa [ih, ← opens_concat] at hafter

/-! ## Calls that are answered -/

/-- In the moment `m` a call is answered that has come to wait in the moment `k`, and has not gone
on in the moments between them. -/
structure Answered (ms : List Moment) (k : Moment) (between : List Moment) (m : Moment)
    (name : String) (w : Waiting) : Prop where
  order : ∃ early late, ms = early ++ k :: (between ++ m :: late)
  comes : k.action.name? = some name ∧ k.progress = some (.waits w)
  waits : ∀ x ∈ between, x.action.name? = some name → x.progress = none
  awaited : m.before.waiting? name = some w

theorem Run.comes_to_wait (h : Run b l ms o) {name : String} {w : Waiting}
    (hw : o.waiting? name = some w) :
    ∃ early k between, ms = early ++ k :: between ∧
      (k.action.name? = some name ∧ k.progress = some (.waits w)) ∧
      ∀ x ∈ between, x.action.name? = some name → x.progress = none := by
  induction h with
  | start => cases hw
  | @step ms o h a ih =>
    rcases Moment.waiting?_after (m := ⟨o, a⟩) hw with hk | ⟨hn, hw⟩
    · exact ⟨ms, ⟨o, a⟩, [], rfl, hk, by simp⟩
    · obtain ⟨early, k, between, rfl, hk, hbetween⟩ := ih hw
      refine ⟨early, k, between ++ [⟨o, a⟩], by simp, hk, fun x hx => ?_⟩
      rcases List.mem_append.1 hx with hx | hx
      · exact hbetween x hx
      · rw [List.mem_singleton.1 hx]
        exact hn

/-- Every call that is answered has come to wait before. -/
theorem Run.exists_answered (h : Run b l ms o) {past late : List Moment} {m : Moment}
    (hms : ms = past ++ m :: late) {name : String} {w : Waiting}
    (hw : m.before.waiting? name = some w) : ∃ k between, Answered ms k between m name w := by
  obtain ⟨early, k, between, rfl, hk, hbetween⟩ := (h.until hms).comes_to_wait hw
  exact ⟨k, between, ⟨early, late, by rw [hms]; simp⟩, hk, hbetween, hw⟩

theorem Answered.run {k m : Moment} {between : List Moment} {name : String} {w : Waiting}
    (ha : Answered ms k between m name w) (h : Run b l ms o) :
    ∃ early, Run b l (early ++ k :: between) m.before := by
  obtain ⟨early, late, hms⟩ := ha.order
  have hpast : ms = (early ++ k :: between) ++ m :: late := by simp [hms]
  exact ⟨early, h.until hpast⟩

/-! ## What a call waits for -/

/-- The mode of the panel whose text is sent. -/
def Writing.panel? : Writing → Option Mode
  | .update _ => some .editing
  | .create => some .adding
  | _ => none

/-- What a call does as it begins, and where that leaves it: what it opens and what it sends. -/
inductive Begins (s : Session) : Call → Session → Step → Prop
  | ends (c : Call) (s' : Session) (r : Result) : Begins s c s' (.next (.done r))
  | visits (c : Call) (target : Location) :
    Begins s c (s.visit target .visit).1 (.next (s.visit target .visit).2)
  | views {m : Mode} (hm : s.mode.step? .startView = some m) (url : String) :
    Begins s .startView (s.setMode m) (.next (.fetch url (.editor m)))
  | edits {m : Mode} (hm : s.mode.step? .startEdit = some m) (url : String) :
    Begins s .startEdit (s.setMode m) (.next (.fetch url (.editor m)))
  | saves (hm : s.mode = .editing) (request : Write) (id : String) :
    Begins s .finishEdit s (.write request (.update id))
  | adds (hm : s.mode = .adding) (request : Write) :
    Begins s .finishAdd s (.write request .create)
  | sends (c : Call) (request : Write) {w : Writing} (hw : w.panel? = none) :
    Begins s c s (.write request w)

theorem begins_settle (s : Session) (c : Call) (r : Except Error Session) :
    Begins s c (s.settle r).1 (s.settle r).2 := by
  rcases r with e | s' <;> exact .ends c _ _

theorem begins_start (s : Session) (c : Call) : Begins s c (s.start c).1 (s.start c).2 := by
  cases c with
  | navigate target => exact .visits _ target
  | reload => exact .visits _ s.location
  | startView =>
    unfold start openEditor
    simp only
    rcases hs : s.apply .startView with err | s'
    · exact .ends _ _ _
    · obtain ⟨m, hm, rfl⟩ := apply_ok hs
      exact .views hm _
  | finishView => exact begins_settle s _ _
  | startEdit =>
    unfold start openEditor
    simp only
    rcases s.command "edit" Command.editTarget? with err | href
    · exact .ends _ _ _
    · rcases hs : s.apply .startEdit with err | s'
      · exact .ends _ _ _
      · obtain ⟨m, hm, rfl⟩ := apply_ok hs
        exact .edits hm _
  | finishEdit =>
    unfold start finishEdit require sendText
    simp only
    split_ifs with hm
    · rcases s.command "edit" Command.editTarget? with err | href
      · exact .ends _ _ _
      · rcases s.editor.validate with err | body
        · exact .ends _ _ _
        · exact .saves hm _ _
    · exact .ends _ _ _
  | cancelEdit => exact begins_settle s _ _
  | startAdd => exact begins_settle s _ _
  | finishAdd =>
    unfold start finishAdd require sendText
    simp only
    split_ifs with hm
    · rcases s.command "add" Command.addTarget? with err | href
      · exact .ends _ _ _
      · rcases s.editor.validate with err | body
        · exact .ends _ _ _
        · exact .adds hm _
    · exact .ends _ _ _
  | cancelAdd => exact begins_settle s _ _
  | delete confirmed =>
    unfold start delete
    simp only
    rcases s.command "delete" Command.deleteTarget? with err | ⟨href, parent⟩
    · exact .ends _ _ _
    · cases confirmed
      · exact .ends _ _ _
      · exact .sends _ _ rfl
  | runAction name confirmed =>
    unfold start runAction
    simp only
    rcases s.command name (Command.actionTarget? name) with err | href
    · exact .ends _ _ _
    · cases confirmed
      · exact .ends _ _ _
      · exact .sends _ _ rfl

/-- A call has ended, or waits for a page. -/
inductive Concludes : Next → Prop
  | ends (r : Result) : Concludes (.done r)
  | visits (s : Session) (target : Location) (purpose : Purpose) :
    Concludes (s.visit target purpose).2

theorem concludes_closeFailed (s : Session) (text : String) (err : Error) :
    Concludes (s.closeFailed text err).2 := by
  unfold closeFailed
  simp only
  rcases (s.setMessage text).apply .failed with refusal | s' <;> exact .ends _

theorem concludes_resumeWrite (s : Session) (w : Writing) (answer : Written) :
    Concludes (s.resumeWrite w answer).2 := by
  match w, answer with
  | .update _, .ok _ =>
    unfold resumeWrite
    simp only
    rcases s.apply .saved with refusal | s'
    · exact .ends _
    · exact .visits _ _ _
  | .update id, .error err => exact concludes_closeFailed s _ err
  | .create, .ok created =>
    unfold resumeWrite
    simp only
    rcases s.apply .created with refusal | s'
    · exact .ends _
    · exact .visits _ _ _
  | .create, .error err => exact concludes_closeFailed s _ err
  | .delete _ _, .ok _ => exact .visits _ _ _
  | .delete _ _, .error _ => exact .ends _
  | .action _, .ok _ => exact .visits _ _ _
  | .action _, .error _ => exact .ends _

theorem eq_page_of_resumeWrite {w : Writing} {answer : Written} {url : String} {r : Reading}
    (h : (s.resumeWrite w answer).2 = .fetch url r) :
    ∃ t target purpose, r = .page t target purpose := by
  have hc := concludes_resumeWrite s w answer
  rw [h] at hc
  generalize hn : Next.fetch url r = n at hc
  cases hc with
  | ends => cases hn
  | visits =>
    cases hn
    exact ⟨_, _, _, rfl⟩

/-- The step after which a call waits for something. -/
def Waiting.step : Waiting → Step
  | .reading url r => .next (.fetch url r)
  | .writing request w => .write request w

theorem step_of_settle {name : String} {step : Step} {w : Waiting}
    (h : (o.settle name s step).2 = .waits w) : step = w.step := by
  match step with
  | .next (.done r) => cases h
  | .next (.fetch url r) => cases h; rfl
  | .write request w => cases h; rfl

/-- What waits for anything but a page is a call that has just begun. -/
theorem Moment.begins_of_waits {m : Moment} {name : String} {w : Waiting}
    (hn : m.action.name? = some name) (hp : m.progress = some (.waits w))
    (hw : ∀ url t target purpose, w ≠ .reading url (.page t target purpose)) :
    ∃ c, m.action = .call name c ∧ m.before.session.Begins c m.after.session w.step := by
  obtain ⟨o, a⟩ := m
  rcases o.act_cases a with ⟨n, s, step, hadv, hname, hact⟩ | ⟨hnone, -, -⟩
  · obtain rfl : n = name := Option.some.inj (hname.symm.trans hn)
    have hs : Moment.after ⟨o, a⟩ = (o.settle n s step).1 := congrArg Prod.fst hact
    have hstep : step = w.step := by
      rw [Moment.progress, hact] at hp
      exact step_of_settle (Option.some.inj hp)
    rw [hs, Overlap.session_settle, ← hstep]
    cases hadv with
    | begins _ c => exact ⟨c, rfl, begins_start o.session c⟩
    | reads hr answer => cases w <;> cases hstep
    | writes hr answer =>
      rcases w with ⟨url, r⟩ | ⟨request, w⟩
      · obtain ⟨t, target, purpose, rfl⟩ := eq_page_of_resumeWrite (Step.next.inj hstep)
        exact absurd rfl (hw url t target purpose)
      · cases hstep
  · rw [Moment.progress, hnone] at hp
    cases hp

/-! ## The text of a panel -/

theorem Mode.ne_normal_of_step? {m m' : Mode} {e : Mode.Event} (h : m.step? e = some m')
    (he : e = .startView ∨ e = .startEdit) : m' ≠ .normal := by
  rcases he with rfl | rfl <;> cases m <;> cases h <;> exact Mode.noConfusion

/-- What waits for the text of a panel is a call that has opened the panel. -/
theorem Moment.opens_panel {m : Moment} {name url : String} {p : Mode}
    (hn : m.action.name? = some name)
    (hp : m.progress = some (.waits (.reading url (.editor p)))) :
    (m.action = .call name .startView ∨ m.action = .call name .startEdit) ∧
      m.after.session.mode = p ∧ p ≠ .normal := by
  obtain ⟨c, hc, hbegins⟩ := Moment.begins_of_waits hn hp (by simp)
  generalize m.after.session = s' at hbegins ⊢
  rw [Waiting.step] at hbegins
  cases hbegins with
  | views hm => exact ⟨.inl hc, rfl, Mode.ne_normal_of_step? hm (.inl rfl)⟩
  | edits hm => exact ⟨.inr hc, rfl, Mode.ne_normal_of_step? hm (.inr rfl)⟩

/-- The editor once an answer has come for the panel that is open. -/
def filled (e : Editor) (answer : Fetched) : Editor :=
  match Service.document answer with
  | .ok d => ⟨d.pretty⟩
  | .error _ => e

theorem editor_resumeEditor (s : Session) (p : Mode) (answer : Fetched) :
    (s.resumeFetch (.editor p) answer).1.editor =
      if s.mode = p then filled s.editor answer else s.editor := by
  unfold resumeFetch filled
  simp only
  rcases Service.document answer with e | d
  · exact (ite_self _).symm
  · simp only
    split_ifs <;> rfl

theorem Moment.after_fetched {m : Moment} {name url : String} {r : Reading} {answer : Fetched}
    (hm : m.action = .fetched name answer) (hw : m.before.waiting? name = some (.reading url r)) :
    m.after.session = (m.before.session.resumeFetch r answer).1 := by
  rw [Moment.after, hm, Overlap.act, Overlap.fetched]
  simp only [hw]
  exact Overlap.session_settle _ _ _ _

/-- A panel that is open as an answer comes was open when its call came to wait, or has been opened
since. -/
theorem Answered.mode_iff {k m : Moment} {between : List Moment} {name : String} {w : Waiting}
    (ha : Answered ms k between m name w) (h : Run b l ms o) {q : Mode} (hq : q ≠ .normal) :
    m.before.session.mode = q ↔
      (k.after.session.mode = q ∧ StaysOpen between) ∨ Opens q between := by
  obtain ⟨early, hrun⟩ := ha.run h
  exact hrun.mode_since rfl hq

/-- The text that comes for a panel goes into the editor exactly if a panel of the same mode is open:
the one for which it comes, or one that has been opened since. -/
theorem Run.text_arrives (h : Run b l ms o) {k m : Moment} {between : List Moment}
    {name url : String} {p : Mode} {answer : Fetched}
    (ha : Answered ms k between m name (.reading url (.editor p)))
    (hm : m.action = .fetched name answer) :
    (k.action = .call name .startView ∨ k.action = .call name .startEdit) ∧
      (m.after.session.editor =
        if m.before.session.mode = p then filled m.before.session.editor answer
        else m.before.session.editor) ∧
      (m.before.session.mode = p ↔ StaysOpen between ∨ Opens p between) := by
  obtain ⟨hcall, hk, hp⟩ := Moment.opens_panel ha.comes.1 ha.comes.2
  have hopen := ha.mode_iff h hp
  rw [hk] at hopen
  refine ⟨hcall, ?_, by simpa using hopen⟩
  rw [Moment.after_fetched hm ha.awaited, editor_resumeEditor]

/-- A disk that can be edited. -/
def disk (href : String) : Fetched :=
  .ok (.object [("resourceURI", .string "Disk"), ("operations",
    .array [.object [("rel", .string "edit"), ("href", .string href)]])])

/-- The text comes for the panel that waits for it, and what was typed there is lost. -/
theorem text_arrives_viewing :
    ∃ ms o k between m, Run ⟨"http://host/api/"⟩ ⟨"page", ⟨"disk/1"⟩, .fragment⟩ ms o ∧
      Answered ms k between m "view" (.reading "http://host/api/disk/1" (.editor .viewing)) ∧
      m.action = .fetched "view" (disk "disk/1") ∧ StaysOpen between ∧
      m.before.session.editor = ⟨"typed"⟩ ∧
      m.after.session.editor = filled ⟨"typed"⟩ (disk "disk/1") := by
  have h := (Run.start (b := ⟨"http://host/api/"⟩) (l := ⟨"page", ⟨"disk/1"⟩, .fragment⟩)).step
    (.call "view" .startView)
    |>.step (.setText "typed")
    |>.step (.fetched "view" (disk "disk/1"))
  refine ⟨_, _, _, [_], _, h, ⟨⟨[], [], rfl⟩, ⟨rfl, rfl⟩, ?waits, rfl⟩, rfl, ?opened, rfl,
    (h.text_arrives ⟨⟨[], [], rfl⟩, ⟨rfl, rfl⟩, ?waits, rfl⟩ rfl).2.1⟩
  · simp [Action.name?]
  · exact List.forall_mem_singleton.2 (by exact Mode.noConfusion)

/-- No text that comes for a panel changes the editor when that panel has been closed. -/
def DropsLateTexts (ms : List Moment) : Prop :=
  ∀ k between m name url p answer, Answered ms k between m name (.reading url (.editor p)) →
    m.action = .fetched name answer → ¬StaysOpen between →
    m.after.session.editor = m.before.session.editor

/-- The text of one disk comes for a panel that a navigation has closed, and takes the place of the
text of another disk, whose panel is open by then. -/
theorem late_text_replaces :
    ∃ ms o, Run ⟨"http://host/api/"⟩ ⟨"page", ⟨"disk/1"⟩, .fragment⟩ ms o ∧
      ¬DropsLateTexts ms ∧ o.session.mode = .editing ∧
      o.session.location.reference = ⟨"disk/2"⟩ ∧
      o.session.editor = filled .empty (disk "disk/1") := by
  have h := (Run.start (b := ⟨"http://host/api/"⟩) (l := ⟨"page", ⟨"disk/1"⟩, .fragment⟩)).step
    (.call "load" .reload)
    |>.step (.fetched "load" (disk "disk/1"))
    |>.step (.call "late" .startEdit)
    |>.step (.call "visit" (.navigate ⟨"page", ⟨"disk/2"⟩, .fragment⟩))
    |>.step (.fetched "visit" (disk "disk/2"))
    |>.step (.call "edit" .startEdit)
    |>.step (.fetched "edit" (disk "disk/2"))
    |>.step (.fetched "late" (disk "disk/1"))
  refine ⟨_, _, h, fun hdrops => ?_, rfl, rfl, rfl⟩
  have := hdrops _ [_, _, _, _] _ "late" _ .editing (disk "disk/1")
    ⟨⟨[_, _], [], rfl⟩, ⟨rfl, rfl⟩, ?_, rfl⟩ rfl ?_
  · revert this
    decide
  · simp [Action.name?]
  · exact fun hopen => hopen _ (.tail _ (.head _)) rfl

end Cimi.Session
