import Cimi.Proofs.Session.Contacts
import Cimi.Proofs.Session.Refused
import Cimi.Terminal.Browse

/-!
# What is sent for a line

A browser is fed lines, and the end of the input, one after the other (`Takes`).  A line is a
command, or the answer to the question that the line before it has asked.

For one line at most one request that writes is sent.  A resource is deleted, and an action is run,
only if the line before asked for it and this one says yes, and what is deleted is what the question
has named; a text is sent only for a line that saves it (`SentFor`).  That holds of all input
(`Browser.browse_sends`).
-/

namespace Cimi.Terminal

open Session

variable {b b' m : Browser} {line : Option String} {cs : List Contact} {printed text : String}
  {s : Session} {input : Input} {w : Write}

namespace Browser

/-! ## What a line does -/

/-- A line is read as a command. -/
def Reads (b : Browser) (line : Option String) (input : Input) : Prop :=
  b.awaiting = .command ∧ ∃ text, line = some text ∧ Input.parse text = .ok input

/-- What a line does to the session: it changes the text of the editor, or it makes a call. -/
inductive Acts (b : Browser) (line : Option String) : List Contact → Session → Prop
  | edits {s : Session} (hb : b.awaiting = .command) (hs : s.base = b.session.base) :
    Acts b line [] s
  | deletes {cs : List Contact} {s : Session} {r : Result} (hb : b.awaiting = .deleteAnswer)
    (h : (b.session.run (.delete (agrees line))).Yields cs (s, r)) : Acts b line cs s
  | runs {cs : List Contact} {s : Session} {r : Result} {action : String}
    (hb : b.awaiting = .runAnswer action)
    (h : (b.session.run (.runAction action (agrees line))).Yields cs (s, r)) : Acts b line cs s
  | calls {cs : List Contact} {s : Session} {r : Result} {input : Input} {c : Call}
    (hr : b.Reads line input) (hc : callOf? b.session input = some c ∨ c = .delete false)
    (h : (b.session.run c).Yields cs (s, r)) : Acts b line cs s

/-- What a browser makes of a line, or of the end of the input. -/
inductive Fed (b : Browser) (line : Option String) : List Contact → Browser → String → Prop
  | stops (printed : String) : Fed b line [] { b with awaiting := .nothing } printed
  | stays (hb : b.awaiting = .command) (text : String) : Fed b line [] b (text ++ prompt)
  | asksDelete {href : String} (hr : b.Reads line .delete)
    (ht : b.session.deleteTarget? = some href) :
    Fed b line [] { b with awaiting := .deleteAnswer } (question s!"Delete resource {href}?")
  | asksRun {action : String} (hr : b.Reads line (.run action)) :
    Fed b line [] { b with awaiting := .runAnswer action } (question s!"Run action {action}?")
  | acts {cs : List Contact} {b' : Browser} {printed text : String} {s : Session}
    (h : b.Acts line cs s) (he : (b', printed) = b.after s text) : Fed b line cs b' printed

theorem yields_pure {x : Browser} {text : String}
    (h : (pure (x, text) : Exchange (Browser × String)).Yields cs (b', printed)) :
    cs = [] ∧ b' = x ∧ printed = text := by
  obtain ⟨rfl, he⟩ := Exchange.yields_done.1 h
  cases he
  exact ⟨rfl, rfl, rfl⟩

theorem yields_call {c : Call} (h : (b.call c).Yields cs (b', printed)) :
    ∃ s r, (b.session.run c).Yields cs (s, r) ∧ (b', printed) = b.after s (b.report r) := by
  obtain ⟨first, ⟨s, r⟩, rest, rfl, hrun, hafter⟩ := Exchange.yields_bind.1 h
  obtain ⟨rfl, he⟩ := Exchange.yields_done.1 hafter
  rw [List.append_nil]
  exact ⟨s, r, hrun, he⟩

theorem fed_of_call {c : Call} (hr : b.Reads line input)
    (hc : callOf? b.session input = some c ∨ c = .delete false)
    (h : (b.call c).Yields cs (b', printed)) : b.Fed line cs b' printed := by
  obtain ⟨s, r, hrun, he⟩ := yields_call h
  exact .acts (.calls hr hc hrun) he

theorem fed_of_command (hr : b.Reads line input) (h : (b.command input).Yields cs (b', printed)) :
    b.Fed line cs b' printed := by
  cases input
  case quit =>
    obtain ⟨rfl, rfl, rfl⟩ := yields_pure h
    exact .stops _
  case help =>
    obtain ⟨rfl, rfl, rfl⟩ := yields_pure h
    exact .stays hr.1 _
  case set text =>
    obtain ⟨rfl, he⟩ := Exchange.yields_done.1 h
    exact .acts (s := b.session.setText text) (.edits hr.1 rfl) he
  case format =>
    obtain ⟨rfl, he⟩ := Exchange.yields_done.1 h
    exact .acts (s := b.session.format.1) (.edits hr.1 rfl) he
  case delete =>
    rw [command] at h
    split at h
    · next href ht =>
      obtain ⟨rfl, rfl, rfl⟩ := yields_pure h
      exact .asksDelete hr ht
    · exact fed_of_call hr (.inr rfl) h
  case run action =>
    obtain ⟨rfl, rfl, rfl⟩ := yields_pure h
    exact .asksRun hr
  all_goals exact fed_of_call hr (.inl rfl) h

theorem fed_of_commandLine (hb : b.awaiting = .command)
    (h : (b.commandLine text).Yields cs (b', printed)) : b.Fed (some text) cs b' printed := by
  rw [commandLine] at h
  split_ifs at h
  · obtain ⟨rfl, rfl, rfl⟩ := yields_pure h
    exact .stays hb ""
  · rcases hp : Input.parse text with unknown | input <;> rw [hp] at h
    · obtain ⟨rfl, rfl, rfl⟩ := yields_pure h
      exact .stays hb _
    · exact fed_of_command ⟨hb, text, rfl, hp⟩ h

theorem fed_of_feed (h : (b.feed line).Yields cs (b', printed)) : b.Fed line cs b' printed := by
  unfold feed at h
  split at h
  · next hb =>
    -- A browser that has stopped is left as it is, and that is how it stops once more.
    have hstops : b.Fed line [] { b with awaiting := .nothing } "" := .stops ""
    rw [← hb] at hstops
    obtain ⟨rfl, rfl, rfl⟩ := yields_pure h
    exact hstops
  · next hb =>
    obtain ⟨s, r, hrun, he⟩ := yields_call h
    exact .acts (.deletes hb hrun) he
  · next action hb =>
    obtain ⟨s, r, hrun, he⟩ := yields_call h
    exact .acts (.runs hb hrun) he
  · next hb =>
    rcases line with _ | text
    · obtain ⟨rfl, rfl, rfl⟩ := yields_pure h
      exact .stops _
    · exact fed_of_commandLine hb h

/-! ## What is sent for a line -/

/-- Why a request that writes is sent: yes has been said to a question, or a text is saved. -/
inductive Grounds (b : Browser) (line : Option String) : Write → Prop
  | deletes {href : String} (hb : b.awaiting = .deleteAnswer) (hyes : agrees line = true)
    (ht : b.session.deleteTarget? = some href) :
    Grounds b line ⟨.delete, b.session.base.resolve href, none⟩
  | runs {name href : String} (hb : b.awaiting = .runAnswer name) (hyes : agrees line = true)
    (ht : b.session.page.bind (·.command? (Command.actionTarget? name)) = some href) :
    Grounds b line ⟨.post, b.session.base.resolve href, none⟩
  | saves {method : WriteMethod} {url : String} {body : Json.Value} (hr : b.Reads line .save)
    (hm : method = .put ∨ method = .post) : Grounds b line ⟨method, url, some body⟩

theorem sent_of_run {c : Call} {s' : Session} {r : Result} (h : (s.run c).Yields cs (s', r))
    (hw : w ∈ writes cs) : writes cs = [w] ∧ (s.start c).2.write? = some w := by
  have hwrites := writes_of_run h
  rw [hwrites] at hw ⊢
  have hsent := Option.mem_toList.1 hw
  exact ⟨by rw [hsent]; rfl, hsent⟩

theorem grounds_of_delete (hb : b.awaiting = .deleteAnswer)
    (hw : (b.session.start (.delete (agrees line))).2.write? = some w) : b.Grounds line w := by
  rw [start, write?_delete] at hw
  split_ifs at hw with hyes
  obtain ⟨⟨href, parent⟩, hc, rfl⟩ := Option.map_eq_some_iff.1 hw
  exact .deletes hb hyes (by rw [deleteTarget?, hc]; rfl)

theorem grounds_of_runAction {name : String} (hb : b.awaiting = .runAnswer name)
    (hw : (b.session.start (.runAction name (agrees line))).2.write? = some w) :
    b.Grounds line w := by
  rw [start, write?_runAction] at hw
  split_ifs at hw with hyes
  obtain ⟨href, hc, rfl⟩ := Option.map_eq_some_iff.1 hw
  exact .runs hb hyes hc

/-- What is sent of a text is the request for a link and a body. -/
theorem exists_of_sent {mode : Mode} {target : Option String} {body : Option Json.Value}
    {request : String → Json.Value → Write}
    (hw : (if s.mode = mode then target.bind fun href => body.map (request href) else none) =
      some w) : ∃ href v, w = request href v := by
  split_ifs at hw
  obtain ⟨href, -, hsent⟩ := Option.bind_eq_some_iff.1 hw
  obtain ⟨v, -, rfl⟩ := Option.map_eq_some_iff.1 hsent
  exact ⟨href, v, rfl⟩

theorem grounds_of_finishEdit (hr : b.Reads line .save)
    (hw : (b.session.start .finishEdit).2.write? = some w) : b.Grounds line w := by
  obtain ⟨href, body, rfl⟩ := exists_of_sent ((write?_finishEdit b.session).symm.trans hw)
  exact .saves hr (.inl rfl)

theorem grounds_of_finishAdd (hr : b.Reads line .save)
    (hw : (b.session.start .finishAdd).2.write? = some w) : b.Grounds line w := by
  obtain ⟨href, body, rfl⟩ := exists_of_sent ((write?_finishAdd b.session).symm.trans hw)
  exact .saves hr (.inr rfl)

theorem write?_startEdit (s : Session) : (s.start .startEdit).2.write? = none := by
  rw [start]
  rcases s.command "edit" Command.editTarget? with e | href <;> rfl

/-- Of the commands that need no confirmation, only the one that saves sends anything. -/
theorem grounds_of_callOf? {c : Call} (hr : b.Reads line input)
    (hc : callOf? b.session input = some c) (hw : (b.session.start c).2.write? = some w) :
    b.Grounds line w := by
  cases input <;> cases hc
  case edit => rw [write?_startEdit] at hw; cases hw
  case save =>
    split_ifs at hw
    · exact grounds_of_finishAdd hr hw
    · exact grounds_of_finishEdit hr hw
  case done => rw [start, write?_settle] at hw; cases hw
  case add => rw [start, write?_settle] at hw; cases hw
  case cancel => split_ifs at hw <;> rw [start, cancel, write?_settle] at hw <;> cases hw
  all_goals cases hw

theorem Acts.grounds (h : b.Acts line cs s) (hw : w ∈ writes cs) :
    writes cs = [w] ∧ b.Grounds line w := by
  cases h with
  | edits => cases hw
  | deletes hb hrun =>
    obtain ⟨hone, hsent⟩ := sent_of_run hrun hw
    exact ⟨hone, grounds_of_delete hb hsent⟩
  | runs hb hrun =>
    obtain ⟨hone, hsent⟩ := sent_of_run hrun hw
    exact ⟨hone, grounds_of_runAction hb hsent⟩
  | calls hr hc hrun =>
    obtain ⟨hone, hsent⟩ := sent_of_run hrun hw
    rcases hc with hc | rfl
    · exact ⟨hone, grounds_of_callOf? hr hc hsent⟩
    · rw [start, write?_delete] at hsent
      cases hsent

/-- For a line at most one request that writes is sent, and there are grounds for it. -/
theorem Fed.grounds (h : b.Fed line cs b' printed) (hw : w ∈ writes cs) :
    writes cs = [w] ∧ b.Grounds line w := by
  cases h with
  | acts hacts => exact hacts.grounds hw
  | _ => cases hw

/-! ## When nothing is said -/

theorem contacts_of_unasked {c : Call} {s' s₁ : Session} {r r₁ : Result}
    (h : (s.run c).Yields cs (s', r)) (hstart : s.start c = (s₁, .next (.done r₁))) : cs = [] := by
  rw [run_done hstart] at h
  exact (Exchange.yields_done.1 h).1

theorem Acts.ended (h : b.Acts none cs s) : cs = [] := by
  cases h with
  | edits => rfl
  | deletes hb hrun =>
    obtain ⟨r, hstart⟩ := start_delete_unconfirmed b.session
    exact contacts_of_unasked hrun hstart
  | @runs cs s r action hb hrun =>
    obtain ⟨r, hstart⟩ := start_runAction_unconfirmed b.session action
    exact contacts_of_unasked hrun hstart
  | calls hr =>
    obtain ⟨-, text, hline, -⟩ := hr
    cases hline

/-- At the end of the input the server is asked for nothing. -/
theorem Fed.ended (h : b.Fed none cs b' printed) : cs = [] := by
  cases h with
  | acts hacts => exact hacts.ended
  | _ => rfl

theorem Acts.awaiting (h : b.Acts line cs s) : b.awaiting ≠ .nothing := by
  cases h with
  | edits hb => simp [hb]
  | deletes hb => simp [hb]
  | runs hb => simp [hb]
  | calls hr => simp [hr.1]

/-- A browser that has stopped stays stopped. -/
theorem Fed.stopped (h : b.Fed line cs b' printed) (hb : b.awaiting = .nothing) :
    cs = [] ∧ b'.awaiting = .nothing := by
  cases h with
  | stops => exact ⟨rfl, rfl⟩
  | stays hc => rw [hb] at hc; cases hc
  | asksDelete hr => rw [hr.1] at hb; cases hb
  | asksRun hr => rw [hr.1] at hb; cases hb
  | acts hacts => exact absurd hb hacts.awaiting

/-! ## What a line leaves behind -/

theorem eq_after (he : (b', printed) = b.after s text) :
    b'.session = s ∧ b'.awaiting = .command ∧ ∃ shown, printed = shown ++ prompt := by
  cases he
  exact ⟨rfl, rfl, _, rfl⟩

theorem Acts.base (h : b.Acts line cs s) : s.base = b.session.base := by
  cases h with
  | edits hb hs => exact hs
  | deletes hb hrun => exact base_of_run hrun
  | runs hb hrun => exact base_of_run hrun
  | calls hr hc hrun => exact base_of_run hrun

theorem Fed.base (h : b.Fed line cs b' printed) : b'.session.base = b.session.base := by
  cases h with
  | acts hacts he => rw [(eq_after he).1, hacts.base]
  | _ => rfl

/-- The line before an answer is the command that asks for it. -/
theorem Fed.asked_delete (h : b.Fed line cs b' printed) (ha : b'.awaiting = .deleteAnswer) :
    b.Reads line .delete ∧ ∃ href, b'.session.deleteTarget? = some href ∧
      printed = question s!"Delete resource {href}?" := by
  cases h with
  | stops => cases ha
  | stays hb => rw [hb] at ha; cases ha
  | asksDelete hr ht => exact ⟨hr, _, ht, rfl⟩
  | asksRun => cases ha
  | acts hacts he => rw [(eq_after he).2.1] at ha; cases ha

theorem Fed.asked_run {action : String} (h : b.Fed line cs b' printed)
    (ha : b'.awaiting = .runAnswer action) :
    b.Reads line (.run action) ∧ printed = question s!"Run action {action}?" := by
  cases h with
  | stops => cases ha
  | stays hb => rw [hb] at ha; cases ha
  | asksDelete => cases ha
  | asksRun hr => cases ha; exact ⟨hr, rfl⟩
  | acts hacts he => rw [(eq_after he).2.1] at ha; cases ha

theorem Fed.prompted (h : b.Fed line cs b' printed) (ha : b'.awaiting = .command) :
    ∃ shown, printed = shown ++ prompt := by
  cases h with
  | stops => cases ha
  | stays hb text => exact ⟨text, rfl⟩
  | asksDelete => cases ha
  | asksRun => cases ha
  | acts hacts he => exact (eq_after he).2.2

theorem question_ne_prompted (words shown : String) : question words ≠ shown ++ prompt := by
  intro h
  have h : words ++ " [y/N] " = shown ++ "> " := h
  -- One ends in a bracket and a blank, the other in an angle and a blank.
  have hlast := congrArg (·.toList.reverse) h
  simp at hlast

/-- A line that follows a question is no command. -/
theorem Fed.asked {words : String} (h : b.Fed line cs b' (question words)) :
    b'.awaiting ≠ .command := by
  intro ha
  obtain ⟨shown, hp⟩ := h.prompted ha
  exact question_ne_prompted words shown hp

theorem parse_of_blank (h : (Text.trim text.toList).isEmpty = true) :
    Input.parse text = .error ⟨""⟩ := by
  rw [Input.parse]
  simp only [List.isEmpty_iff.1 h]
  rfl

theorem awaiting_of_quit (hr : b.Reads line .quit)
    (h : (b.feed line).Yields cs (b', printed)) : b'.awaiting = .nothing := by
  obtain ⟨hb, text, rfl, hp⟩ := hr
  unfold feed commandLine at h
  simp only [hb] at h
  split_ifs at h with hblank
  · rw [parse_of_blank hblank] at hp
    cases hp
  · rw [hp] at h
    obtain ⟨-, rfl, -⟩ := yields_pure h
    rfl

end Browser

/-! ## Lines that follow each other -/

/-- A line that is fed to a browser, or the end of the input. -/
structure Turn where
  before : Browser
  line : Option String
  contacts : List Contact
  after : Browser
  printed : String

/-- The turns of a browser, one after the other. -/
inductive Takes : Browser → List Turn → Browser → Prop
  | nil (b : Browser) : Takes b [] b
  | cons {b b' m : Browser} {line : Option String} {cs : List Contact} {printed : String}
    {ts : List Turn} (h : (b.feed line).Yields cs (m, printed)) (hts : Takes m ts b') :
    Takes b (⟨b, line, cs, m, printed⟩ :: ts) b'

variable {t : Turn} {past rest ts : List Turn}

theorem Takes.split (h : Takes b (past ++ rest) b') : ∃ m, Takes b past m ∧ Takes m rest b' := by
  induction past generalizing b with
  | nil => exact ⟨b, .nil b, h⟩
  | cons t past ih =>
    cases h with
    | cons hfeed hts =>
      obtain ⟨m, hpast, hrest⟩ := ih hts
      exact ⟨m, .cons hfeed hpast, hrest⟩

theorem Takes.head (h : Takes b (t :: rest) b') :
    t.before = b ∧ (b.feed t.line).Yields t.contacts (t.after, t.printed) := by
  cases h with
  | cons hfeed hts => exact ⟨rfl, hfeed⟩

theorem Takes.last (h : Takes b (past ++ [t]) b') :
    Takes b past t.before ∧ (t.before.feed t.line).Yields t.contacts (b', t.printed) := by
  obtain ⟨m, hpast, ht⟩ := h.split
  cases ht with
  | cons hfeed hts =>
    cases hts
    exact ⟨hpast, hfeed⟩

theorem Takes.base (h : Takes b ts b') : b'.session.base = b.session.base := by
  induction h with
  | nil => rfl
  | cons hfeed _ ih => rw [ih, (Browser.fed_of_feed hfeed).base]

theorem Takes.stopped (h : Takes b ts b') (hb : b.awaiting = .nothing) :
    b'.awaiting = .nothing := by
  induction h with
  | nil => exact hb
  | cons hfeed _ ih => exact ih ((Browser.fed_of_feed hfeed).stopped hb).2

theorem Takes.quits (h : Takes b past b') {q : Turn} (hq : q ∈ past)
    (hquit : q.before.Reads q.line .quit) : b'.awaiting = .nothing := by
  obtain ⟨early, late, rfl⟩ := List.append_of_mem hq
  obtain ⟨m, -, hlate⟩ := h.split
  cases hlate with
  | cons hfeed hts => exact hts.stopped (Browser.awaiting_of_quit hquit hfeed)

/-- A turn says yes to the question that the turn right before has asked, for a command. -/
def Confirms (past : List Turn) (t : Turn) (input : Input) (words : String) : Prop :=
  ∃ earlier asking answer, past = earlier ++ [asking] ∧ asking.before.Reads asking.line input ∧
    asking.printed = Browser.question words ∧ t.line = some answer ∧ Input.isYes answer = true

/-- What the request that writes is sent for in a turn. -/
inductive SentFor (base : Endpoint) (past : List Turn) (t : Turn) : Write → Prop
  | deletion {href : String} (h : Confirms past t .delete s!"Delete resource {href}?") :
    SentFor base past t ⟨.delete, base.resolve href, none⟩
  | action {name href : String} (h : Confirms past t (.run name) s!"Run action {name}?")
    (ht : t.before.session.page.bind (·.command? (Command.actionTarget? name)) = some href) :
    SentFor base past t ⟨.post, base.resolve href, none⟩
  | saving {method : WriteMethod} {url : String} {body : Json.Value}
    (h : t.before.Reads t.line .save) (hm : method = .put ∨ method = .post) :
    SentFor base past t ⟨method, url, some body⟩

/-- What is sent in a turn, after the turns that came before it. -/
structure Heeds (base : Endpoint) (past : List Turn) (t : Turn) : Prop where
  sent : writes t.contacts = [] ∨ ∃ w, writes t.contacts = [w] ∧ SentFor base past t w
  ended : t.line = none → t.contacts = []
  quit : (∃ q ∈ past, q.before.Reads q.line .quit) → t.contacts = []
  answer : ∀ earlier asking words, past = earlier ++ [asking] →
    asking.printed = Browser.question words → ∀ input, ¬t.before.Reads t.line input

theorem exists_of_agrees (h : Browser.agrees line = true) :
    ∃ answer, line = some answer ∧ Input.isYes answer = true := by
  rcases line with _ | answer
  · cases h
  · exact ⟨answer, rfl, h⟩

/-- Before an answer is awaited a question has been asked. -/
theorem Takes.asking (h : Takes b past b') (hb : b.awaiting = .command)
    (ha : b'.awaiting ≠ .command) :
    ∃ earlier asking, past = earlier ++ [asking] ∧
      asking.before.Fed asking.line asking.contacts b' asking.printed := by
  rcases past.eq_nil_or_concat with rfl | ⟨earlier, asking, rfl⟩
  · cases h
    exact absurd hb ha
  · rw [List.concat_eq_append] at h ⊢
    exact ⟨earlier, asking, rfl, Browser.fed_of_feed h.last.2⟩

theorem Takes.sentFor (h : Takes b past t.before) (hb : b.awaiting = .command)
    (hg : t.before.Grounds t.line w) : SentFor b.session.base past t w := by
  rw [← h.base]
  -- Only a question makes a browser await an answer, so it was asked in the turn before.
  cases hg with
  | deletes ha hyes ht =>
    obtain ⟨earlier, asking, rfl, hfed⟩ := h.asking hb (by simp [ha])
    obtain ⟨hr, href, ht', hprinted⟩ := hfed.asked_delete ha
    obtain rfl := Option.some.inj (ht.symm.trans ht')
    obtain ⟨answer, hline, hanswer⟩ := exists_of_agrees hyes
    exact .deletion ⟨earlier, asking, answer, rfl, hr, hprinted, hline, hanswer⟩
  | runs ha hyes ht =>
    obtain ⟨earlier, asking, rfl, hfed⟩ := h.asking hb (by simp [ha])
    obtain ⟨hr, hprinted⟩ := hfed.asked_run ha
    obtain ⟨answer, hline, hanswer⟩ := exists_of_agrees hyes
    exact .action ⟨earlier, asking, answer, rfl, hr, hprinted, hline, hanswer⟩ ht
  | saves hr hm => exact .saving hr hm

theorem Takes.heeds (h : Takes b ts b') (hb : b.awaiting = .command) (he : ts = past ++ t :: rest) :
    Heeds b.session.base past t := by
  subst he
  obtain ⟨m, hpast, hrest⟩ := h.split
  obtain ⟨rfl, hfeed⟩ := hrest.head
  have hfed := Browser.fed_of_feed hfeed
  constructor
  case sent =>
    rcases hw : writes t.contacts with _ | ⟨w, others⟩
    · exact .inl rfl
    · obtain ⟨hone, hg⟩ := hfed.grounds (w := w) (by simp [hw])
      exact .inr ⟨w, hw ▸ hone, hpast.sentFor hb hg⟩
  case ended =>
    intro hline
    rw [hline] at hfed
    exact hfed.ended
  case quit =>
    rintro ⟨q, hq, hquit⟩
    exact (hfed.stopped (hpast.quits hq hquit)).1
  case answer =>
    rintro earlier asking words rfl hprinted input ⟨hc, -⟩
    have hasked := Browser.fed_of_feed hpast.last.2
    rw [hprinted] at hasked
    exact hasked.asked hc

/-! ## All lines of an input -/

/-- The lines of an input up to the first one that cannot be read.  The end of the input is read
twice, for there may be a question just before it. -/
def script {ε : Type} : List (Except ε String) → List (Option String)
  | [] => [none, none]
  | .error _ :: _ => []
  | .ok text :: lines => some text :: script lines

/-- What is printed in some turns. -/
def printout (ts : List Turn) : String := String.join (ts.map Turn.printed)

theorem takes_of_feedAll {ε : Type} {lines : List (Except ε String)} {result : Except ε Unit}
    (h : (b.feedAll lines).Yields cs (result, printed)) :
    ∃ ts b', Takes b ts b' ∧ cs = ts.flatMap Turn.contacts ∧ ts.map Turn.line = script lines ∧
      printed = printout ts := by
  induction lines generalizing b cs result printed with
  | nil =>
    obtain ⟨cs₁, ⟨b₁, printed₁⟩, rest, rfl, h₁, h⟩ := Exchange.yields_bind.1 h
    obtain ⟨cs₂, ⟨b₂, printed₂⟩, rest, rfl, h₂, h⟩ := Exchange.yields_bind.1 h
    obtain ⟨rfl, he⟩ := Exchange.yields_done.1 h
    cases he
    exact ⟨_, b₂, .cons h₁ (.cons h₂ (.nil b₂)), by simp, rfl, by simp [printout]⟩
  | cons line lines ih =>
    rcases line with e | text
    · refine ⟨[], b, .nil b, ?_⟩
      rw [Browser.feedAll] at h
      split_ifs at h <;> obtain ⟨rfl, he⟩ := Exchange.yields_done.1 h <;> cases he <;>
        exact ⟨rfl, rfl, rfl⟩
    · obtain ⟨cs₁, ⟨b₁, printed₁⟩, rest, rfl, h₁, h⟩ := Exchange.yields_bind.1 h
      obtain ⟨cs₂, ⟨result₂, printed₂⟩, rest, rfl, h₂, h⟩ := Exchange.yields_bind.1 h
      obtain ⟨rfl, he⟩ := Exchange.yields_done.1 h
      cases he
      obtain ⟨ts, b', hts, rfl, hlines, rfl⟩ := ih h₂
      exact ⟨_, b', .cons h₁ hts, by simp, by simp [script, hlines], by simp [printout]⟩

namespace Browser

/-- Whatever the input is, and whatever the server answers: once the first page has been asked for,
what is sent is what each line is for, and nothing is sent after the end or after a line that
quits. -/
theorem browse_sends {color : Bool} {bytes : List UInt8} {result : Except Text.Utf8.Fault Unit}
    (h : (browse color s bytes).Yields cs (result, printed)) :
    ∃ opening b greeting ts b', (begin color s).Yields opening (b, greeting) ∧ writes opening = [] ∧
      Takes b ts b' ∧ cs = opening ++ ts.flatMap Turn.contacts ∧
      printed = greeting ++ printout ts ∧
      ts.map Turn.line = script (Text.Lines.ofBytes bytes) ∧
      ∀ past t rest, ts = past ++ t :: rest → Heeds s.base past t := by
  obtain ⟨opening, ⟨b, greeting⟩, rest, rfl, hbegin, h⟩ := Exchange.yields_bind.1 h
  obtain ⟨cs₂, ⟨result₂, printed₂⟩, rest, rfl, hlines, h⟩ := Exchange.yields_bind.1 h
  obtain ⟨rfl, he⟩ := Exchange.yields_done.1 h
  cases he
  obtain ⟨s', r, hrun, hafter⟩ := yields_call hbegin
  obtain ⟨hsession, hb, -⟩ := eq_after hafter
  obtain ⟨ts, b', hts, rfl, hscript, rfl⟩ := takes_of_feedAll hlines
  have hbase : b.session.base = s.base := by rw [hsession, base_of_run hrun]
  refine ⟨opening, b, greeting, ts, b', hbegin, by rw [writes_of_run hrun]; rfl, hts, by simp, rfl,
    hscript, fun past t rest he => ?_⟩
  rw [← hbase]
  exact hts.heeds hb he

/-- A disk that can be deleted. -/
def removable : Fetched :=
  .ok (.object [("resourceURI", .string "Disk"), ("operations",
    .array [.object [("rel", .string "delete"), ("href", .string "disk/1")]])])

/-- A disk is deleted once the question has been answered. -/
theorem browse_sends_deletion :
    ∃ cs printed opening ts,
      (browse false (.new ⟨"http://host/api/"⟩ ⟨"page", ⟨"disk/1"⟩, .fragment⟩)
        "delete\nYES\n".toUTF8.toList).Yields cs (.ok (), printed) ∧
      writes cs = [⟨.delete, "http://host/api/disk/1", none⟩] ∧
      cs = opening ++ ts.flatMap Turn.contacts ∧
      ts.map Turn.line = [some "delete", some "YES", none, none] ∧
      ∀ past t rest, ts = past ++ t :: rest → Heeds ⟨"http://host/api/"⟩ past t := by
  have hlines : Text.Lines.ofBytes "delete\nYES\n".toUTF8.toList = [.ok "delete", .ok "YES"] := by
    cbv
  have h : ∃ cs printed, (browse false (.new ⟨"http://host/api/"⟩ ⟨"page", ⟨"disk/1"⟩, .fragment⟩)
      "delete\nYES\n".toUTF8.toList).Yields cs (.ok (), printed) ∧
        writes cs = [⟨.delete, "http://host/api/disk/1", none⟩] := by
    rw [browse, hlines]
    exact ⟨_, _, .fetch removable (.write (.ok none) (.fetch removable (.done _))), rfl⟩
  obtain ⟨cs, printed, hyields, hwrites⟩ := h
  obtain ⟨opening, b, greeting, ts, b', -, -, -, he, -, hscript, hsent⟩ := browse_sends hyields
  rw [hlines] at hscript
  exact ⟨cs, printed, opening, ts, hyields, hwrites, he, hscript, hsent⟩

end Browser

end Cimi.Terminal
