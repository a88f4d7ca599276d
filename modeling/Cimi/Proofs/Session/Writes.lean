import Cimi.Proofs.Session.Shown

/-!
# Requests that write

A request that writes is sent by a call of the viewer as it begins, and by nothing else: no answer
makes a call send one.  What is sent is told by the document of the page that is shown when the call
is made, and by the text in the editor (`writeOf`).
-/

namespace Cimi.Session

variable {b : Endpoint} {l : Location} {ms : List Moment} {o : Overlap} {s : Session}
  {d : Document}

/-- The request that writes, if a moment sends one. -/
def Moment.sends? (m : Moment) : Option Write :=
  match m.progress with
  | some (.waits (.writing request _)) => some request
  | _ => none

/-- Whether a call is for the panel of a mode; most calls are for any. -/
def Call.permitted (m : Mode) : Call → Bool
  | .finishEdit => m = .editing
  | .finishAdd => m = .adding
  | _ => true

/-- The request by which a call writes, for a document that is shown and a text in the editor. -/
def writeOf (b : Endpoint) (d : Document) (text : String) : Call → Option Write
  | .finishEdit =>
    match d.operations.find? (·.rel = "edit"), Json.parse text with
    | some operation, .ok body => some ⟨.put, b.resolve operation.href, some body⟩
    | _, _ => none
  | .finishAdd =>
    match d.operations.find? (·.rel = "add"), Json.parse text with
    | some operation, .ok body => some ⟨.post, b.resolve operation.href, some body⟩
    | _, _ => none
  | .delete true =>
    (d.operations.find? (·.rel = "delete")).map fun operation =>
      ⟨.delete, b.resolve operation.href, none⟩
  | .runAction name true =>
    (d.operations.find? (·.acts name)).map fun operation =>
      ⟨.post, b.resolve operation.href, none⟩
  | _ => none

/-! ## The targets of the page that is shown -/

theorem toOption_command {α : Type} (s : Session) (operation : String)
    (select : Command → Option α) :
    (s.command operation select).toOption = s.page.bind (·.command? select) := by
  unfold command
  rcases s.page.bind (·.command? select) with _ | x <;> rfl

theorem Shows.bind_command? {α : Type} {select : Command → Option α} {target : Option α}
    (h : s.Shows d) (ht : ∀ p : Page,
      p.buttons = Button.all s.location s.base d.operations → p.command? select = target) :
    s.page.bind (·.command? select) = target := by
  obtain ⟨p, hp, hs⟩ := h
  have hb := Page.buttons_of_build hp
  rw [hs, Option.bind_some]
  exact ht { p with mode := s.mode } hb

/-! ## What a call sends -/

/-- The request that writes, if a step sends one. -/
def Step.write? : Step → Option Write
  | .write request _ => some request
  | .next _ => none

theorem write?_settle (s : Session) (r : Except Error Session) : (s.settle r).2.write? = none := by
  rcases r with e | s' <;> rfl

theorem write?_sendText (s : Session) (request : Json.Value → Write) (writing : Writing) :
    (s.sendText request writing).2.write? = (Json.parse s.editor.text).toOption.map request := by
  unfold sendText Editor.validate
  rcases Json.parse s.editor.text with e | v <;> rfl

theorem write?_finishEdit (s : Session) :
    s.finishEdit.2.write? =
      if s.mode = .editing then
        (s.page.bind (·.command? Command.editTarget?)).bind fun href =>
          (Json.parse s.editor.text).toOption.map (Service.updateRequest s.base href)
      else none := by
  rw [← toOption_command s "edit"]
  unfold finishEdit require
  split_ifs
  · rcases s.command "edit" Command.editTarget? with e | href
    · rfl
    · exact write?_sendText s _ _
  · rfl

theorem write?_finishAdd (s : Session) :
    s.finishAdd.2.write? =
      if s.mode = .adding then
        (s.page.bind (·.command? Command.addTarget?)).bind fun href =>
          (Json.parse s.editor.text).toOption.map (Service.createRequest s.base href)
      else none := by
  rw [← toOption_command s "add"]
  unfold finishAdd require
  split_ifs
  · rcases s.command "add" Command.addTarget? with e | href
    · rfl
    · exact write?_sendText s _ _
  · rfl

theorem write?_delete (s : Session) (confirmed : Bool) :
    (s.delete confirmed).2.write? =
      if confirmed then
        (s.page.bind (·.command? Command.deleteTarget?)).map fun target =>
          Service.deleteRequest s.base target.1
      else none := by
  rw [← toOption_command s "delete"]
  unfold delete
  rcases s.command "delete" Command.deleteTarget? with e | ⟨href, parent⟩
  · rw [write?_settle]
    split_ifs <;> rfl
  · cases confirmed <;> rfl

theorem write?_runAction (s : Session) (name : String) (confirmed : Bool) :
    (s.runAction name confirmed).2.write? =
      if confirmed then
        (s.page.bind (·.command? (Command.actionTarget? name))).map (Service.actionRequest s.base)
      else none := by
  rw [← toOption_command s name]
  unfold runAction
  rcases s.command name (Command.actionTarget? name) with e | href
  · rw [write?_settle]
    split_ifs <;> rfl
  · cases confirmed <;> rfl

/-- What a call sends, if a page is shown. -/
theorem Shows.write?_start (h : s.Shows d) (c : Call) :
    (s.start c).2.write? =
      if c.permitted s.mode then writeOf s.base d s.editor.text c else none := by
  cases c with
  | navigate target => rfl
  | reload => rfl
  | startView => rfl
  | finishView => exact write?_settle s _
  | startEdit =>
    unfold start
    simp only
    rcases s.command "edit" Command.editTarget? with e | href <;> rfl
  | finishEdit =>
    refine (write?_finishEdit s).trans ?_
    rw [h.bind_command? fun p hp => Page.command?_edit hp]
    simp only [Call.permitted, writeOf, decide_eq_true_eq]
    generalize d.operations.find? (·.rel = "edit") = found
    rcases found with _ | operation
    · rfl
    · rcases Json.parse s.editor.text with e | v <;> rfl
  | cancelEdit => exact write?_settle s _
  | startAdd => exact write?_settle s _
  | finishAdd =>
    refine (write?_finishAdd s).trans ?_
    rw [h.bind_command? fun p hp => Page.command?_add hp]
    simp only [Call.permitted, writeOf, decide_eq_true_eq]
    generalize d.operations.find? (·.rel = "add") = found
    rcases found with _ | operation
    · rfl
    · rcases Json.parse s.editor.text with e | v <;> rfl
  | cancelAdd => exact write?_settle s _
  | delete confirmed =>
    refine (write?_delete s confirmed).trans ?_
    rw [h.bind_command? fun p hp => Page.command?_delete hp]
    cases confirmed with
    | false => rfl
    | true => simp only [Call.permitted, writeOf, ↓reduceIte, Option.map_map]; rfl
  | runAction name confirmed =>
    refine (write?_runAction s name confirmed).trans ?_
    rw [h.bind_command? fun p hp => Page.command?_action name hp]
    cases confirmed with
    | false => rfl
    | true => simp only [Call.permitted, writeOf, ↓reduceIte, Option.map_map]; rfl

/-- A call sends nothing before the first page. -/
theorem write?_start_of_none (h : s.page = none) (c : Call) : (s.start c).2.write? = none := by
  cases c with
  | navigate target => rfl
  | reload => rfl
  | startView => rfl
  | finishView => exact write?_settle s _
  | startEdit =>
    unfold start
    simp only
    rcases s.command "edit" Command.editTarget? with e | href <;> rfl
  | finishEdit => exact (write?_finishEdit s).trans (by rw [h]; exact ite_self _)
  | cancelEdit => exact write?_settle s _
  | startAdd => exact write?_settle s _
  | finishAdd => exact (write?_finishAdd s).trans (by rw [h]; exact ite_self _)
  | cancelAdd => exact write?_settle s _
  | delete confirmed => exact (write?_delete s confirmed).trans (by rw [h]; exact ite_self _)
  | runAction name confirmed =>
    exact (write?_runAction s name confirmed).trans (by rw [h]; exact ite_self _)

/-! ## What a moment sends -/

theorem sends?_of_settle {m : Moment} {name : String} {step : Step}
    (h : m.progress = some (m.before.settle name s step).2) : m.sends? = step.write? := by
  rw [Moment.sends?, h]
  match step with
  | .next (.done r) => rfl
  | .next (.fetch url r) => rfl
  | .write request w => rfl

/-- A moment sends what the call sends that begins in it, and otherwise nothing. -/
theorem Moment.sends?_eq (m : Moment) : m.sends? =
    match m.action with
    | .call _ c => (m.before.session.start c).2.write?
    | _ => none := by
  obtain ⟨o, a⟩ := m
  rcases o.act_cases a with ⟨name, s, step, hadv, -, hact⟩ | ⟨hp, -, -⟩
  · have hp : Moment.progress ⟨o, a⟩ = some (o.settle name s step).2 := congrArg Prod.snd hact
    rw [sends?_of_settle hp]
    cases hadv <;> rfl
  · rw [Moment.sends?, Moment.progress]
    simp only [hp]
    cases a <;> first | rfl | cases hp

/-- In every run, a moment sends a request that writes exactly if a call begins in it that is for
the panel that is open, and the document of the page that is shown has an operation for the call.
So no call sends more than one, for a call begins in one moment. -/
theorem Run.sends_iff (h : Run b l ms o) {m : Moment} (hm : m ∈ ms) (request : Write) :
    m.sends? = some request ↔
      ∃ name c d, m.action = .call name c ∧ m.before.session.Shows d ∧
        c.permitted m.before.session.mode ∧
        writeOf b d m.before.session.editor.text c = some request := by
  obtain ⟨past, future, rfl⟩ := List.append_of_mem hm
  have hrun := h.until rfl
  rw [Moment.sends?_eq]
  constructor
  · intro hs
    rcases ha : m.action with ⟨name, c⟩ | ⟨name, answer⟩ | ⟨name, answer⟩ | ⟨text⟩ | _ | ⟨name⟩ <;>
      rw [ha] at hs
    case call =>
      simp only at hs
      rcases hrun.coherent.shows with hp | ⟨d, hd⟩
      · rw [write?_start_of_none hp] at hs
        cases hs
      · rw [hd.write?_start] at hs
        split_ifs at hs with hc
        exact ⟨name, c, d, rfl, hd, hc, hrun.base ▸ hs⟩
    all_goals cases hs
  · rintro ⟨name, c, d, ha, hd, hc, hw⟩
    rw [ha]
    simp only
    rw [hd.write?_start, if_pos hc, hrun.base, hw]

/-- A confirmed deletion goes to the first link for it of the page that is shown, also when another
page is waited for. -/
theorem sends_deletion :
    ∃ ms o m, Run ⟨"http://host/api/"⟩ ⟨"page", .root, .fragment⟩ ms o ∧ m ∈ ms ∧
      m.sends? = some ⟨.delete, "http://host/api/disk/1", none⟩ ∧
      ∃ name c d, m.action = .call name c ∧ m.before.session.Shows d ∧
        c.permitted m.before.session.mode ∧
        writeOf ⟨"http://host/api/"⟩ d m.before.session.editor.text c =
          some ⟨.delete, "http://host/api/disk/1", none⟩ := by
  have h := (Run.start (b := ⟨"http://host/api/"⟩) (l := ⟨"page", .root, .fragment⟩)).step
    (.call "visit" .reload)
    |>.step (.fetched "visit" (.ok (.object [("resourceURI", .string "Disk"), ("operations",
      .array [.null, .object [("rel", .string "delete"), ("href", .string "disk/1")],
        .object [("rel", .string "delete"), ("href", .string "disk/2")]])])))
    |>.step (.call "other" (.navigate ⟨"page", ⟨"disk/2"⟩, .fragment⟩))
    |>.step (.call "delete" (.delete true))
  exact ⟨_, _, _, h, List.mem_concat_self, rfl, (h.sends_iff List.mem_concat_self _).1 rfl⟩

end Cimi.Session
