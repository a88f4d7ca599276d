import Cimi.Proofs.Session.Closing
import Cimi.Proofs.Session.Creating

/-!
# Panels that are cancelled

There is a call that cancels an edit and one that cancels the adding of a resource.  Both are the
same event, which closes the panel for editing as well as the one for adding.  So either call is
refused exactly if neither panel is open, and then it leaves everything as it was
(`Run.cancel_closes_iff`).  In the panel of the other call it does not fail: it closes that panel,
with a message about a panel that was not open (`cancel_closes_other`).
-/

namespace Cimi

theorem Mode.step?_cancelled (m : Mode) :
    m.step? .cancelled = if m = .editing ∨ m = .adding then some .normal else none := by
  cases m <;> rfl

namespace Session

variable {b : Endpoint} {l : Location} {ms : List Moment} {o : Overlap} {s : Session} {c : Call}
  {p : Mode} {text : String}

/-- The mode of the panel that a call is meant to cancel, and the message of the call. -/
def Call.cancels? : Call → Option (Mode × String)
  | .cancelEdit => some (.editing, "Edit resource cancelled.")
  | .cancelAdd => some (.adding, "Adding resource cancelled.")
  | _ => none

/-! ## The call by itself -/

/-- Which panel a call is meant to cancel makes no difference but for the message. -/
theorem start_of_cancels? (h : c.cancels? = some (p, text)) : s.start c = s.cancel text := by
  cases c <;> cases h <;> rfl

theorem cancel_of_panel (hm : s.mode = .editing ∨ s.mode = .adding) (text : String) :
    s.cancel text = ((s.setMode .normal).setMessage text, .next (.done (.ok .done))) := by
  have happly : s.apply .cancelled = .ok (s.setMode .normal) :=
    apply_eq_ok (by rw [Mode.step?_cancelled, if_pos hm])
  rw [cancel, happly]
  rfl

theorem cancel_without_panel (hm : ¬(s.mode = .editing ∨ s.mode = .adding)) (text : String) :
    s.cancel text = (s, .next (.done (.error (.transition ⟨s.mode, .cancelled⟩)))) := by
  have happly : s.apply .cancelled = .error (.transition ⟨s.mode, .cancelled⟩) :=
    apply_eq_error (by rw [Mode.step?_cancelled, if_neg hm])
  rw [cancel, happly]
  rfl

/-! ## The call in a run -/

/-- A call ends at once: it closes the panel that is open, and says so.  Nothing else changes. -/
structure Moment.ClosesPanel (m : Moment) (name text : String) : Prop where
  progress : m.progress = some (.ended (.ok .done))
  after : m.after = { m.before.drop name with
    session := (m.before.session.setMode .normal).setMessage text }

/-- A call ends at once, because the mode does not allow to cancel anything.  Nothing changes. -/
structure Moment.RefusesCancel (m : Moment) (name : String) : Prop where
  progress : m.progress =
    some (.ended (.error (.transition ⟨m.before.session.mode, .cancelled⟩)))
  after : m.after = m.before.drop name

theorem Moment.of_start_done {m : Moment} {name : String} {r : Result}
    (hm : m.action = .call name c) (hs : m.before.session.start c = (s, .next (.done r))) :
    m.progress = some (.ended r) ∧ m.after = { m.before.drop name with session := s } := by
  rw [Moment.progress, Moment.after, hm, Overlap.act, Overlap.call, hs]
  exact ⟨rfl, rfl⟩

theorem Moment.closesPanel {m : Moment} {name : String} (hm : m.action = .call name c)
    (hc : c.cancels? = some (p, text))
    (hpanel : m.before.session.mode = .editing ∨ m.before.session.mode = .adding) :
    m.ClosesPanel name text := by
  have hs := (start_of_cancels? hc).trans (cancel_of_panel hpanel text)
  obtain ⟨hp, ha⟩ := Moment.of_start_done hm hs
  exact ⟨hp, ha⟩

theorem Moment.refusesCancel {m : Moment} {name : String} (hm : m.action = .call name c)
    (hc : c.cancels? = some (p, text))
    (hnone : ¬(m.before.session.mode = .editing ∨ m.before.session.mode = .adding)) :
    m.RefusesCancel name := by
  have hs := (start_of_cancels? hc).trans (cancel_without_panel hnone text)
  obtain ⟨hp, ha⟩ := Moment.of_start_done hm hs
  exact ⟨hp, ha⟩

theorem Moment.ClosesPanel.not_refusesCancel {m : Moment} {name text : String}
    (h : m.ClosesPanel name text) : ¬m.RefusesCancel name := by
  intro hr
  have := h.progress.symm.trans hr.progress
  cases this

/-- In every run, a call that cancels closes the panel that is open exactly if that is one for
editing or adding: if one of the two has been opened and has stayed open.  Else the call is refused.
For which of the two it is meant does not matter. -/
theorem Run.cancel_closes_iff (h : Run b l ms o) {past late : List Moment} {m : Moment}
    (hms : ms = past ++ m :: late) {name : String} (hm : m.action = .call name c)
    (hc : c.cancels? = some (p, text)) :
    (m.ClosesPanel name text ↔
      m.before.session.mode = .editing ∨ m.before.session.mode = .adding) ∧
    (m.RefusesCancel name ↔
      m.before.session.mode ≠ .editing ∧ m.before.session.mode ≠ .adding) ∧
    (m.before.session.mode = .editing ∨ m.before.session.mode = .adding ↔
      Opens .editing past ∨ Opens .adding past) := by
  have hpast := h.until hms
  refine ⟨⟨fun hcloses => ?_, m.closesPanel hm hc⟩, ⟨fun hrefuses => ?_, fun hnone => ?_⟩, ?_⟩
  · by_contra hnone
    exact hcloses.not_refusesCancel (m.refusesCancel hm hc hnone)
  · rw [← not_or]
    intro hpanel
    exact (m.closesPanel hm hc hpanel).not_refusesCancel hrefuses
  · exact m.refusesCancel hm hc (not_or.2 hnone)
  · rw [hpast.mode_iff_opens Mode.noConfusion, hpast.mode_iff_opens Mode.noConfusion]

/-- An edit is cancelled. -/
theorem cancel_closes_editing :
    ∃ ms o, Run ⟨"http://host/api/"⟩ ⟨"page", ⟨"disk/1"⟩, .fragment⟩
        (ms ++ [⟨editing, .call "cancel" .cancelEdit⟩]) o ∧
      Opens .editing ms ∧
      Moment.ClosesPanel ⟨editing, .call "cancel" .cancelEdit⟩ "cancel"
        "Edit resource cancelled." := by
  obtain ⟨ms, h⟩ := run_editing
  have hrun := h.step (.call "cancel" .cancelEdit)
  have hcloses := (hrun.cancel_closes_iff rfl rfl rfl).1.2 (.inl rfl)
  exact ⟨ms, _, hrun, (h.mode_iff_opens Mode.noConfusion).1 rfl, hcloses⟩

/-- A call that cancels fails where the panel is not open for which it is meant, and then it leaves
the session as it was. -/
def CancelsOwnPanel (ms : List Moment) : Prop :=
  ∀ m ∈ ms, ∀ name c p text, m.action = .call name c → c.cancels? = some (p, text) →
    m.before.session.mode ≠ p →
      (∃ refusal, m.progress = some (.ended (.error (.transition refusal)))) ∧
        m.after.session = m.before.session

/-- The panel in which a disk is composed is closed by the call that cancels an edit. -/
theorem cancel_closes_other :
    ∃ ms o, Run ⟨"http://host/api/"⟩ ⟨"page", ⟨"/disks"⟩, .fragment⟩ ms o ∧
      ¬CancelsOwnPanel ms ∧ o.session.mode = .normal ∧
      o.session.message = some "Edit resource cancelled." := by
  obtain ⟨ms, h⟩ := run_composing ⟨"http://host/api/"⟩
  refine ⟨_, _, h.step (.call "cancel" .cancelEdit), fun hown => ?_, rfl, rfl⟩
  obtain ⟨⟨refusal, hp⟩, -⟩ :=
    hown _ (List.mem_append_right ms (.head [])) _ _ _ _ rfl rfl Mode.noConfusion
  cases hp

end Session

end Cimi
