import Cimi.Proofs.Session.Step
import Cimi.Session.Overlap

/-!
# Runs of a session

A run is any sequence of actions on a session whose calls overlap: calls begin, answers come in for
the calls that wait, in any order and with any content, the text of the editor is changed, and
calls are given up where they wait.

What an action does to the session and to the navigations that are under way is one of three things
(`Moment.effect`): the page is kept, a navigation begins, or the page of one is shown.
-/

namespace Cimi.Session

/-- Something that happens to a session whose calls overlap. -/
inductive Action where
  | call (name : String) (c : Call)
  | fetched (name : String) (answer : Fetched)
  | written (name : String) (answer : Written)
  | setText (text : String)
  | format
  /-- A call is given up where it waits. -/
  | abandon (name : String)

/-- The state after an action, and how far the action brings the call that it is about. -/
def Overlap.act (o : Overlap) : Action → Overlap × Option Progress
  | .call name c => ((o.call name c).1, some (o.call name c).2)
  | .fetched name answer => o.fetched name answer
  | .written name answer => o.written name answer
  | .setText text => ({ o with session := o.session.setText text }, none)
  | .format => ({ o with session := o.session.format.1 }, none)
  | .abandon name => (o.drop name, none)

/-- An action of a run, with the state that it met. -/
structure Moment where
  before : Overlap
  action : Action

/-- The state after the action. -/
def Moment.after (m : Moment) : Overlap := (m.before.act m.action).1

/-- How far the action has brought the call that it is about. -/
def Moment.progress (m : Moment) : Option Progress := (m.before.act m.action).2

/-- The runs of a session that begins at a location, with the moments of each and the state that it
has come to. -/
inductive Run (b : Endpoint) (l : Location) : List Moment → Overlap → Prop
  | start : Run b l [] (.ofSession (.new b l))
  | step {ms : List Moment} {o : Overlap} (h : Run b l ms o) (a : Action) :
    Run b l (ms ++ [⟨o, a⟩]) (o.act a).1

/-- What happened before a moment of a run is a run to the state that the moment met. -/
theorem Run.until {b : Endpoint} {l : Location} {ms : List Moment} {o : Overlap}
    (h : Run b l ms o) : ∀ {past future : List Moment} {m : Moment}, ms = past ++ m :: future →
      Run b l past m.before := by
  induction h with
  | start => intro past future m he; simp at he
  | step h a ih =>
    intro past future m he
    -- The moment is the last one, or it comes before the last one.
    rcases future.eq_nil_or_concat with rfl | ⟨future, k, rfl⟩
    · obtain ⟨rfl, hm⟩ := List.append_inj' he rfl
      cases hm
      exact h
    · rw [List.concat_eq_append, ← List.cons_append, ← List.append_assoc] at he
      exact ih (List.append_inj' he rfl).1

/-! ## The calls that wait -/

/-- The name of the call that an action is about. -/
def Action.name? : Action → Option String
  | .call name _ | .fetched name _ | .written name _ | .abandon name => some name
  | .setText _ | .format => none

/-- What a call waits for. -/
def Progress.waiting? : Progress → Option Waiting
  | .ended _ => none
  | .waits w => some w

theorem lookup_drop (name n : String) :
    ∀ l : List (String × Waiting),
      (l.filter (·.1 ≠ name)).lookup n = if n = name then none else l.lookup n
  | [] => by simp
  | (k, w) :: l => by
    have ih := lookup_drop name n l
    by_cases hk : k = name
    · subst hk
      rw [List.filter_cons_of_neg (by simp), ih]
      split_ifs with hn
      · rfl
      · rw [List.lookup_cons, beq_eq_false_iff_ne.2 hn]
    · rw [List.filter_cons_of_pos (by simpa using hk), List.lookup_cons, List.lookup_cons, ih]
      rcases hnk : n == k with _ | _
      · rfl
      · have hn : n ≠ name := by rwa [eq_of_beq hnk]
        simp only [if_neg hn]

theorem Overlap.waiting?_drop (o : Overlap) (name n : String) :
    (o.drop name).waiting? n = if n = name then none else o.waiting? n :=
  lookup_drop name n o.waiting

theorem Overlap.waiting?_wait (o : Overlap) (name n : String) (s : Session) (w : Waiting) :
    (settle.wait o name s w).1.waiting? n = if n = name then some w else o.waiting? n := by
  unfold settle.wait waiting?
  rw [List.lookup_cons]
  rcases hn : n == name with _ | _
  · rw [if_neg (by simpa using hn)]
    exact (o.waiting?_drop name n).trans (if_neg (by simpa using hn))
  · rw [if_pos (eq_of_beq hn)]

/-- What a call has come to is told by its name, and no other call is touched. -/
theorem Overlap.waiting?_settle (o : Overlap) (name n : String) (s : Session) (step : Step) :
    (o.settle name s step).1.waiting? n =
      if n = name then (o.settle name s step).2.waiting? else o.waiting? n := by
  match step with
  | .next (.done r) => exact o.waiting?_drop name n
  | .next (.fetch url r) => exact o.waiting?_wait name n s _
  | .write request w => exact o.waiting?_wait name n s _

theorem Overlap.session_settle (o : Overlap) (name : String) (s : Session) (step : Step) :
    (o.settle name s step).1.session = s := by
  match step with
  | .next (.done r) => rfl
  | .next (.fetch url r) => rfl
  | .write request w => rfl

/-! ## What an action does -/

/-- The call that goes on in an action, with the session and the step to which that leads. -/
inductive Overlap.Advances (o : Overlap) : Action → String → Session → Step → Prop
  | begins (name : String) (c : Call) :
    Advances o (.call name c) name (o.session.start c).1 (o.session.start c).2
  | reads {name url : String} {r : Reading} (h : o.waiting? name = some (.reading url r))
    (answer : Fetched) :
    Advances o (.fetched name answer) name (o.session.resumeFetch r answer).1
      (.next (.done (o.session.resumeFetch r answer).2))
  | writes {name : String} {request : Write} {w : Writing}
    (h : o.waiting? name = some (.writing request w)) (answer : Written) :
    Advances o (.written name answer) name (o.session.resumeWrite w answer).1
      (.next (o.session.resumeWrite w answer).2)

/-- An action lets one call go on, or none; then the session keeps its page, and nothing new
waits. -/
theorem Overlap.act_cases (o : Overlap) (a : Action) :
    (∃ name s step, o.Advances a name s step ∧ a.name? = some name ∧
      o.act a = ((o.settle name s step).1, some (o.settle name s step).2)) ∨
    ((o.act a).2 = none ∧ o.session.Keeps (o.act a).1.session ∧
      ∀ n w, (o.act a).1.waiting? n = some w → o.waiting? n = some w) := by
  cases a with
  | call name c => exact .inl ⟨name, _, _, .begins name c, rfl, rfl⟩
  | fetched name answer =>
    rcases hw : o.waiting? name with _ | ⟨url, r⟩ | ⟨request, w⟩
    · exact .inr (by simp [act, fetched, hw, keeps_self])
    · refine .inl ⟨name, _, _, .reads hw answer, rfl, ?_⟩
      simp only [act, fetched, hw]
    · exact .inr (by simp [act, fetched, hw, keeps_self])
  | written name answer =>
    rcases hw : o.waiting? name with _ | ⟨url, r⟩ | ⟨request, w⟩
    · exact .inr (by simp [act, written, hw, keeps_self])
    · exact .inr (by simp [act, written, hw, keeps_self])
    · refine .inl ⟨name, _, _, .writes hw answer, rfl, ?_⟩
      simp only [act, written, hw]
  | setText text => exact .inr ⟨rfl, .still _ _, fun _ _ h => h⟩
  | format => exact .inr ⟨rfl, .still _ _, fun _ _ h => h⟩
  | abandon name =>
    refine .inr ⟨rfl, keeps_self _, fun n w h => ?_⟩
    rw [act, Overlap.waiting?_drop] at h
    split_ifs at h
    exact h

/-- A call that waits after an action has just come to wait, or has waited before and does not go on
in the action. -/
theorem Moment.waiting?_after {m : Moment} {n : String} {w : Waiting}
    (h : m.after.waiting? n = some w) :
    (m.action.name? = some n ∧ m.progress = some (.waits w)) ∨
      ((m.action.name? = some n → m.progress = none) ∧ m.before.waiting? n = some w) := by
  rcases m.before.act_cases m.action with ⟨name, s, step, -, hname, hact⟩ | ⟨hp, -, hw⟩
  · rw [Moment.after, hact, Overlap.waiting?_settle] at h
    split_ifs at h with hn
    · refine .inl ⟨by rw [hname, hn], ?_⟩
      rw [Moment.progress, hact]
      rcases hs : (m.before.settle name s step).2 with r | w' <;> rw [hs] at h <;> cases h
      rfl
    · refine .inr ⟨fun hn' => ?_, h⟩
      rw [hname, Option.some.injEq] at hn'
      exact absurd hn'.symm hn
  · exact .inr ⟨fun _ => hp, hw n w h⟩

/-! ## Navigations in a run -/

/-- The navigation that a moment begins: its ticket and its target. -/
def Moment.begins? (m : Moment) : Option (Ticket × Location) :=
  match m.progress with
  | some (.waits (.reading _ (.page ticket target _))) => some (ticket, target)
  | _ => none

/-- An answer that comes for a navigation. -/
structure Landing where
  ticket : Ticket
  target : Location
  purpose : Purpose
  answer : Fetched

/-- What the navigation itself ends with, whatever it is for. -/
def Landing.result (x : Landing) (s : Session) : Result :=
  (s.resumeFetch (.page x.ticket x.target .visit) x.answer).2

section

variable {x : Landing} {s : Session}

theorem Landing.result_superseded (h : s.navigator.isCurrent x.ticket = false) :
    x.result s = .ok .superseded := by
  rw [Landing.result, resumeFetch_superseded h]
  rfl

theorem Landing.result_rendered (h : s.navigator.isCurrent x.ticket = true) {p : Page}
    (hp : Service.page s.base x.target .normal x.answer = .ok p) : x.result s = .ok .rendered := by
  rw [Landing.result, resumeFetch_rendered h hp]
  rfl

theorem Landing.result_failed (h : s.navigator.isCurrent x.ticket = true) {e : Error}
    (hp : Service.page s.base x.target .normal x.answer = .error e) : x.result s = .error e := by
  rw [Landing.result, resumeFetch_failed h hp]
  rfl

end

/-- The navigation that a moment ends. -/
def Moment.lands? (m : Moment) : Option Landing :=
  match m.action with
  | .fetched name answer =>
    match m.before.waiting? name with
    | some (.reading _ (.page ticket target purpose)) => some ⟨ticket, target, purpose, answer⟩
    | _ => none
  | _ => none

/-- What an action does to the session and to the navigations. -/
inductive Moment.Effect (m : Moment) : Prop
  | keeps (h : m.before.session.Keeps m.after.session) (hb : m.begins? = none)
    (hl : ∀ x, m.lands? = some x → x.result m.before.session ≠ .ok .rendered)
  | begins {s : Session} (h : m.before.session.Keeps s) (target : Location) (purpose : Purpose)
    (hs : m.after.session = (s.visit target purpose).1)
    (hb : m.begins? = some (s.navigator.begin.2, target)) (hl : m.lands? = none)
  | renders (x : Landing) (p : Page) (hb : m.begins? = none) (hl : m.lands? = some x)
    (hc : m.before.session.navigator.isCurrent x.ticket = true)
    (hp : Service.page m.before.session.base x.target .normal x.answer = .ok p)
    (hs : m.after.session = { m.before.session with
      location := x.target, mode := .normal, page := some p, editor := ⟨p.json⟩, message := none })

theorem Moment.landing {m : Moment} {x : Landing} (h : m.lands? = some x) :
    ∃ name url, m.action = .fetched name x.answer ∧
      m.before.waiting? name = some (.reading url (.page x.ticket x.target x.purpose)) := by
  unfold Moment.lands? at h
  split at h
  · rename_i name answer ha
    split at h
    · rename_i url ticket target purpose hw
      cases h
      exact ⟨name, url, ha, hw⟩
    · cases h
  · cases h

theorem Moment.act_landing {m : Moment} {x : Landing} (h : m.lands? = some x) :
    m.after.session = (m.before.session.resumeFetch (.page x.ticket x.target .visit) x.answer).1 ∧
      m.progress = some (.ended (x.purpose.result (x.result m.before.session))) := by
  obtain ⟨name, url, ha, hw⟩ := Moment.landing h
  rw [Moment.after, Moment.progress, ha, Overlap.act, Overlap.fetched]
  simp only [hw]
  rw [resumeFetch_page, Overlap.session_settle]
  exact ⟨rfl, rfl⟩

theorem Moment.effect_of_proceeds {m : Moment} {name : String} {s : Session} {step : Step}
    (h : m.before.session.Proceeds s step) (hl : m.lands? = none)
    (hact : m.before.act m.action =
      ((m.before.settle name s step).1, some (m.before.settle name s step).2)) : m.Effect := by
  have hs : m.after.session = s := by rw [Moment.after, hact, Overlap.session_settle]
  have hp : m.progress = some (m.before.settle name s step).2 := by rw [Moment.progress, hact]
  cases h with
  | ends h r =>
    refine .keeps (hs ▸ h) ?_ (by simp [hl])
    rw [Moment.begins?, hp]
    rfl
  | visits h target purpose =>
    refine .begins h target purpose hs ?_ hl
    rw [Moment.begins?, hp]
    rfl
  | opens h url =>
    refine .keeps (hs ▸ h) ?_ (by simp [hl])
    rw [Moment.begins?, hp]
    rfl
  | sends request writing =>
    refine .keeps (hs ▸ keeps_self _) ?_ (by simp [hl])
    rw [Moment.begins?, hp]
    rfl

theorem Moment.effect_of_landing {m : Moment} {x : Landing} (h : m.lands? = some x) :
    m.Effect := by
  obtain ⟨hs, hp⟩ := Moment.act_landing h
  have hb : m.begins? = none := by rw [Moment.begins?, hp]
  have hl : x.result m.before.session ≠ .ok .rendered →
      ∀ y, m.lands? = some y → y.result m.before.session ≠ .ok .rendered := by
    rintro hr y hy
    rw [h, Option.some.injEq] at hy
    exact hy ▸ hr
  rcases hc : m.before.session.navigator.isCurrent x.ticket with _ | _
  · rw [resumeFetch_superseded hc] at hs
    exact .keeps (hs ▸ keeps_self _) hb (hl (by simp [Landing.result_superseded hc]))
  · rcases hq : Service.page m.before.session.base x.target .normal x.answer with e | p
    · rw [resumeFetch_failed hc hq] at hs
      exact .keeps (hs ▸ .moves (m := .normal) trivial (.inr (.inr rfl)) _ _) hb
        (hl (by simp [Landing.result_failed hc hq]))
    · rw [resumeFetch_rendered hc hq] at hs
      exact .renders x p hb h hc hq hs

theorem Moment.proceeds_of_advances {m : Moment} {name : String} {s : Session} {step : Step}
    (h : m.before.Advances m.action name s step) (hl : m.lands? = none) :
    m.before.session.Proceeds s step := by
  obtain ⟨o, a⟩ := m
  cases h with
  | begins name c => exact proceeds_start o.session c
  | @reads name url r hw answer =>
    cases r with
    | page t l purpose =>
      simp only [Moment.lands?] at hl
      rw [hw] at hl
      cases hl
    | editor opened => exact .ends (keeps_resumeEditor o.session opened answer) _
  | writes hw answer => exact proceeds_resumeWrite o.session _ answer

theorem Moment.effect (m : Moment) : m.Effect := by
  rcases hl : m.lands? with _ | x
  · rcases m.before.act_cases m.action with ⟨name, s, step, hadv, -, hact⟩ | ⟨hp, hk, -⟩
    · exact Moment.effect_of_proceeds (Moment.proceeds_of_advances hadv hl) hl hact
    · refine .keeps hk ?_ (by simp [hl])
      rw [Moment.begins?, Moment.progress]
      simp only [hp]
  · exact Moment.effect_of_landing hl

theorem Run.base {b : Endpoint} {l : Location} {ms : List Moment} {o : Overlap}
    (h : Run b l ms o) : o.session.base = b := by
  induction h with
  | start => rfl
  | @step ms o h a ih =>
    rcases Moment.effect ⟨o, a⟩ with ⟨hk, -, -⟩ | ⟨hk, target, purpose, hs, -, -⟩ |
      ⟨x, p, -, -, -, -, hs⟩
    · exact (keeps_base hk).trans ih
    · exact (congrArg Session.base hs).trans ((keeps_base hk).trans ih)
    · exact (congrArg Session.base hs).trans ih

end Cimi.Session
