import Cimi.Proofs.Page.Operations
import Cimi.Proofs.Session.Run

/-!
# Navigations that overtake each other

In a run the tickets are handed out in order, and each is handed back at most once (`Ticketed`).  So
a navigation is superseded exactly if another one has begun since, and what is shown is what the
greatest ticket has brought (`InOrder`).
-/

namespace Cimi.Session

variable {b : Endpoint} {l : Location} {ms : List Moment} {o : Overlap}

/-! ## What a navigation ends with -/

section

variable {x : Landing} {s : Session}

theorem Landing.result_eq_superseded :
    x.result s = .ok .superseded ↔ s.navigator.isCurrent x.ticket = false := by
  rcases hc : s.navigator.isCurrent x.ticket with _ | _
  · simp [Landing.result_superseded hc]
  · rcases hp : Service.page s.base x.target .normal x.answer with e | p
    · simp [Landing.result_failed hc hp]
    · simp [Landing.result_rendered hc hp]

theorem Landing.session_of_result_error {e : Error} (h : x.result s = .error e) :
    (s.resumeFetch (.page x.ticket x.target .visit) x.answer).1 =
      (s.setMode .normal).setMessage e.message := by
  rcases hc : s.navigator.isCurrent x.ticket with _ | _
  · simp [Landing.result_superseded hc] at h
  · rcases hp : Service.page s.base x.target .normal x.answer with e' | p
    · rw [Landing.result_failed hc hp, Except.error.injEq] at h
      rw [resumeFetch_failed hc hp, h]
    · simp [Landing.result_rendered hc hp] at h

end

/-- A moment that ends a navigation which is not superseded. -/
def Moment.Applies (m : Moment) (x : Landing) : Prop :=
  m.lands? = some x ∧ x.result m.before.session ≠ .ok .superseded

/-- A moment that shows the page of a navigation. -/
def Moment.Renders (m : Moment) (x : Landing) : Prop :=
  m.lands? = some x ∧ x.result m.before.session = .ok .rendered

/-! ## Tickets -/

/-- The numbers of the tickets that are handed out, in order. -/
def ticketNumbers (ms : List Moment) : List Nat :=
  ms.filterMap fun m => m.begins?.map (·.1.number)

/-- A call that waits for the document of a navigation. -/
def Overlap.Awaits (o : Overlap) (name : String) (t : Ticket) (target : Location) : Prop :=
  ∃ url purpose, o.waiting? name = some (.reading url (.page t target purpose))

/-- Tickets are handed out in order; the navigations that wait have begun, have not been answered,
and have tickets of their own. -/
structure Ticketed (ms : List Moment) (o : Overlap) : Prop where
  handedOut : ticketNumbers ms = List.range' 1 o.session.navigator.newest
  begun : ∀ name t target, o.Awaits name t target → ∃ k ∈ ms, k.begins? = some (t, target)
  unanswered : ∀ name t target, o.Awaits name t target →
    ∀ k ∈ ms, ∀ x, k.lands? = some x → x.ticket ≠ t
  apart : ∀ name name' t target target', o.Awaits name t target → o.Awaits name' t target' →
    name = name'
  answered : ∀ k ∈ ms, ∀ x, k.lands? = some x →
    x.ticket.number ≤ o.session.navigator.newest

theorem Moment.newest_after (m : Moment) :
    (m.begins? = none ∧ m.after.session.navigator = m.before.session.navigator) ∨
      (m.lands? = none ∧ ∃ target,
        m.begins? = some (⟨m.before.session.navigator.newest + 1⟩, target) ∧
        m.after.session.navigator = ⟨m.before.session.navigator.newest + 1⟩) := by
  rcases m.effect with ⟨h, hb, -⟩ | ⟨h, target, purpose, hs, hb, hl⟩ | ⟨x, p, hb, -, -, -, hs⟩
  · exact .inl ⟨hb, keeps_navigator h⟩
  · refine .inr ⟨hl, target, ?_, ?_⟩
    · rw [hb, keeps_navigator h]
      rfl
    · rw [hs, ← keeps_navigator h]
      rfl
  · exact .inl ⟨hb, by rw [hs]⟩

/-- A navigation that waits after an action begins in it, or has waited before and is not ended. -/
theorem Moment.awaits_after {m : Moment} {name : String} {t : Ticket} {target : Location}
    (h : m.after.Awaits name t target) :
    (m.action.name? = some name ∧ m.begins? = some (t, target)) ∨
      (m.before.Awaits name t target ∧ ∀ x, m.lands? = some x → m.action.name? ≠ some name) := by
  obtain ⟨url, purpose, hw⟩ := h
  rcases Moment.waiting?_after hw with ⟨hn, hp⟩ | ⟨hn, hw⟩
  · exact .inl ⟨hn, by rw [Moment.begins?, hp]⟩
  · refine .inr ⟨⟨url, purpose, hw⟩, fun x hx hname => ?_⟩
    have hp := (Moment.act_landing hx).2
    rw [hn hname] at hp
    cases hp

theorem Moment.awaits_of_lands {m : Moment} {x : Landing} (h : m.lands? = some x) :
    ∃ name, m.action.name? = some name ∧ m.before.Awaits name x.ticket x.target := by
  obtain ⟨name, url, ha, hw⟩ := Moment.landing h
  exact ⟨name, by rw [ha]; rfl, url, x.purpose, hw⟩

theorem ticketNumbers_append (ms ks : List Moment) :
    ticketNumbers (ms ++ ks) = ticketNumbers ms ++ ticketNumbers ks :=
  List.filterMap_append

theorem ticketNumbers_singleton (m : Moment) :
    ticketNumbers [m] = (m.begins?.map (·.1.number)).toList := by
  simp only [ticketNumbers, List.filterMap_cons, List.filterMap_nil]
  rcases m.begins?.map (·.1.number) with _ | n <;> rfl

theorem mem_ticketNumbers {k : Moment} {t : Ticket} {target : Location} (hk : k ∈ ms)
    (hb : k.begins? = some (t, target)) : t.number ∈ ticketNumbers ms :=
  List.mem_filterMap.2 ⟨k, hk, by rw [hb]; rfl⟩

theorem Ticketed.number_le (h : Ticketed ms o) {k : Moment} {t : Ticket} {target : Location}
    (hk : k ∈ ms) (hb : k.begins? = some (t, target)) :
    t.number ≤ o.session.navigator.newest := by
  have := mem_ticketNumbers hk hb
  rw [h.handedOut, List.mem_range'_1] at this
  omega

theorem Ticketed.number_le_of_awaits (h : Ticketed ms o) {name : String} {t : Ticket}
    {target : Location} (ha : o.Awaits name t target) :
    t.number ≤ o.session.navigator.newest := by
  obtain ⟨k, hk, hb⟩ := h.begun name t target ha
  exact h.number_le hk hb

theorem ticketed_start : Ticketed [] (.ofSession (.new b l)) where
  handedOut := rfl
  begun := fun name t target ⟨url, purpose, hw⟩ => by cases hw
  unanswered := fun name t target ⟨url, purpose, hw⟩ => by cases hw
  apart := fun name name' t target target' ⟨url, purpose, hw⟩ => by cases hw
  answered := fun k hk => by cases hk

theorem Ticketed.step {m : Moment} (h : Ticketed ms m.before) : Ticketed (ms ++ [m]) m.after := by
  have hnew : m.before.session.navigator.newest ≤ m.after.session.navigator.newest := by
    rcases m.newest_after with ⟨-, hn⟩ | ⟨-, target, -, hn⟩
    · exact Nat.le_of_eq (congrArg Navigator.newest hn.symm)
    · rw [hn]
      exact Nat.le_succ _
  -- A ticket that has just been handed out is greater than those of all answers so far.
  have hfresh : ∀ t target, m.begins? = some (t, target) →
      m.lands? = none ∧ t.number = m.before.session.navigator.newest + 1 := by
    intro t target hb
    rcases m.newest_after with ⟨hn, -⟩ | ⟨hl, target', hb', -⟩
    · rw [hn] at hb
      cases hb
    · rw [hb', Option.some.injEq, Prod.mk.injEq] at hb
      exact ⟨hl, hb.1 ▸ rfl⟩
  constructor
  · rw [ticketNumbers_append, ticketNumbers_singleton, h.handedOut]
    rcases m.newest_after with ⟨hb, hn⟩ | ⟨-, target, hb, hn⟩
    · rw [hb, hn]
      exact List.append_nil _
    · rw [hb, hn, List.range'_1_concat, Nat.add_comm 1]
      rfl
  · intro name t target ha
    rcases Moment.awaits_after ha with ⟨-, hb⟩ | ⟨ha, -⟩
    · exact ⟨m, by simp, hb⟩
    · obtain ⟨k, hk, hb⟩ := h.begun name t target ha
      exact ⟨k, by simp [hk], hb⟩
  · intro name t target ha k hk x hx
    rw [List.mem_append, List.mem_singleton] at hk
    rcases Moment.awaits_after ha with ⟨-, hb⟩ | ⟨ha, hends⟩
    · obtain ⟨hl, ht⟩ := hfresh t target hb
      rcases hk with hk | rfl
      · rintro rfl
        have := h.answered k hk x hx
        omega
      · rw [hl] at hx
        cases hx
    · rcases hk with hk | rfl
      · exact h.unanswered name t target ha k hk x hx
      · rintro rfl
        obtain ⟨name', hname', ha'⟩ := Moment.awaits_of_lands hx
        rw [h.apart name name' _ _ _ ha ha'] at hends
        exact hends x hx hname'
  · intro name name' t target target' ha ha'
    rcases Moment.awaits_after ha with ⟨hn, hb⟩ | ⟨ha, -⟩ <;>
      rcases Moment.awaits_after ha' with ⟨hn', hb'⟩ | ⟨ha', -⟩
    · rw [hn, Option.some.injEq] at hn'
      exact hn'
    · have := (hfresh t target hb).2
      have := h.number_le_of_awaits ha'
      omega
    · have := (hfresh t target' hb').2
      have := h.number_le_of_awaits ha
      omega
    · exact h.apart name name' t target target' ha ha'
  · intro k hk x hx
    rw [List.mem_append, List.mem_singleton] at hk
    rcases hk with hk | rfl
    · exact Nat.le_trans (h.answered k hk x hx) hnew
    · obtain ⟨name, -, ha⟩ := Moment.awaits_of_lands hx
      exact Nat.le_trans (h.number_le_of_awaits ha) hnew

theorem Run.ticketed (h : Run b l ms o) : Ticketed ms o := by
  induction h with
  | start => exact ticketed_start
  | step h a ih => exact Ticketed.step (m := ⟨_, a⟩) ih

/-! ## What overtakes a navigation -/

/-- The newest ticket is one of those handed out exactly if none has been handed out after it. -/
theorem newest_eq_iff {xs ys : List Nat} {t n : Nat} (h : xs ++ t :: ys = List.range' 1 n) :
    n = t ↔ ys = [] := by
  have hlen := congrArg List.length h
  have hget := congrArg (·[xs.length]?) h
  simp only [List.length_append, List.length_cons, List.length_range'] at hlen
  rw [List.getElem?_append_right (Nat.le_refl _), Nat.sub_self, List.getElem?_cons_zero,
    List.getElem?_range' (by omega), Option.some.injEq] at hget
  rw [← List.length_eq_zero_iff]
  omega

theorem ticketNumbers_eq_nil : ticketNumbers ms = [] ↔ ¬∃ k ∈ ms, k.begins?.isSome := by
  simp [ticketNumbers, List.filterMap_eq_nil_iff]

theorem Ticketed.superseded_iff {m : Moment} (h : Ticketed ms m.before) {x : Landing}
    (hx : m.lands? = some x) :
    ∃ early k late, ms = early ++ k :: late ∧ k.begins? = some (x.ticket, x.target) ∧
      (x.result m.before.session = .ok .superseded ↔ ∃ k' ∈ late, k'.begins?.isSome) := by
  obtain ⟨name, -, ha⟩ := Moment.awaits_of_lands hx
  obtain ⟨k, hk, hb⟩ := h.begun name x.ticket x.target ha
  obtain ⟨early, late, rfl⟩ := List.append_of_mem hk
  refine ⟨early, k, late, rfl, hb, ?_⟩
  have hnumbers : ticketNumbers early ++ x.ticket.number :: ticketNumbers late =
      List.range' 1 m.before.session.navigator.newest := by
    rw [← h.handedOut, ticketNumbers_append, List.append_cancel_left_eq, ← List.singleton_append,
      ← List.singleton_append (l := late), ticketNumbers_append, ticketNumbers_singleton, hb]
    rfl
  rw [Landing.result_eq_superseded, Navigator.isCurrent, decide_eq_false_iff_not,
    newest_eq_iff hnumbers, ticketNumbers_eq_nil, not_not]

/-! ## What is shown -/

/-- Before the first page of a navigation nothing is shown, and the location is the first one; then
the page and the location are those of the greatest ticket that has brought a page. -/
def ShowsNewest (b : Endpoint) (l : Location) (ms : List Moment) (s : Session) : Prop :=
  ((∀ m ∈ ms, ∀ x, ¬m.Renders x) ∧ s.location = l ∧ s.page = none) ∨
    ∃ m ∈ ms, ∃ x p, m.Renders x ∧
      (∀ k ∈ ms, ∀ y, k.Renders y → y.ticket.number ≤ x.ticket.number) ∧
      Service.page b x.target .normal x.answer = .ok p ∧ s.location = x.target ∧
      s.page = some { p with mode := s.mode }

theorem ShowsNewest.keeps {s s' : Session} {m : Moment} (h : ShowsNewest b l ms s)
    (hk : s.Keeps s') (hm : ∀ x, ¬m.Renders x) : ShowsNewest b l (ms ++ [m]) s' := by
  rcases h with ⟨hnone, hl, hp⟩ | ⟨k, hk', x, p, hx, hmax, hp, hl, hs⟩
  · refine .inl ⟨?_, (keeps_location hk).trans hl, keeps_page_none hk hp⟩
    rintro k hk' x hx
    rw [List.mem_append, List.mem_singleton] at hk'
    rcases hk' with hk' | rfl
    · exact hnone k hk' x hx
    · exact hm x hx
  · refine .inr ⟨k, by simp [hk'], x, p, hx, ?_, hp, (keeps_location hk).trans hl,
      keeps_page_some hk hs⟩
    rintro k hk' y hy
    rw [List.mem_append, List.mem_singleton] at hk'
    rcases hk' with hk' | rfl
    · exact hmax k hk' y hy
    · exact absurd hy (hm y)

theorem ShowsNewest.step {m : Moment} (h : ShowsNewest b l ms m.before.session)
    (hb : m.before.session.base = b) (ht : Ticketed ms m.before) :
    ShowsNewest b l (ms ++ [m]) m.after.session := by
  rcases m.effect with ⟨hk, -, hl⟩ | ⟨hk, target, purpose, hs, -, hl⟩ | ⟨x, p, -, hl, hc, hp, hs⟩
  · exact h.keeps hk fun x hx => hl x hx.1 hx.2
  · have := h.keeps (m := m) hk fun x hx => by
      rw [Moment.Renders, hl] at hx
      cases hx.1
    rw [hs]
    exact this
  · have hx : m.Renders x := ⟨hl, Landing.result_rendered hc hp⟩
    refine .inr ⟨m, by simp, x, p, hx, ?_, hb ▸ hp, by rw [hs], ?_⟩
    · intro k hk y hy
      rw [List.mem_append, List.mem_singleton] at hk
      rcases hk with hk | rfl
      · rw [← of_decide_eq_true hc]
        exact ht.answered k hk y hy.1
      · rw [Moment.Renders, hl, Option.some.injEq] at hy
        exact hy.1 ▸ Nat.le_refl _
    · rw [hs, ← Service.mode_page hp]

theorem Run.showsNewest (h : Run b l ms o) : ShowsNewest b l ms o.session := by
  induction h with
  | start => exact .inl ⟨by simp, rfl, rfl⟩
  | step h a ih => exact ih.step (m := ⟨_, a⟩) h.base h.ticketed

/-! ## The order of navigations -/

/-- How navigations of a run stand to each other, when calls of all kinds begin them and their
answers come in any order. -/
structure InOrder (b : Endpoint) (l : Location) (ms : List Moment) (s : Session) : Prop where
  /-- Tickets are handed out one after another. -/
  handedOut : ticketNumbers ms = List.range' 1 s.navigator.newest
  /-- An answer ends the navigation that it is for, which is superseded exactly if another one has
  begun since. -/
  superseded : ∀ past m future x, ms = past ++ m :: future → m.lands? = some x →
    m.progress = some (.ended (x.purpose.result (x.result m.before.session))) ∧
    ∃ early k late, past = early ++ k :: late ∧ k.begins? = some (x.ticket, x.target) ∧
      (x.result m.before.session = .ok .superseded ↔ ∃ k' ∈ late, k'.begins?.isSome)
  /-- A superseded navigation leaves the session as it is. -/
  discarded : ∀ m ∈ ms, ∀ x, m.lands? = some x →
    x.result m.before.session = .ok .superseded → m.after.session = m.before.session
  /-- The answers that count come in the order of the tickets. -/
  increasing : ms.Pairwise fun k m => ∀ x y, k.Applies x → m.Applies y →
    x.ticket.number < y.ticket.number
  shown : ShowsNewest b l ms s
  /-- A navigation that fails, and is not superseded, changes the mode and the message. -/
  failed : ∀ m ∈ ms, ∀ x e, m.lands? = some x → x.result m.before.session = .error e →
    m.after.session = { m.before.session with
      mode := .normal, page := m.before.session.page.map ({ · with mode := .normal }),
      message := some e.message }

theorem Ticketed.lt_of_applies {m k : Moment} (h : Ticketed ms m.before) {x y : Landing}
    (hk : k ∈ ms) (hx : k.lands? = some x) (hy : m.Applies y) :
    x.ticket.number < y.ticket.number := by
  have hc : m.before.session.navigator.isCurrent y.ticket = true := by
    simpa [Landing.result_eq_superseded] using hy.2
  have hle := h.answered k hk x hx
  rw [of_decide_eq_true hc] at hle
  refine Nat.lt_of_le_of_ne hle fun he => ?_
  obtain ⟨name, -, ha⟩ := Moment.awaits_of_lands hy.1
  exact h.unanswered name y.ticket y.target ha k hk x hx (congrArg Ticket.mk he)

theorem Run.inOrder (h : Run b l ms o) : InOrder b l ms o.session where
  handedOut := h.ticketed.handedOut
  superseded past m future x hms hx :=
    ⟨(Moment.act_landing hx).2, (h.until hms).ticketed.superseded_iff hx⟩
  discarded m hm x hx hr := by
    rw [(Moment.act_landing hx).1, resumeFetch_superseded (Landing.result_eq_superseded.1 hr)]
  increasing := by
    induction h with
    | start => exact .nil
    | step h a ih =>
      rw [List.pairwise_append]
      refine ⟨ih, List.pairwise_singleton _ _, fun k hk m hm x y hx hy => ?_⟩
      rw [List.mem_singleton] at hm
      subst hm
      exact h.ticketed.lt_of_applies hk hx.1 hy
  shown := h.showsNewest
  failed m hm x e hx hr := by
    rw [(Moment.act_landing hx).1, Landing.session_of_result_error hr]
    rfl

/-- A navigation that is overtaken before its answer comes is superseded, and the page of the other
one is shown. -/
theorem inOrder_overtaken :
    ∃ ms o, Run ⟨"http://host/api/"⟩ ⟨"page", .root, .fragment⟩ ms o ∧
      InOrder ⟨"http://host/api/"⟩ ⟨"page", .root, .fragment⟩ ms o.session ∧
      ms[2]?.bind Moment.progress = some (.ended (.ok .superseded)) ∧
      ms[3]?.bind Moment.progress = some (.ended (.ok .rendered)) ∧
      o.session.location.reference = ⟨"disk/2"⟩ := by
  have h := (Run.start (b := ⟨"http://host/api/"⟩) (l := ⟨"page", .root, .fragment⟩)).step
    (.call "first" (.navigate ⟨"page", ⟨"disk/1"⟩, .fragment⟩))
    |>.step (.call "second" (.navigate ⟨"page", ⟨"disk/2"⟩, .fragment⟩))
    |>.step (.fetched "first" (.ok (.object [("resourceURI", .string "Disk")])))
    |>.step (.fetched "second" (.ok (.object [("resourceURI", .string "Disk")])))
  exact ⟨_, _, h, h.inOrder, rfl, rfl, rfl⟩

end Cimi.Session
