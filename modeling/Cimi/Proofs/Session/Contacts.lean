import Cimi.Proofs.Exchange
import Cimi.Proofs.Session.Shown
import Cimi.Proofs.Session.Writes

/-!
# The contacts of a call

A call that is made from its beginning to its end makes no contact, or one or two: it fetches, or it
writes, or it writes and then fetches what is to be shown (`Ends`).  What it writes is what it sends
as it begins (`writes_of_run`).

Calls that follow each other are a run in which no call waits when another one begins
(`Run.call_ends`).
-/

namespace Cimi.Session

variable {b : Endpoint} {l : Location} {ms : List Moment} {s s' s₁ s₂ : Session} {c : Call}
  {cs : List Contact} {r : Result} {reading : Reading} {w : Writing} {answer : Fetched}

/-- How a call comes to its end, with its contacts and the session that it leaves behind. -/
inductive Ends (s : Session) (c : Call) : List Contact → Session → Result → Prop
  | unasked {s' : Session} {r : Result} (h : s.start c = (s', .next (.done r))) : Ends s c [] s' r
  | fetched {s₁ s' : Session} {r : Result} {url : String} {reading : Reading} {answer : Fetched}
    (h : s.start c = (s₁, .next (.fetch url reading)))
    (hr : s₁.resumeFetch reading answer = (s', r)) : Ends s c [.fetched url answer] s' r
  | written {s₁ s' : Session} {r : Result} {request : Write} {w : Writing} {answer : Written}
    (h : s.start c = (s₁, .write request w)) (hw : s₁.resumeWrite w answer = (s', .done r)) :
    Ends s c [.written request answer] s' r
  | followed {s₁ s₂ s' : Session} {r : Result} {request : Write} {w : Writing} {answer : Written}
    {url : String} {reading : Reading} {shown : Fetched} (h : s.start c = (s₁, .write request w))
    (hw : s₁.resumeWrite w answer = (s₂, .fetch url reading))
    (hr : s₂.resumeFetch reading shown = (s', r)) :
    Ends s c [.written request answer, .fetched url shown] s' r

theorem ends_of_run (h : (s.run c).Yields cs (s', r)) : s.Ends c cs s' r := by
  rcases hstart : s.start c with ⟨s₁, (r₁ | ⟨url, reading⟩) | ⟨request, w⟩⟩
  · rw [run_done hstart, Exchange.yields_done] at h
    obtain ⟨rfl, hr⟩ := h
    cases hr
    exact .unasked hstart
  · rw [run_fetch hstart, Exchange.yields_fetch] at h
    obtain ⟨answer, rest, rfl, h⟩ := h
    obtain ⟨rfl, hr⟩ := Exchange.yields_done.1 h
    exact .fetched hstart hr.symm
  · rw [run_write hstart, Exchange.yields_write] at h
    obtain ⟨answer, rest, rfl, h⟩ := h
    unfold resumed at h
    rcases hw : s₁.resumeWrite w answer with ⟨s₂, r₂ | ⟨url, reading⟩⟩ <;> rw [hw] at h
    · obtain ⟨rfl, hr⟩ := Exchange.yields_done.1 h
      cases hr
      exact .written hstart hw
    · obtain ⟨shown, rest, rfl, hshown⟩ := Exchange.yields_fetch.1 h
      obtain ⟨rfl, hr⟩ := Exchange.yields_done.1 hshown
      exact .followed hstart hw hr.symm

/-- A call that is made writes what it sends as it begins, and nothing more. -/
theorem writes_of_run (h : (s.run c).Yields cs (s', r)) :
    writes cs = (s.start c).2.write?.toList := by
  cases ends_of_run h with
  | unasked hstart => rw [hstart]; rfl
  | fetched hstart hr => rw [hstart]; rfl
  | written hstart hw => rw [hstart]; rfl
  | followed hstart hw hr => rw [hstart]; rfl

/-! ## What is kept -/

theorem Proceeds.base {step : Step} (h : s.Proceeds s' step) : s'.base = s.base := by
  cases h with
  | ends h => exact keeps_base h
  | visits h =>
    have := keeps_base h
    exact this
  | opens h => exact keeps_base h
  | sends => rfl

theorem Proceeds.location {step : Step} (h : s.Proceeds s' step) : s'.location = s.location := by
  cases h with
  | ends h => exact keeps_location h
  | visits h =>
    have := keeps_location h
    exact this
  | opens h => exact keeps_location h
  | sends => rfl

theorem Proceeds.mode {step : Step} (h : s.Proceeds s' step) : s.mode.Turns s'.mode := by
  cases h with
  | ends h => exact keeps_mode h
  | visits h =>
    have := keeps_mode h
    exact this
  | opens h => exact keeps_mode h
  | sends => exact .inl rfl

theorem proceeds_of_start {step : Step} (h : s.start c = (s', step)) : s.Proceeds s' step := by
  have := proceeds_start s c
  rwa [h] at this

theorem proceeds_of_resumeWrite {answer : Written} {n : Next}
    (h : s.resumeWrite w answer = (s', n)) : s.Proceeds s' (.next n) := by
  have := proceeds_resumeWrite s w answer
  rwa [h] at this

theorem base_of_resumeFetch (h : s.resumeFetch reading answer = (s', r)) : s'.base = s.base := by
  obtain rfl : (s.resumeFetch reading answer).1 = s' := congrArg Prod.fst h
  cases reading with
  | page t target purpose =>
    rcases hc : s.navigator.isCurrent t with _ | _
    · rw [resumeFetch_superseded hc]
    · rcases hp : Service.page s.base target .normal answer with e | p
      · rw [resumeFetch_failed hc hp]
        rfl
      · rw [resumeFetch_rendered hc hp]
  | editor opened => exact keeps_base (keeps_resumeEditor s opened answer)

theorem base_of_run (h : (s.run c).Yields cs (s', r)) : s'.base = s.base := by
  cases ends_of_run h with
  | unasked hstart => exact (proceeds_of_start hstart).base
  | fetched hstart hr => rw [base_of_resumeFetch hr, (proceeds_of_start hstart).base]
  | written hstart hw =>
    rw [(proceeds_of_resumeWrite hw).base, (proceeds_of_start hstart).base]
  | followed hstart hw hr =>
    rw [base_of_resumeFetch hr, (proceeds_of_resumeWrite hw).base, (proceeds_of_start hstart).base]

/-! ## Calls in a run -/

theorem act_call {step : Step} (h : s.start c = (s₁, step)) (name : String) :
    ((Overlap.ofSession s).act (.call name c)).1 =
      ((Overlap.ofSession s).settle name s₁ step).1 := by
  simp only [Overlap.act, Overlap.call, Overlap.ofSession, h]

theorem act_fetched {name url : String} (hr : s₁.resumeFetch reading answer = (s', r)) :
    (Overlap.act ⟨s₁, [(name, .reading url reading)]⟩ (.fetched name answer)).1 =
      .ofSession s' := by
  simp [Overlap.act, Overlap.fetched, Overlap.waiting?, Overlap.settle, Overlap.drop,
    Overlap.ofSession, hr]

theorem act_written {name : String} {request : Write} {answer : Written} {n : Next}
    (hw : s₁.resumeWrite w answer = (s', n)) :
    (Overlap.act ⟨s₁, [(name, .writing request w)]⟩ (.written name answer)).1 =
      match n with
      | .done _ => .ofSession s'
      | .fetch url reading => ⟨s', [(name, .reading url reading)]⟩ := by
  cases n <;>
    simp [Overlap.act, Overlap.written, Overlap.waiting?, Overlap.settle, Overlap.settle.wait,
      Overlap.drop, Overlap.ofSession, hw]

/-- A call that is made from its beginning to its end goes on with a run. -/
theorem Run.call_ends (h : Run b l ms (.ofSession s)) (hy : (s.run c).Yields cs (s', r)) :
    ∃ ms', Run b l ms' (.ofSession s') := by
  have hcall := h.step (.call "call" c)
  cases ends_of_run hy with
  | unasked hstart =>
    rw [act_call hstart] at hcall
    exact ⟨_, hcall⟩
  | @fetched s₁ _ _ url reading answer hstart hr =>
    rw [act_call hstart] at hcall
    have hfetched := hcall.step (.fetched "call" answer)
    exact ⟨_, act_fetched hr ▸ hfetched⟩
  | @written s₁ _ _ request w answer hstart hw =>
    rw [act_call hstart] at hcall
    have hwritten := hcall.step (.written "call" answer)
    exact ⟨_, act_written hw ▸ hwritten⟩
  | @followed s₁ s₂ _ _ request w answer url reading shown hstart hw hr =>
    rw [act_call hstart] at hcall
    have hwritten := hcall.step (.written "call" answer)
    have hfetched := (act_written hw ▸ hwritten : Run _ _ _ _).step (.fetched "call" shown)
    exact ⟨_, act_fetched hr ▸ hfetched⟩

end Cimi.Session
