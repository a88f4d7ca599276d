import Cimi.Exchange
import Mathlib.Tactic.Common

/-!
# What is said in an exchange

A server may answer a request with anything.  Whatever it answers, an exchange leaves behind the
requests that were made, each with its answer, and comes to a result (`Exchange.Yields`).  Of two
exchanges, one after the other, the requests of the first one come first (`Exchange.yields_bind`).
-/

namespace Cimi

/-- A request that has been answered. -/
inductive Contact where
  | fetched (url : String) (answer : Fetched)
  | written (request : Write) (answer : Written)

/-- The request of a contact, if it writes. -/
def Contact.write? : Contact → Option Write
  | .fetched _ _ => none
  | .written request _ => some request

/-- The requests that write, in their order. -/
def writes (cs : List Contact) : List Write := cs.filterMap Contact.write?

namespace Exchange

variable {α β : Type}

/-- What an exchange makes of the answers of a server: the contacts with it, and the result. -/
inductive Yields : Exchange α → List Contact → α → Prop
  | done (x : α) : Yields (.done x) [] x
  | fetch {url : String} {next : Fetched → Exchange α} {cs : List Contact} {x : α}
    (answer : Fetched) (h : (next answer).Yields cs x) :
    Yields (.fetch url next) (.fetched url answer :: cs) x
  | write {request : Write} {next : Written → Exchange α} {cs : List Contact} {x : α}
    (answer : Written) (h : (next answer).Yields cs x) :
    Yields (.write request next) (.written request answer :: cs) x

theorem yields_done {x y : α} {cs : List Contact} :
    (done x).Yields cs y ↔ cs = [] ∧ y = x := by
  constructor
  · intro h
    cases h
    exact ⟨rfl, rfl⟩
  · rintro ⟨rfl, rfl⟩
    exact .done y

theorem yields_fetch {url : String} {next : Fetched → Exchange α} {cs : List Contact} {x : α} :
    (fetch url next).Yields cs x ↔
      ∃ answer rest, cs = .fetched url answer :: rest ∧ (next answer).Yields rest x := by
  constructor
  · intro h
    cases h with
    | fetch answer h => exact ⟨answer, _, rfl, h⟩
  · rintro ⟨answer, rest, rfl, h⟩
    exact .fetch answer h

theorem yields_write {request : Write} {next : Written → Exchange α} {cs : List Contact} {x : α} :
    (write request next).Yields cs x ↔
      ∃ answer rest, cs = .written request answer :: rest ∧ (next answer).Yields rest x := by
  constructor
  · intro h
    cases h with
    | write answer h => exact ⟨answer, _, rfl, h⟩
  · rintro ⟨answer, rest, rfl, h⟩
    exact .write answer h

theorem Yields.bind {e : Exchange α} {f : α → Exchange β} {cs cs' : List Contact} {x : α} {y : β}
    (h : e.Yields cs x) (hf : (f x).Yields cs' y) : (e.bind f).Yields (cs ++ cs') y := by
  induction h with
  | done x => exact hf
  | fetch answer _ ih => exact .fetch answer (ih hf)
  | write answer _ ih => exact .write answer (ih hf)

theorem yields_bind {e : Exchange α} {f : α → Exchange β} {cs : List Contact} {y : β} :
    (e.bind f).Yields cs y ↔
      ∃ first x rest, cs = first ++ rest ∧ e.Yields first x ∧ (f x).Yields rest y := by
  constructor
  · intro h
    induction e generalizing cs with
    | done x => exact ⟨[], x, cs, rfl, .done x, h⟩
    | fetch url next ih =>
      obtain ⟨answer, cs, rfl, hnext⟩ := yields_fetch.1 h
      obtain ⟨first, x, rest, rfl, hx, hy⟩ := ih answer hnext
      exact ⟨_, x, rest, rfl, .fetch answer hx, hy⟩
    | write request next ih =>
      obtain ⟨answer, cs, rfl, hnext⟩ := yields_write.1 h
      obtain ⟨first, x, rest, rfl, hx, hy⟩ := ih answer hnext
      exact ⟨_, x, rest, rfl, .write answer hx, hy⟩
  · rintro ⟨first, x, rest, rfl, hx, hy⟩
    exact hx.bind hy

end Exchange

end Cimi
