import Cimi.Session.Basic

/-!
# Overlapping calls

Several calls of one session can wait at once, and their answers come in any order.  Each call has a
name; when its answer comes, it goes on with the session as it is by then.
-/

namespace Cimi.Session

/-- A call that waits, with the request it has sent. -/
inductive Waiting where
  | reading (url : String) (r : Reading)
  | writing (request : Write) (w : Writing)
deriving Repr

/-- How far a call has come. -/
inductive Progress where
  | ended (r : Result)
  | waits (w : Waiting)
deriving Repr

/-- A session and the calls of it that wait, each under its name. -/
structure Overlap where
  session : Session
  waiting : List (String × Waiting)

namespace Overlap

/-- A session without waiting calls. -/
def ofSession (s : Session) : Overlap := ⟨s, []⟩

/-- The call of a name, if it waits. -/
def waiting? (o : Overlap) (name : String) : Option Waiting := o.waiting.lookup name

/-- Forgets a call. -/
def drop (o : Overlap) (name : String) : Overlap :=
  { o with waiting := o.waiting.filter (·.1 ≠ name) }

/-- The state after a call has come so far that it waits or has ended. -/
def settle (o : Overlap) (name : String) (s : Session) : Step → Overlap × Progress
  | .next (.done r) => ({ o.drop name with session := s }, .ended r)
  | .next (.fetch url r) => wait (.reading url r)
  | .write request w => wait (.writing request w)
where
  wait (w : Waiting) : Overlap × Progress :=
    (⟨s, (name, w) :: (o.drop name).waiting⟩, .waits w)

/-- Begins a call; a waiting call of the same name is forgotten. -/
def call (o : Overlap) (name : String) (c : Call) : Overlap × Progress :=
  let (s, step) := o.session.start c
  o.settle name s step

/-- Hands a document to a call; nothing happens if the call does not wait for one. -/
def fetched (o : Overlap) (name : String) (answer : Fetched) : Overlap × Option Progress :=
  match o.waiting? name with
  | some (.reading _ r) =>
    let (s, result) := o.session.resumeFetch r answer
    let (o, p) := o.settle name s (.next (.done result))
    (o, some p)
  | _ => (o, none)

/-- Hands the answer to its write to a call; nothing happens if the call does not wait for one. -/
def written (o : Overlap) (name : String) (answer : Written) : Overlap × Option Progress :=
  match o.waiting? name with
  | some (.writing _ w) =>
    let (s, n) := o.session.resumeWrite w answer
    let (o, p) := o.settle name s (.next n)
    (o, some p)
  | _ => (o, none)

end Overlap

end Cimi.Session
