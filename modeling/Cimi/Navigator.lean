/-!
# Tickets for navigations

Every navigation takes a ticket, and only the newest ticket is current: an answer that comes after
a newer navigation has begun is known by its ticket and dropped.
-/

namespace Cimi

/-- The number of a navigation. -/
structure Ticket where
  number : Nat
deriving DecidableEq, Repr

/-- Hands out tickets. -/
structure Navigator where
  newest : Nat
deriving DecidableEq, Repr

namespace Navigator

/-- No ticket has been handed out. -/
def new : Navigator := ⟨0⟩

/-- Hands out a ticket, greater than all before it. -/
def begin (n : Navigator) : Navigator × Ticket := (⟨n.newest + 1⟩, ⟨n.newest + 1⟩)

/-- Whether no newer ticket has been handed out. -/
def isCurrent (n : Navigator) (t : Ticket) : Bool := n.newest = t.number

end Navigator

end Cimi
