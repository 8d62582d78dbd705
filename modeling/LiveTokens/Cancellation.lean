import LiveTokens.Waiters

/-!
# Cancellation

Every update hands out a ticket and cancels all tickets of earlier updates. A ticket is alive as
long as its generation is the newest one, and there is no way back.
-/

namespace LiveTokens

/-- Permission to go on, until the next update. -/
structure Ticket where
  generation : Nat
deriving DecidableEq, Repr

/-- The number of updates so far, and those who wait for the next one. -/
structure Cancellation where
  generation : Nat := 0
  waiters : Waiters := {}
deriving DecidableEq, Repr

namespace Cancellation

/-- The ticket of the newest generation, without cancelling anything. -/
def current (cancellation : Cancellation) : Ticket :=
  ⟨cancellation.generation⟩

/-- Cancels every ticket handed out so far and gives a new one. -/
def supersede (cancellation : Cancellation) : Ticket × Cancellation :=
  let generation := cancellation.generation + 1
  (⟨generation⟩, ⟨generation, cancellation.waiters.wakeAll⟩)

/-- An update has come after this ticket. -/
def isCancelled (cancellation : Cancellation) (ticket : Ticket) : Bool :=
  cancellation.generation != ticket.generation

/-- Asks whether a ticket is cancelled. If it is not, the waker will be woken by the next update.
One look is enough: a second look behind the enrolment is for an update that came between the two,
and here nothing comes between them, so that it would find what the first look has found. -/
def poll (cancellation : Cancellation) (ticket : Ticket) (waker : Nat) : Bool × Cancellation :=
  if cancellation.isCancelled ticket then
    (true, cancellation)
  else
    (false, { cancellation with waiters := cancellation.waiters.enrol waker })

/-- A description for people. -/
def describe (cancellation : Cancellation) : String :=
  s!"Cancellation \x7b generation: {cancellation.generation} \x7d"

/-- A description of a ticket for people. -/
def describeTicket (cancellation : Cancellation) (ticket : Ticket) : String :=
  s!"CancellationToken \x7b generation: {ticket.generation}, " ++
    s!"cancelled: {cancellation.isCancelled ticket} \x7d"

end Cancellation

end LiveTokens
