import Mathlib.Data.List.Induction
import LiveTokens.Cancellation
import LiveTokens.Proofs.Waking

/-!
# Tickets that have been superseded

Tickets are handed out, copied and polled in any order, while updates come in between.
A ticket and all its copies are cancelled exactly if there has been an update since the
ticket was issued.  As updates are never taken back, a cancelled ticket stays cancelled,
and the tickets that are alive are all of the newest generation.

Updates are the notifications of those who wait.  A poll is left pending exactly if its
ticket is alive.

**Results.**  `cancelled_iff_superseded`.
-/

namespace LiveTokens

namespace Cancellation

section Operations

/-- What is done with tickets.  They are numbered in the order in which they were handed out. -/
inductive Operation where
  | supersede
  | current
  | clone (index : Nat)
  | poll (index waker : Nat)
deriving DecidableEq, Repr

/-- A ticket, and the number of operations by the time it was issued.  Its copies were issued when
it was. -/
structure Issue where
  ticket : Ticket
  time : Nat
deriving DecidableEq, Repr

/-- The tickets that have been handed out, the first one first, the number of operations, and what
has mattered to those who wait, the newest event first. -/
structure Run where
  cancellation : Cancellation := {}
  issues : List Issue := []
  clock : Nat := 0
  events : List Waiters.Event := []

namespace Run

def perform
    (run : Run) : Operation → Run
  | .supersede =>
    { cancellation := run.cancellation.supersede.2
      issues := run.issues ++ [⟨run.cancellation.supersede.1, run.clock + 1⟩]
      clock := run.clock + 1
      events := .notified :: run.events }
  | .current =>
    { run with
      issues := run.issues ++ [⟨run.cancellation.current, run.clock + 1⟩]
      clock := run.clock + 1 }
  | .clone index =>
    { run with
      issues := run.issues ++ run.issues[index]?.toList
      clock := run.clock + 1 }
  | .poll index waker =>
    match run.issues[index]? with
    | none => { run with clock := run.clock + 1 }
    | some issue =>
      match run.cancellation.poll issue.ticket waker with
      | (true, cancellation) =>
        { run with cancellation := cancellation, clock := run.clock + 1 }
      | (false, cancellation) =>
        { run with
          cancellation := cancellation
          clock := run.clock + 1
          events := .pending waker :: run.events }

/-- All that comes of some operations, the first one first. -/
def after
    (operations : List Operation) : Run :=
  operations.foldl perform {}

theorem after_concat
    (operations : List Operation)
    (operation : Operation) :
    after (operations ++ [operation]) = (after operations).perform operation := by
  rw [after, List.foldl_append]
  rfl

end Run

end Operations

variable {cancellation : Cancellation}
variable {ticket : Ticket}
variable {waker : Nat}
variable {operations : List Operation}
variable {issue : Issue}

theorem poll_of_cancelled
    (h : cancellation.isCancelled ticket = true) :
    cancellation.poll ticket waker = (true, cancellation) := by
  rw [poll, if_pos h]

theorem poll_of_alive
    (h : cancellation.isCancelled ticket = false) :
    cancellation.poll ticket waker =
      (false, { cancellation with waiters := cancellation.waiters.enrol waker }) := by
  rw [poll, if_neg (by rw [h]; exact Bool.false_ne_true)]

/-- Asking for a ticket's future tells whether the ticket is cancelled. -/
theorem poll_eq_isCancelled
    (cancellation : Cancellation)
    (ticket : Ticket)
    (waker : Nat) :
    (cancellation.poll ticket waker).1 = cancellation.isCancelled ticket := by
  cases h : cancellation.isCancelled ticket with
  | true => rw [poll_of_cancelled h]
  | false => rw [poll_of_alive h]

section Dated

/-- The ticket counts the updates by the time it was issued. -/
structure Issue.Dated
    (operations : List Operation)
    (issue : Issue) : Prop where
  time_le : issue.time ≤ operations.length
  generation_eq : issue.ticket.generation = (operations.take issue.time).count .supersede

namespace Issue.Dated

theorem append
    (h : issue.Dated operations)
    (later : List Operation) :
    issue.Dated (operations ++ later) where
  time_le := by
    rw [List.length_append]
    exact Nat.le_add_right_of_le h.time_le
  generation_eq := by
    rw [h.generation_eq, List.take_append_of_le_length h.time_le]

/-- A ticket of the newest generation can be issued now. -/
theorem now
    (hgeneration : ticket.generation = operations.count .supersede) :
    Dated operations ⟨ticket, operations.length⟩ where
  time_le := Nat.le_refl _
  generation_eq := by
    rw [hgeneration, List.take_length]

theorem generation_add_count
    (h : issue.Dated operations) :
    issue.ticket.generation + (operations.drop issue.time).count .supersede =
      operations.count .supersede := by
  rw [h.generation_eq, ← List.count_append, List.take_append_drop]

end Issue.Dated

end Dated

section Recorded

/-- The generation counts the updates, all tickets are dated, and the waiters are those of the
events. -/
structure Recorded
    (operations : List Operation)
    (run : Run) : Prop where
  clock_eq : run.clock = operations.length
  generation_eq : run.cancellation.generation = operations.count .supersede
  dated : ∀ issue ∈ run.issues, issue.Dated operations
  records : run.cancellation.waiters.Records run.events

namespace Recorded

variable {run : Run}

theorem started :
    Recorded [] {} where
  clock_eq := rfl
  generation_eq := rfl
  dated _ hmem := absurd hmem List.not_mem_nil
  records := .started

/-- Tickets stay dated, whatever is done next. -/
theorem dated_concat
    (h : Recorded operations run)
    {operation : Operation}
    {issues : List Issue}
    (hissues : ∀ issue ∈ issues, issue ∈ run.issues ∨ issue.Dated (operations ++ [operation])) :
    ∀ issue ∈ issues, issue.Dated (operations ++ [operation]) := by
  intro issue hmem
  rcases hissues issue hmem with hold | hnew
  · exact (h.dated issue hold).append [operation]
  · exact hnew

/-- Whatever is no update leaves the generation as it is. -/
theorem silent
    (h : Recorded operations run)
    (operation : Operation)
    (hsilent : operation ≠ .supersede)
    {cancellation : Cancellation}
    {issues : List Issue}
    {events : List Waiters.Event}
    (hgeneration : cancellation.generation = run.cancellation.generation)
    (hissues : ∀ issue ∈ issues, issue ∈ run.issues ∨ issue.Dated (operations ++ [operation]))
    (hrecords : cancellation.waiters.Records events) :
    Recorded (operations ++ [operation]) ⟨cancellation, issues, run.clock + 1, events⟩ where
  clock_eq := by
    rw [h.clock_eq, List.length_append, List.length_singleton]
  generation_eq := by
    rw [hgeneration, h.generation_eq, List.count_append, List.count_singleton,
      if_neg (by rwa [beq_iff_eq]), Nat.add_zero]
  dated := h.dated_concat hissues
  records := hrecords

theorem perform
    (h : Recorded operations run)
    (operation : Operation) :
    Recorded (operations ++ [operation]) (run.perform operation) := by
  have hclock : run.clock + 1 = (operations ++ [operation]).length := by
    rw [h.clock_eq, List.length_append, List.length_singleton]
  cases operation with
  | supersede =>
      have hgeneration : run.cancellation.supersede.1.generation =
          (operations ++ [Operation.supersede]).count .supersede := by
        rw [List.count_append, List.count_singleton_self, ← h.generation_eq]
        rfl
      refine ⟨hclock, hgeneration, h.dated_concat fun issue hmem => ?_, h.records.notified⟩
      refine (List.mem_append.mp hmem).imp_right fun hnew => ?_
      rw [List.mem_singleton.mp hnew, hclock]
      exact .now hgeneration
  | current =>
      have hgeneration : run.cancellation.current.generation =
          (operations ++ [Operation.current]).count .supersede := by
        rw [List.count_append, ← h.generation_eq]
        rfl
      refine h.silent .current nofun rfl (fun issue hmem => ?_) h.records
      refine (List.mem_append.mp hmem).imp_right fun hnew => ?_
      rw [List.mem_singleton.mp hnew, hclock]
      exact .now hgeneration
  | clone index =>
      refine h.silent (.clone index) nofun rfl (fun issue hmem => .inl ?_) h.records
      rcases List.mem_append.mp hmem with hold | hcopy
      · exact hold
      · exact List.mem_of_getElem? (Option.mem_toList.mp hcopy)
  | poll index waker =>
      rw [Run.perform]
      split
      next hnone =>
        exact h.silent (.poll index waker) nofun rfl (fun issue => .inl) h.records
      next issue hissue =>
        cases hcancelled : run.cancellation.isCancelled issue.ticket with
        | true =>
            rw [poll_of_cancelled hcancelled]
            exact h.silent (.poll index waker) nofun rfl (fun issue => .inl) h.records
        | false =>
            rw [poll_of_alive hcancelled]
            exact h.silent (.poll index waker) nofun rfl (fun issue => .inl)
              (h.records.pending waker)

end Recorded

theorem recorded_after
    (operations : List Operation) :
    Recorded operations (Run.after operations) := by
  induction operations using List.reverseRecOn with
  | nil =>
      exact .started
  | append_singleton operations operation ih =>
      rw [Run.after_concat]
      exact ih.perform operation

end Recorded

/-- What becomes of a ticket that is at hand after some operations, and of all its copies. -/
structure Exact
    (operations : List Operation)
    (issue : Issue) : Prop where
  cancelled_iff : (Run.after operations).cancellation.isCancelled issue.ticket = true ↔
    .supersede ∈ operations.drop issue.time
  permanent : (Run.after operations).cancellation.isCancelled issue.ticket = true →
    ∀ later,
      (Run.after (operations ++ later)).cancellation.isCancelled issue.ticket = true
  generation_le : issue.ticket.generation ≤ (Run.after operations).cancellation.generation
  newest : (Run.after operations).cancellation.isCancelled issue.ticket = false ↔
    issue.ticket = (Run.after operations).cancellation.current
  poll_eq : ∀ waker,
    ((Run.after operations).cancellation.poll issue.ticket waker).1 =
      (Run.after operations).cancellation.isCancelled issue.ticket

theorem isCancelled_iff_of_dated
    (h : issue.Dated operations) :
    (Run.after operations).cancellation.isCancelled issue.ticket = true ↔
      .supersede ∈ operations.drop issue.time := by
  rw [isCancelled, bne_iff_ne, (recorded_after operations).generation_eq,
    ← h.generation_add_count, ← List.count_pos_iff]
  omega

/-- A ticket and its copies are cancelled exactly if an update came after the ticket was issued, and
then for ever; all others are of the newest generation.  The next update wakes once each waker that
has had a pending poll since the last one, and no other. -/
theorem cancelled_iff_superseded
    (operations : List Operation) :
    (Run.after operations).cancellation.generation = operations.count .supersede ∧
    (∀ issue ∈ (Run.after operations).issues,
      issue.time ≤ operations.length ∧ Exact operations issue) ∧
    (∀ waker,
      (Run.after (operations ++ [.supersede])).cancellation.waiters.wakeCount waker =
        (Run.after operations).cancellation.waiters.wakeCount waker +
          if Waiters.Awaits waker (Run.after operations).events then 1 else 0) ∧
    ∀ waker,
      (Run.after operations).cancellation.waiters.wakeCount waker =
        Waiters.dueWakes waker (Run.after operations).events := by
  have hrecorded := recorded_after operations
  refine ⟨hrecorded.generation_eq, fun issue hissue => ?_, fun waker => ?_,
    hrecorded.records.wakeCount_eq⟩
  · have hdated := hrecorded.dated issue hissue
    refine ⟨hdated.time_le, isCancelled_iff_of_dated hdated, fun hcancelled later => ?_, ?_, ?_,
      poll_eq_isCancelled _ _⟩
    · rw [isCancelled_iff_of_dated hdated] at hcancelled
      rw [isCancelled_iff_of_dated (hdated.append later),
        List.drop_append_of_le_length hdated.time_le]
      exact List.mem_append_left _ hcancelled
    · rw [hrecorded.generation_eq, ← hdated.generation_add_count]
      exact Nat.le_add_right _ _
    · rw [isCancelled, bne_eq_false_iff_eq, eq_comm]
      exact ⟨congrArg Ticket.mk, congrArg Ticket.generation⟩
  · rw [Run.after_concat]
    exact hrecorded.records.wakeCount_wakeAll_eq waker

/-- The update cancels the ticket and its copy, and wakes a waker with two pending polls once.  The
copy's future is ready then, but that of the new ticket is not. -/
example :
    (Run.after
      [.current, .clone 0, .poll 0 5, .poll 1 5, .supersede, .poll 1 5, .poll 2 6]).cancellation =
        ⟨1, ⟨[6], [5]⟩⟩ := by
  rfl

end Cancellation

end LiveTokens
